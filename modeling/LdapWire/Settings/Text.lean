import LdapWire.Settings.Basic
import LdapWire.Yaml.Document

/-!
# Settings as text

Settings are written as a YAML mapping of three sections. A section or a value
that is left out has its default, and keys of other names are passed over.
`Settings.parse` reads such a text and checks the settings, `Settings.toText`
writes one.
-/

set_option autoImplicit false

namespace LdapWire

open Yaml (Node Document)

namespace Batch

/-- The words for each way to process a batch. -/
def Processing.words : List (String × Processing) :=
  [("sequential", .sequential), ("parallel", .parallel)]

def ResponseOrder.words : List (String × ResponseOrder) :=
  [("sequential", .sequential), ("unordered", .unordered)]

def OnError.words : List (String × OnError) := [("exit", .exit), ("resume", .resume)]

def Processing.word : Processing → String
  | .sequential => "sequential"
  | .parallel => "parallel"

def ResponseOrder.word : ResponseOrder → String
  | .sequential => "sequential"
  | .unordered => "unordered"

def OnError.word : OnError → String
  | .exit => "exit"
  | .resume => "resume"

end Batch

namespace Settings

/-- The value of a key by a reader, or its default where the key is missing. -/
def valueOr {α : Type} (entries : List (String × Node)) (key : String)
    (reader : Node → Option α) (absent : α) : Option α := do
  match ← Document.unique? entries key with
  | none => return absent
  | some node => reader node

def readLimits (document : Document) (node : Node) : Option Limits := do
  let entries ← document.entries? node
  let standard : Limits := {}
  return {
    maxPduSize := ← valueOr entries "max_pdu_size" document.size? standard.maxPduSize
    maxDepth := ← valueOr entries "max_depth" document.size? standard.maxDepth }

def readChunkSize (document : Document) (node : Node) : Option Nat := do
  let entries ← document.entries? node
  valueOr entries "read_chunk_size" document.size? ({} : Settings).chunkSize

def readPolicy (document : Document) (node : Node) : Option Batch.Policy := do
  let entries ← document.entries? node
  return {
    processing :=
      ← valueOr entries "processing" (document.word? Batch.Processing.words) .sequential
    responseOrder :=
      ← valueOr entries "response_order" (document.word? Batch.ResponseOrder.words) .sequential
    onError := ← valueOr entries "on_error" (document.word? Batch.OnError.words) .exit }

/-- The settings that a document holds. -/
def ofDocument? (document : Document) : Option Settings := do
  let entries ← document.rootEntries?
  let standard : Settings := {}
  return {
    limits := ← valueOr entries "decoder" (readLimits document) standard.limits
    chunkSize := ← valueOr entries "stream" (readChunkSize document) standard.chunkSize
    policy := ← valueOr entries "batch" (readPolicy document) standard.policy }

/-- Reads settings and checks them. -/
def parse (text : String) : Except SettingsError Settings :=
  match (Document.read text).bind ofDocument? with
  | none => .error .unreadable
  | some settings => do
      settings.check
      return settings

/-- Writes settings with every value, section by section. -/
def toText (settings : Settings) : String :=
  s!"decoder:\n  max_pdu_size: {settings.limits.maxPduSize}\n"
    ++ s!"  max_depth: {settings.limits.maxDepth}\n"
    ++ s!"stream:\n  read_chunk_size: {settings.chunkSize}\n"
    ++ s!"batch:\n  processing: {settings.policy.processing.word}\n"
    ++ s!"  response_order: {settings.policy.responseOrder.word}\n"
    ++ s!"  on_error: {settings.policy.onError.word}\n"

end Settings

end LdapWire
