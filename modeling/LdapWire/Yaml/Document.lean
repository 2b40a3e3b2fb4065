import LdapWire.Text.Digits
import LdapWire.Yaml.Node

/-!
# YAML documents

`Document.read` reads the only document of a text. Its nodes are read as the
entries of a mapping, as a size or as one of some words; in each case an alias is
read as the node that it stands for.
-/

set_option autoImplicit false

namespace LdapWire.Yaml

/-- A document, in which there may be nothing at all. -/
structure Document where
  root : Option Node
  /-- The nodes that aliases stand for, the latest first. -/
  anchors : List (Nat × Node)

namespace Document

/-- Reads the only document of a text. -/
def read (text : String) : Option Document := do
  let root ← Node.ofTokens (← Token.scan text)
  return { root, anchors := (root.toList.flatMap Node.anchored).reverse }

/-- The node itself or the one that an alias stands for. -/
def resolve (document : Document) : Node → Node
  | .alias number => (document.anchors.lookup number).getD (.alias number)
  | node => node

/-! ## Mappings -/

/-- The text of a scalar. -/
def text? (document : Document) (node : Node) : Option String :=
  match document.resolve node with
  | .scalar _ _ _ text => some text
  | _ => none

/-- The entries of a mapping, whose keys are scalars. Where nothing is written
there are none. -/
def entries? (document : Document) (node : Node) : Option (List (String × Node)) :=
  match document.resolve node with
  | .mapping _ entries =>
      entries.mapM fun (key, value) => do return (← document.text? key, value)
  | .scalar _ _ .plain "" => some []
  | _ => none

/-- The entries of the whole document. -/
def rootEntries? (document : Document) : Option (List (String × Node)) :=
  match document.root with
  | none => some []
  | some node => document.entries? node

/-- The value of a key, which must not be given twice. The outer option tells
whether that holds, the inner one whether the key is given. -/
def unique? (entries : List (String × Node)) (key : String) : Option (Option Node) :=
  match entries.filter (fun entry => entry.1 == key) with
  | [] => some none
  | [entry] => some (some entry.2)
  | _ => none

/-! ## Numbers and words -/

/-- A number without a sign, or with a plus. The base may be given by `0x`, `0o`
or `0b`; a decimal number does not start with a needless zero. -/
def magnitude? (characters : List Char) : Option Nat :=
  let unsigned :=
    match characters with
    | '+' :: rest => rest
    | _ => characters
  match unsigned with
  | '0' :: 'x' :: rest => Text.Digits.number? 16 rest
  | '0' :: 'o' :: rest => Text.Digits.number? 8 rest
  | '0' :: 'b' :: rest => Text.Digits.number? 2 rest
  | '0' :: _ :: _ => none
  | _ => Text.Digits.number? 10 unsigned

/-- The tag of whole numbers. -/
def integerTag : String := "tag:yaml.org,2002:int"

/-- A size: a number of at most 64 bits in a plain scalar, or in a literal one
with the tag of whole numbers. -/
def size? (document : Document) (node : Node) : Option Nat :=
  match document.resolve node with
  | .scalar _ tag style text =>
      if style = .plain ∨ (style = .literal ∧ tag = some integerTag) then do
        let value ← magnitude? text.toList
        if value < UInt64.size then return value else none
      else none
  | _ => none

/-- Whether a scalar says that there is no value. -/
def isNothing (style : Style) (text : String) : Bool :=
  style == .plain && ["", "~", "null", "Null", "NULL"].contains text

/-- The word that a scalar of any style is. A tag of the document's own is the
word itself, and then the scalar says that there is no value. -/
def spelling? (document : Document) (node : Node) : Option String :=
  match document.resolve node with
  | .scalar _ tag style text =>
      match (tag.getD "").toList with
      | '!' :: word => if isNothing style text then some (String.ofList word) else none
      | _ => some text
  | _ => none

/-- A scalar as one of the given words. -/
def word? {α : Type} (choices : List (String × α)) (document : Document) (node : Node) :
    Option α := do
  choices.lookup (← document.spelling? node)

end Document

end LdapWire.Yaml
