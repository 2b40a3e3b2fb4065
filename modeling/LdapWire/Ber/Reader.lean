import LdapWire.Ber.Length
import LdapWire.Ber.Primitive

/-!
# Reading from a complete value

A reader is a step on the octets that are left. It is used for values that are
nested inside octet strings, such as the values of controls, and have been
received as a whole. A step that fails has consumed what it had read by then.
-/

set_option autoImplicit false

namespace LdapWire.Ber

/-- A step that reads from the front of the octets left. -/
abbrev Reader (α : Type) := Step Bytes α

namespace Reader

/-- The identifier octet that comes next, if there is one. -/
def peekTag : Reader (Option UInt8) := fun left => .ok left.head? left

def octet : Reader UInt8
  | [] => .error (.corrupt .truncatedHeader) []
  | first :: rest => .ok first rest

def tag : Reader UInt8 := do
  let tag ← octet
  Step.lift (checkTag tag)
  return tag

/-- Reads the given number of octets that spell a number, after the part of it
already read. -/
def number : (count start : Nat) → Reader Nat
  | 0, value => pure value
  | count + 1, value => do
      let next ← octet
      number count (256 * value + next.toNat)

def length : Reader Nat := do
  match ← Step.lift (Length.form (← octet)) with
  | .short length => return length
  | .long count => number count 0

/-- Takes the given number of octets, or none if there are fewer. -/
def take (count : Nat) : Reader Bytes := fun left =>
  if left.length < count then .error (.corrupt (.truncatedContent count left.length)) left
  else .ok (left.take count) (left.drop count)

/-- The content of the next element, which must have the given tag. -/
def expected (wanted : UInt8) : Reader Bytes := do
  let actual ← tag
  if actual ≠ wanted then throw (.corrupt (.wrongTag wanted actual))
  take (← length)

/-- The content of the next element, which must be a sequence. -/
def sequence : Reader Bytes := expected Tag.sequence

def integer : Reader Int32 := do
  Step.lift (Integer.decodeBounded (← expected Tag.integer))

def enumerated : Reader Int64 := do
  Step.lift (Integer.decodeEnumerated (← expected Tag.enumerated))

def boolean : Reader Bool := do
  Step.lift (Boolean.decode (← expected Tag.boolean))

def octetString : Reader Bytes := expected Tag.octetString

/-- Succeeds only if nothing is left. -/
def finish : Reader Unit := fun left =>
  if left.isEmpty then .ok () left
  else .error (.corrupt (.trailing left.length)) left

/-- Runs a reader on a complete value and drops what it leaves. -/
def runOn {α : Type} (reader : Reader α) (content : Bytes) : Codec α :=
  match reader.run content with
  | .ok value _ => .ok value
  | .error error _ => .error error

/-- Reads a value that is one sequence and nothing else, by a reader of the
sequence's content. -/
def soleSequence {α : Type} (fields : Reader α) (content : Bytes) : Codec α := do
  let inner ← runOn (do let inner ← sequence; finish; return inner) content
  runOn fields inner

end Reader

end LdapWire.Ber
