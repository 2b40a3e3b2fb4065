import LdapWire.Ber.Writer
import LdapWire.Encode.Plan

/-!
# The byte pass

`Layout.write` writes a layout by a plan: the length of every constructed element
and of every payload is taken from the plan before its content is written, and
compared with what was written after it. `Message.encodeInto` writes a message
into a buffer, whose octets beyond the planned length stay as they are, and
`Message.encode` into one of its own.
-/

set_option autoImplicit false

namespace LdapWire

open Ber

/-- A writer with the lengths that are still to come. -/
structure PlannedWriter where
  writer : Writer
  lengths : List Nat

namespace PlannedWriter

/-- The number of octets written. -/
def position (planned : PlannedWriter) : Nat := planned.writer.position

/-- Takes a step of the writer. -/
def onWriter {α : Type} (step : Step Writer α) : Step PlannedWriter α := fun planned =>
  match step planned.writer with
  | .ok value writer => .ok value { planned with writer }
  | .error error writer => .error error { planned with writer }

/-- Takes the next length of the plan. -/
def nextLength : Step PlannedWriter Nat := fun planned =>
  match planned.lengths with
  | [] => .error .planExhausted planned
  | length :: lengths => .ok length { planned with lengths }

/-- Writes an element whose content must turn out as long as planned. -/
def element (tag : UInt8) (content : Step PlannedWriter Unit) : Step PlannedWriter Unit := do
  let expected ← nextLength
  onWriter (Writer.writeTag tag)
  onWriter (Writer.writeLength expected)
  let start := (← get).position
  content
  let written := (← get).position - start
  if written ≠ expected then throw (.lengthMismatch expected written)

end PlannedWriter

namespace Layout

open PlannedWriter

mutual

/-- Writes one layout. -/
def write : Layout → Step PlannedWriter Unit
  | .primitive tag content => onWriter (Writer.writeElement tag content)
  | .constructed tag parts => element tag (writeAll parts)
  | .payload value => element Tag.octetString (onWriter value.encode)
  | .refusal violation => throw (.violation violation)

/-- Writes layouts one after another. -/
def writeAll : List Layout → Step PlannedWriter Unit
  | [] => pure ()
  | part :: rest => do
      write part
      writeAll rest

end

end Layout

namespace Message

/-- Writes a message into a buffer by a plan, and returns the number of octets
and the buffer afterwards. -/
def encodeInto (message : Message) (plan : Plan) (buffer : Bytes) : Codec Nat × Bytes :=
  if buffer.length < plan.total then
    (.error (.bufferTooSmall plan.total buffer.length), buffer)
  else
    let start : PlannedWriter :=
      { writer := Writer.ofBuffer (buffer.take plan.total), lengths := plan.lengths }
    let after (planned : PlannedWriter) : Bytes :=
      planned.writer.buffer ++ buffer.drop plan.total
    match message.layout.write.run start with
    | .error error planned => (.error error, after planned)
    | .ok () planned =>
        if planned.position ≠ plan.total then
          (.error (.lengthMismatch plan.total planned.position), after planned)
        else (.ok planned.position, after planned)

/-- The shortest encoding of a message. -/
def encode (message : Message) : Codec Bytes := do
  let plan ← message.plan
  let (outcome, buffer) := message.encodeInto plan (List.replicate plan.total 0)
  let _ ← outcome
  return buffer

end Message

end LdapWire
