import LdapWire.Ber.Length
import LdapWire.Ber.Primitive

/-!
# Writing into a buffer

A writer fills a buffer of fixed size from its start. A write that does not fit
changes nothing and fails; an element is several writes, so one that fails half
way leaves its header behind.
-/

set_option autoImplicit false

namespace LdapWire.Ber

/-- A buffer with the part already written. -/
structure Writer where
  /-- The octets written, the latest first. -/
  written : Bytes := []
  /-- The octets of the buffer after those written. -/
  rest : Bytes
deriving DecidableEq

namespace Writer

/-- A writer at the start of a buffer. -/
def ofBuffer (buffer : Bytes) : Writer := { rest := buffer }

/-- The number of octets written. -/
def position (writer : Writer) : Nat := writer.written.length

/-- The number of octets that still fit. -/
def remaining (writer : Writer) : Nat := writer.rest.length

/-- The whole buffer. -/
def buffer (writer : Writer) : Bytes := writer.written.reverseAux writer.rest

/-- Writes octets if they fit. -/
def write (content : Bytes) : Step Writer Unit := fun writer =>
  if writer.remaining < content.length then
    .error (.bufferTooSmall (writer.position + content.length)
      (writer.position + writer.remaining)) writer
  else
    .ok () { written := content.reverseAux writer.written, rest := writer.rest.drop content.length }

theorem length_buffer (writer : Writer) :
    writer.buffer.length = writer.position + writer.remaining := by
  simp [buffer, position, remaining, List.reverseAux_eq]

def writeTag (tag : UInt8) : Step Writer Unit := write [tag]

/-- Writes a length in its shortest form. -/
def writeLength (length : Nat) : Step Writer Unit := do
  if length < 0x80 then write [UInt8.ofNat length]
  else
    write [Length.longMarker length]
    write (Length.longOctets length)

/-- Writes an element with the given content. -/
def writeElement (tag : UInt8) (content : Bytes) : Step Writer Unit := do
  writeTag tag
  writeLength content.length
  write content

/-- Writes the shortest form of an integer without a header and returns the
number of octets. -/
def writeIntegerContent (value : Int) : Step Writer Nat := do
  write (Integer.bytes value)
  return Integer.byteWidth value

def writeIntegerAs (tag : UInt8) (value : Int) : Step Writer Unit :=
  writeElement tag (Integer.bytes value)

def writeInteger (value : Int) : Step Writer Unit := writeIntegerAs Tag.integer value

def writeEnumerated (value : Int) : Step Writer Unit := writeIntegerAs Tag.enumerated value

def writeBooleanAs (tag : UInt8) (value : Bool) : Step Writer Unit :=
  writeElement tag (Boolean.bytes value)

def writeBoolean (value : Bool) : Step Writer Unit := writeBooleanAs Tag.boolean value

def writeOctetString (content : Bytes) : Step Writer Unit :=
  writeElement Tag.octetString content

end Writer

end LdapWire.Ber
