import LdapWire.Ber.Reader
import LdapWire.Ber.Writer

/-!
# Paged results

The value of the control that asks for search results page by page: a sequence
of the page size and a cookie by which the server knows where to go on.
-/

set_option autoImplicit false

namespace LdapWire

open Ber

/-- The value of a paged results control. -/
structure PagedResults where
  size : Int32
  cookie : Bytes := []
deriving DecidableEq

namespace PagedResults

def oid : String := "1.2.840.113556.1.4.319"

/-- The cookie as an unsigned number, if it has at most four octets. -/
def cookieValue (paged : PagedResults) : Option Nat :=
  if 4 < paged.cookie.length then none else some (Integer.unsigned paged.cookie)

/-- The number of octets inside the sequence. -/
def contentLength (paged : PagedResults) : Nat :=
  (1 + 1 + Integer.byteWidth paged.size.toInt)
    + (1 + Length.width paged.cookie.length + paged.cookie.length)

/-- The number of octets of the whole value. -/
def encodedLength (paged : PagedResults) : Nat :=
  1 + Length.width paged.contentLength + paged.contentLength

def encode (paged : PagedResults) : Step Writer Unit := do
  Writer.writeTag Tag.sequence
  Writer.writeLength paged.contentLength
  Writer.writeInteger paged.size.toInt
  Writer.writeOctetString paged.cookie

/-- The fields inside the sequence. -/
def fields : Reader PagedResults := do
  let size ← Reader.integer
  if size < 0 then throw (.violation (.negative "page size" size.toInt))
  let cookie ← Reader.octetString
  Reader.finish
  return { size, cookie }

def parse (value : Bytes) : Codec PagedResults := Reader.soleSequence fields value

end PagedResults

end LdapWire
