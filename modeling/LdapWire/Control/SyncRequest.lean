import LdapWire.Ber.Reader
import LdapWire.Ber.Writer

/-!
# Content synchronisation

The value of the control that asks a server to keep a copy of its content in
step: a sequence of the mode, an optional cookie and a hint to start afresh,
which is left out when it is false.
-/

set_option autoImplicit false

namespace LdapWire

open Ber

/-- Whether the client wants to be told of later changes as well. -/
inductive SyncMode where
  | refreshOnly
  | refreshAndPersist
deriving DecidableEq

namespace SyncMode

def code : SyncMode → Int
  | .refreshOnly => 1
  | .refreshAndPersist => 3

def ofCode (code : Int) : Codec SyncMode :=
  match code with
  | 1 => .ok .refreshOnly
  | 3 => .ok .refreshAndPersist
  | _ => .error (.violation (.invalid "sync mode" code))

def title : SyncMode → String
  | .refreshOnly => "RefreshOnly"
  | .refreshAndPersist => "RefreshAndPersist"

end SyncMode

/-- The value of a synchronisation request control. -/
structure SyncRequest where
  mode : SyncMode
  cookie : Option Bytes := none
  reloadHint : Bool := false
deriving DecidableEq

namespace SyncRequest

def oid : String := "1.3.6.1.4.1.4203.1.9.1.1"

/-- Whether later changes are asked for. -/
def persists (request : SyncRequest) : Bool := request.mode == .refreshAndPersist

/-- The number of octets inside the sequence. -/
def contentLength (request : SyncRequest) : Nat :=
  (1 + 1 + Integer.byteWidth request.mode.code)
    + request.cookie.elim 0 (fun cookie => 1 + Length.width cookie.length + cookie.length)
    + (if request.reloadHint then 3 else 0)

/-- The number of octets of the whole value. -/
def encodedLength (request : SyncRequest) : Nat :=
  1 + Length.width request.contentLength + request.contentLength

def encode (request : SyncRequest) : Step Writer Unit := do
  Writer.writeTag Tag.sequence
  Writer.writeLength request.contentLength
  Writer.writeEnumerated request.mode.code
  if let some cookie := request.cookie then Writer.writeOctetString cookie
  if request.reloadHint then Writer.writeBoolean true

/-- The fields inside the sequence. -/
def fields : Reader SyncRequest := do
  let mode ← Step.lift (SyncMode.ofCode (← Reader.enumerated).toInt)
  let cookie ←
    if (← Reader.peekTag) = some Tag.octetString then some <$> Reader.octetString
    else pure none
  let reloadHint ←
    if (← Reader.peekTag) = some Tag.boolean then Reader.boolean else pure false
  Reader.finish
  return { mode, cookie, reloadHint }

def parse (value : Bytes) : Codec SyncRequest := Reader.soleSequence fields value

end SyncRequest

end LdapWire
