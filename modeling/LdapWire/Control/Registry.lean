import LdapWire.Control.Basic
import LdapWire.Text.Quoted

/-!
# Registered controls

A registry tells how the values of known controls are read. A control that is
not registered keeps its octets, unless it is critical: then the message that
carries it is refused.
-/

set_option autoImplicit false

namespace LdapWire

/-- Reads the value of a control. -/
abbrev PayloadReader := Bytes → Codec Payload

/-- The readers of known controls, each under its OID. -/
structure Registry where
  entries : List (String × PayloadReader) := []

namespace Payload

def readPaged : PayloadReader := fun value => .paged <$> PagedResults.parse value

def readSync : PayloadReader := fun value => .sync <$> SyncRequest.parse value

end Payload

namespace Registry

/-- The registry that knows no control. -/
def empty : Registry := {}

/-- The reader registered for an OID. -/
def reader? (registry : Registry) (oid : String) : Option PayloadReader :=
  registry.entries.lookup oid

def isRegistered (registry : Registry) (oid : String) : Bool := (registry.reader? oid).isSome

/-- Registers a reader, in place of an earlier one for the same OID. -/
def insert (registry : Registry) (oid : String) (reader : PayloadReader) : Registry :=
  { entries := (oid, reader) :: registry.entries.filter (fun entry => entry.1 != oid) }

/-- The registry that knows paged results and synchronisation requests. -/
def builtin : Registry :=
  (empty.insert PagedResults.oid Payload.readPaged).insert SyncRequest.oid Payload.readSync

/-- The registered OIDs in rising order. -/
def oids (registry : Registry) : List String :=
  (registry.entries.map Prod.fst).mergeSort (fun left right => decide (left ≤ right))

/-- One line that lists the registered OIDs. -/
def describe (registry : Registry) : String :=
  "ControlRegistry \x7b oids: [" ++ ", ".intercalate (registry.oids.map Text.Quoted.quote)
    ++ "] \x7d"

/-- Builds a control from the fields that were received. -/
def readControl (registry : Registry) (oid : String) (critical : Bool) (value : Option Bytes) :
    Codec Control :=
  match registry.reader? oid, value with
  | some reader, some content => do
      return { oid, critical, value := .decoded (← reader content) }
  | some _, none => .ok { oid, critical }
  | none, value =>
      if critical then .error (.unsupportedCriticalControl oid)
      else .ok { oid, critical, value := value.elim .absent .raw }

end Registry

end LdapWire
