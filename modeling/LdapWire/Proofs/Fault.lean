import LdapWire.Error

/-!
# Faults of the decoder itself

Some violations blame the sender of a message. The others say that an action of
the grammar, or the assembly of a filter, has met a message under construction in
a shape for which it was not made: these would be faults of the decoder
(`CodecError.isInternal`).
-/

set_option autoImplicit false

namespace LdapWire

/-- Whether a violation is a fault of the decoder and not of the message. -/
def Violation.isInternal : Violation → Bool
  | .expectedOperation _ | .operationPresent | .resultMissing
  | .controlMissing | .attributeMissing | .attributeMisplaced | .entryNameMisplaced
  | .changeOperationMissing | .identifierMissing | .operationMissing
  | .filterItemMissing | .notAssertion | .notSubstrings | .notExtensible
  | .secondRoot | .connectiveMissing | .childlessConnective | .childlessNot
  | .unclosedConnective | .filterMissing | .nodeTaken => true
  | _ => false

/-- Whether an error is a fault of the decoder and not of its input. -/
def CodecError.isInternal : CodecError → Bool
  | .structuralViolation violation => violation.isInternal
  | _ => false

end LdapWire
