import LdapWire.Proofs.Ber.Agreement
import LdapWire.Proofs.Session.Octet

/-!
# A machine between elements

A machine without a primitive element under way passes its input to its header. So
what it does with the input is known as soon as it is known what the header makes of
it (`Machine.run_eq_take`).
-/

set_option autoImplicit false

namespace LdapWire.Machine

open Ber

variable {decoder : Decoder} {machine : Machine} {octet : UInt8} {header : Header}

/-! ## One octet -/

theorem push_of_header (idle : machine.current = none)
    (pushed : Header.push octet machine.header = .ok none header) :
    push decoder octet machine = .ok none { machine with header } := by
  simp only [push, idle, takeHeaderOctet, Step.bind_apply, pushHeader, pushed]
  rfl

theorem push_of_announced {tlv : Tlv} (idle : machine.current = none)
    (pushed : Header.push octet machine.header = .ok (some tlv) header) :
    push decoder octet machine = beginElement decoder tlv { machine with header } := by
  simp only [push, idle, takeHeaderOctet, Step.bind_apply, pushHeader, pushed]

theorem push_of_refused {error : CodecError} (idle : machine.current = none)
    (refused : Header.push octet machine.header = .error error header) :
    push decoder octet machine = .error error { machine with header } := by
  simp only [push, idle, takeHeaderOctet, Step.bind_apply, pushHeader, refused]

/-! ## Octets one after another -/

theorem run_of_header (idle : machine.current = none)
    (pushed : Header.push octet machine.header = .ok none header) (rest : Bytes) :
    run decoder (octet :: rest) machine = run decoder rest { machine with header } := by
  rw [run_cons, Step.bind_of_ok _ (push_of_header idle pushed)]
  rfl

theorem run_of_announced {tlv : Tlv} (idle : machine.current = none)
    (pushed : Header.push octet machine.header = .ok (some tlv) header) (rest : Bytes) :
    run decoder (octet :: rest) machine
      = (do let message ← beginElement decoder tlv
            resume decoder (message, rest)) { machine with header } := by
  rw [run_cons, Step.bind_apply, push_of_announced idle pushed, ← Step.bind_apply]

theorem run_of_refused {error : CodecError} (idle : machine.current = none)
    (refused : Header.push octet machine.header = .error error header) (rest : Bytes) :
    run decoder (octet :: rest) machine = .error error { machine with header } := by
  rw [run_cons, Step.bind_of_error _ (push_of_refused idle refused)]

/-- **A machine between elements** begins the one that its header announces. -/
theorem run_eq_take (idle : machine.current = none) (input : Bytes) :
    run decoder input machine =
      match Header.take input machine.header with
      | .ok (some tlv, left) header =>
          (do let message ← beginElement decoder tlv
              resume decoder (message, left)) { machine with header }
      | .ok (none, left) header => .ok (none, left) { machine with header }
      | .error error header => .error error { machine with header } := by
  induction input generalizing machine with
  | nil => rfl
  | cons octet rest further =>
      cases pushed : Header.push octet machine.header with
      | error error header => rw [run_of_refused idle pushed, Header.take_of_refused pushed]
      | ok announced header =>
          cases announced with
          | some tlv => rw [run_of_announced idle pushed, Header.take_of_announced pushed]
          | none =>
              rw [run_of_header idle pushed, Header.take_of_pushed pushed]
              exact further idle

end LdapWire.Machine
