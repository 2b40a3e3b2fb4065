import LdapWire.Proofs.Session.Division
import LdapWire.Proofs.Session.Rereading

/-!
# Forwarding messages

A forwarder that knows no controls decodes a message with the empty registry and encodes
it again. The octets may change, because the encoder always chooses the shortest ones, but
whoever reads them cannot tell: with any registry and the same limits a fresh session makes
of the new octets what it makes of the old ones, the same message or the same error
(`Session.Accepts.forward`).
-/

set_option autoImplicit false

namespace LdapWire

/-! ## Controls that are kept -/

theorem Registry.empty_compact : empty.Compact :=
  fun _ _ _ _ known _ => by cases known

namespace Control

variable {control : Control}

/-- The empty registry makes a control of what is sent for it, if it has made it before. -/
theorem Received.reread (received : control.Received .empty) :
    Registry.empty.reread control = .ok control := by
  obtain ⟨_, value, kept⟩ := received
  exact (Registry.reread_of_empty kept .empty).trans kept

/-- A control of the empty registry carries no payload. -/
theorem Received.sound (received : control.Received .empty) : control.layout.Sound := by
  obtain ⟨nonempty, value, kept⟩ := received
  obtain ⟨_, _, carried⟩ := Registry.readControl_eq_ok kept
  have undecoded (payload : Payload) : control.value ≠ .decoded payload := by
    rcases carried with raw | ⟨_, _, _, known, _⟩
    · rw [raw]
      cases value <;> nofun
    · cases known
  have matching : control.mismatch? = none := by
    unfold mismatch?
    split
    · rename_i payload decoded
      exact absurd decoded (undecoded payload)
    · rfl
  have permitted := permitted_layout_iff.2 ⟨nonempty, matching⟩
  exact Layout.sound_iff.2 ⟨permitted, fun payload listed =>
    absurd ((mem_payloads_iff permitted).1 listed) (undecoded payload)⟩

end Control

/-! ## What sessions come to -/

namespace Session

variable {limits : Limits} {octets : Bytes} {message : Message}

/-- Whether a fresh session makes one message of some octets, and of all of them, or fails
with an error. -/
def ComesTo (decoder : Decoder) (octets : Bytes) : Codec Message → Prop
  | .ok message => Accepts decoder octets message
  | .error error => ∃ after, feed decoder octets {} = .error error after

/-- A message that the empty registry has made tells what any other registry comes to. -/
theorem comesTo_of_run_empty
    (ran : Machine.run { registry := .empty, limits } octets {} = .ok (some message, []) {})
    (registry : Registry) :
    ComesTo { registry, limits } octets (registry.rereadMessage message) := by
  have outcome := Machine.outcome_of_run_empty ran registry
  cases made : registry.rereadMessage message with
  | error error =>
      rw [made] at outcome
      obtain ⟨after, failed⟩ := Step.exists_of_outcome_eq_error outcome
      refine ⟨{ machine := after, poisoned := true }, ?_⟩
      rw [feed_fresh, failed]
  | ok other =>
      rw [made] at outcome
      exact accepts_of_run (Step.of_outcome_eq_ok outcome)

/-- **Forwarding is transparent**: a message that has been read with the empty registry can
be encoded, and with any registry a fresh session comes to the same with the new octets as
with the old ones. -/
theorem Accepts.forward (accepts : Accepts { registry := .empty, limits } octets message) :
    ∃ forwarded, message.encode = .ok forwarded
      ∧ ∀ registry,
        ComesTo { registry, limits } octets (registry.rereadMessage message)
        ∧ ComesTo { registry, limits } forwarded (registry.rereadMessage message) := by
  have delivered := accepts.delivered
  have compact := Registry.empty_compact
  have sound := fun control listed => (delivered.controls control listed).sound
  have within : message.Within limits :=
    { size := Nat.le_trans (delivered.size compact) delivered.fits
      depth := delivered.height
      content := delivered.content compact }
  have again := Message.run_bytes_of_made delivered.operation sound
    (fun control listed => (delivered.controls control listed).reread) within
  exact ⟨message.layout.bytes,
    Message.encode_of_sound (Message.sound_of_controls delivered.operation sound),
    fun registry => ⟨comesTo_of_run_empty accepts.run registry,
      comesTo_of_run_empty again registry⟩⟩

/-- An unbind request with a request to synchronise, as whoever does not know the control
receives it. -/
def rawSync : Message :=
  { Message.unbind with
    controls := [{ oid := "1.2", value := .raw [0x30, 0x81, 0x03, 0x0A, 0x01, 0x01] }] }

/-- A forwarder sends the request on as it came, in more octets than need be inside the control
and in no more than that around it. Whoever knows the control reads it. -/
theorem Accepts.forward_unbind :
    ∃ forwarded, rawSync.encode = .ok forwarded
      ∧ Accepts { registry := Registry.empty.insert "1.2" Payload.readSync } forwarded
        { Message.unbind with
          controls := [{ oid := "1.2", value := .decoded (.sync { mode := .refreshOnly }) }] } := by
  have accepts : Accepts { registry := .empty }
      [0x30, 0x81, 0x17, 0x02, 0x02, 0x00, 0x05, 0x42, 0x00, 0xA0, 0x0F, 0x30, 0x0D,
        0x04, 0x03, 0x31, 0x2E, 0x32, 0x04, 0x06, 0x30, 0x81, 0x03, 0x0A, 0x01, 0x01] rawSync := by
    decide +kernel
  obtain ⟨forwarded, encoded, same⟩ := accepts.forward
  obtain ⟨_, again⟩ := same (Registry.empty.insert "1.2" Payload.readSync)
  exact ⟨forwarded, encoded, again⟩

end Session

end LdapWire
