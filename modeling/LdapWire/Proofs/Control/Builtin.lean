import LdapWire.Proofs.Encode.Bytes
import LdapWire.Proofs.Reading.Control
import LdapWire.Proofs.WellFormed

/-!
# Controls of the built-in registry

The built-in registry reads the payloads of two controls. It makes a well-formed
control of what is sent for it (`Registry.readControl_sent`), every control that it
makes is well formed (`Control.Received.wellFormed`), and no payload that it reads
takes more octets than it was read from (`Registry.builtin_compact`).
-/

set_option autoImplicit false

namespace LdapWire

open Ber

/-! ## Readers -/

namespace Registry

theorem reader?_builtin_paged : builtin.reader? PagedResults.oid = some Payload.readPaged := rfl

theorem reader?_builtin_sync : builtin.reader? SyncRequest.oid = some Payload.readSync := rfl

/-- There are no other readers. -/
theorem reader?_builtin {oid : String} {reader : PayloadReader}
    (known : builtin.reader? oid = some reader) :
    oid = PagedResults.oid ∧ reader = Payload.readPaged
      ∨ oid = SyncRequest.oid ∧ reader = Payload.readSync := by
  have entries : builtin.entries
      = [(SyncRequest.oid, Payload.readSync), (PagedResults.oid, Payload.readPaged)] := rfl
  rw [reader?, entries, List.lookup_cons, List.lookup_cons, List.lookup_nil] at known
  split at known
  · rename_i same
    exact .inr ⟨beq_iff_eq.1 same, (Option.some.inj known).symm⟩
  · split at known
    · rename_i same
      exact .inl ⟨beq_iff_eq.1 same, (Option.some.inj known).symm⟩
    · cases known

/-- A payload that has been read belongs to its control, and takes no more octets
than it was read from. -/
theorem builtin_reads {oid : String} {reader : PayloadReader} {content : Bytes} {payload : Payload}
    (known : builtin.reader? oid = some reader) (parsed : reader content = .ok payload)
    (critical : Bool) :
    (ControlValue.decoded payload).WellFormed oid critical
      ∧ payload.encodedLength ≤ content.length := by
  rcases reader?_builtin known with ⟨rfl, rfl⟩ | ⟨rfl, rfl⟩
  · cases read : PagedResults.parse content with
    | error error => simp [Payload.readPaged, read] at parsed
    | ok paged =>
        have same : Payload.paged paged = payload := by
          simpa [Payload.readPaged, read] using parsed
        obtain ⟨positive, shorter⟩ := PagedResults.of_parse read
        subst same
        exact ⟨⟨rfl, positive⟩, shorter⟩
  · cases read : SyncRequest.parse content with
    | error error => simp [Payload.readSync, read] at parsed
    | ok request =>
        have same : Payload.sync request = payload := by
          simpa [Payload.readSync, read] using parsed
        have shorter := SyncRequest.of_parse read
        subst same
        exact ⟨rfl, shorter⟩

theorem builtin_compact : builtin.Compact :=
  fun _ _ _ _ known parsed => (builtin_reads known parsed false).2

end Registry

/-- Every control that the built-in registry makes is well formed. -/
theorem Control.Received.wellFormed {control : Control} (received : control.Received .builtin) :
    control.WellFormed := by
  obtain ⟨nonempty, _, read⟩ := received
  refine ⟨nonempty, ?_⟩
  generalize control.oid = oid, control.critical = critical at read
  unfold Registry.readControl at read
  split at read
  · rename_i reader content known
    obtain ⟨payload, parsed, returned⟩ := Content.checked_ok read
    cases returned
    exact (Registry.builtin_reads known parsed _).1
  · rename_i reader known
    cases read
    intro _
    rw [Registry.isRegistered, known]
    rfl
  · rename_i sent _ _ unknown
    split at read
    · cases read
    · rename_i tolerable
      cases read
      cases sent with
      | none => exact fun critical => absurd critical tolerable
      | some content =>
          refine ⟨by simpa using tolerable, ?_⟩
          rw [Registry.isRegistered, unknown]
          rfl

/-! ## Controls that are sent -/

/-- The octets by which the value of a control is sent, if there are any. -/
def ControlValue.sent : ControlValue → Option Bytes
  | .absent => none
  | .raw content => some content
  | .decoded payload => some payload.bytes

/-- What a registry makes of a control that is sent to it. -/
def Registry.reread (registry : Registry) (control : Control) : Codec Control :=
  registry.readControl control.oid control.critical control.value.sent

/-- Whether the payload of a control, if it has one, is as short as a length can tell. -/
def Control.Short (control : Control) : Prop :=
  ∀ payload, control.value = .decoded payload →
    payload.encodedLength < 256 ^ Length.maxOctets

namespace Control

variable {control : Control}

theorem mismatch?_eq_none (valid : control.WellFormed) : control.mismatch? = none := by
  obtain ⟨oid, critical, value⟩ := control
  have sendable := valid.value
  cases value with
  | absent => rfl
  | raw content => rfl
  | decoded payload =>
      cases payload with
      | custom => exact sendable.elim
      | paged paged =>
          obtain ⟨rfl, _⟩ := sendable
          simp only [mismatch?, Payload.oid, if_true]
      | sync request =>
          obtain rfl : oid = SyncRequest.oid := sendable
          simp only [mismatch?, Payload.oid, if_true]

/-- A payload that a well-formed control carries keeps the length it claims. -/
theorem honest (valid : control.WellFormed) {payload : Payload}
    (carried : control.value = .decoded payload) :
    payload.bytes.length = payload.encodedLength := by
  have sendable := valid.value
  rw [carried] at sendable
  cases payload with
  | custom => exact sendable.elim
  | paged paged => exact paged.length_bytes
  | sync request => exact request.length_bytes

end Control

namespace Registry

/-- The built-in registry makes a well-formed control of what is sent for it. -/
theorem readControl_sent {control : Control} (valid : control.WellFormed) (short : control.Short) :
    builtin.reread control = .ok control := by
  obtain ⟨oid, critical, value⟩ := control
  have sendable := valid.value
  cases value with
  | absent =>
      simp only [reread, readControl, ControlValue.sent]
      cases known : builtin.reader? oid with
      | some reader => rfl
      | none =>
          have tolerable : critical = false := by
            cases critical with
            | false => rfl
            | true =>
                have registered := sendable rfl
                rw [isRegistered, known] at registered
                cases registered
          subst tolerable
          rfl
  | raw content =>
      obtain ⟨rfl, unknown⟩ : critical = false ∧ builtin.isRegistered oid = false := sendable
      have unread : builtin.reader? oid = none := by simpa [isRegistered] using unknown
      simp only [reread, readControl, ControlValue.sent, unread]
      rfl
  | decoded payload =>
      have fits := short payload rfl
      cases payload with
      | custom => exact sendable.elim
      | paged paged =>
          obtain ⟨rfl, positive⟩ := sendable
          have nonNegative : ¬ paged.size < 0 := Int32.not_lt.2 positive
          have inside : paged.contentLength < 256 ^ Length.maxOctets :=
            Nat.lt_of_le_of_lt (Nat.le_add_left _ _) fits
          simp only [reread, readControl, ControlValue.sent, reader?_builtin_paged,
            Payload.readPaged, Payload.bytes, PagedResults.parse_bytes inside, if_neg nonNegative]
          rfl
      | sync request =>
          obtain rfl : oid = SyncRequest.oid := sendable
          have inside : request.contentLength < 256 ^ Length.maxOctets :=
            Nat.lt_of_le_of_lt (Nat.le_add_left _ _) fits
          simp only [reread, readControl, ControlValue.sent, reader?_builtin_sync,
            Payload.readSync, Payload.bytes, SyncRequest.parse_bytes inside]
          rfl

end Registry

end LdapWire
