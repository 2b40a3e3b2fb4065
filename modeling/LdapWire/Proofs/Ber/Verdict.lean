import LdapWire.Proofs.Ber.Agreement

/-!
# One verdict on a header

A header is read octet by octet where octets still arrive, and by a reader where a value is
complete. Both readings come to the same verdict on every string of octets
(`Header.take_iff_header`): they find the same element and leave the same octets, they refuse
the same octet for the same reason, or the octets run out. A header that has been finished is
a new header.

`Header.take_agrees` compares the two by numbers of octets. That the octets left are the same
as well follows because a reader only ever takes octets from the front
(`Reader.LeavesSuffix`).
-/

set_option autoImplicit false

namespace LdapWire.Ber

/-! ## Octets that a reader leaves -/

namespace Reader

variable {α β : Type}

/-- Whether a reader leaves a suffix of its octets, also when it fails. -/
def LeavesSuffix (reader : Reader α) : Prop :=
  ∀ input, match reader input with
    | .ok _ rest | .error _ rest => rest <:+ input

namespace LeavesSuffix

theorem pure (value : α) : LeavesSuffix (Pure.pure value : Reader α) := fun _ => List.suffix_rfl

theorem lift (result : Codec α) : LeavesSuffix (Step.lift result : Reader α) := by
  cases result with
  | ok value => exact fun _ => List.suffix_rfl
  | error error => exact fun _ => List.suffix_rfl

theorem bind {reader : Reader α} {next : α → Reader β} (leaves : LeavesSuffix reader)
    (further : ∀ value, LeavesSuffix (next value)) : LeavesSuffix (reader >>= next) := by
  intro input
  have first := leaves input
  rw [Step.bind_apply]
  cases read : reader input with
  | error error rest =>
      rw [read] at first
      exact first
  | ok value middle =>
      rw [read] at first
      have second := further value middle
      dsimp only
      cases ended : next value middle with
      | ok result rest =>
          rw [ended] at second
          exact second.trans first
      | error error rest =>
          rw [ended] at second
          exact second.trans first

theorem octet : LeavesSuffix octet
  | [] => List.suffix_rfl
  | first :: rest => List.suffix_cons first rest

theorem number (count start : Nat) : LeavesSuffix (number count start) := by
  induction count generalizing start with
  | zero => exact pure start
  | succ count further => exact octet.bind fun next => further (256 * start + next.toNat)

theorem header : LeavesSuffix header := by
  have tagged : LeavesSuffix tag :=
    octet.bind fun tag => (lift (checkTag tag)).bind fun _ => pure tag
  have measured : LeavesSuffix length := by
    refine octet.bind fun first => (lift (Length.form first)).bind fun form => ?_
    cases form with
    | short length => exact pure length
    | long count => exact number count 0
  exact tagged.bind fun tag => measured.bind fun length => pure (tag, length)

end LeavesSuffix

end Reader

/-! ## The octet that is refused -/

namespace Header

variable {octet : UInt8} {header after : Header} {error : CodecError}

/-- Octets left behind a refused one, as many as have not been counted, are those that come
after it. -/
theorem rest_of_refused {front back left : Bytes} {middle : Header}
    (taken : take front {} = .ok (none, []) middle)
    (refused : push octet middle = .error error after) (leaves : left <:+ front ++ octet :: back)
    (counted : after.bytesRead + left.length = (front ++ octet :: back).length) : left = back := by
  have before : middle.bytesRead = 0 + front.length := bytesRead_of_take taken
  have behind : back <:+ front ++ octet :: back :=
    (List.suffix_cons octet back).trans (List.suffix_append front _)
  rw [(refused_of_push refused).2, before, List.length_append, List.length_cons] at counted
  have size : left.length = back.length := by omega
  exact (List.suffix_of_suffix_length_le leaves behind size.le).eq_of_length size

/-! ## The verdict -/

/-- What a reader refuses is refused at the same octet. -/
theorem refused_iff_header {input rest : Bytes} :
    (∃ front octet middle after, input = front ++ octet :: rest
        ∧ take front {} = .ok (none, []) middle ∧ push octet middle = .error error after)
      ↔ Reader.header input = .error error rest
        ∧ ∃ corruption, error = .corrupt corruption ∧ corruption ≠ .truncatedHeader := by
  have agrees := take_agrees input
  have leaves := Reader.LeavesSuffix.header input
  constructor
  · rintro ⟨front, octet, middle, after, rfl, taken, refused⟩
    obtain ⟨corruption, rfl⟩ := (refused_of_push refused).1
    rw [take_eq_error_iff.2 ⟨front, octet, rest, middle, rfl, taken, refused⟩] at agrees
    cases read : Reader.header (front ++ octet :: rest) with
    | ok found left =>
        rw [read] at agrees
        exact agrees.elim
    | error fault left =>
        rw [read] at agrees leaves
        obtain ⟨rfl, unlike, counted⟩ := agrees
        rw [rest_of_refused taken refused leaves counted]
        exact ⟨rfl, corruption, rfl, fun equal => unlike (congrArg CodecError.corrupt equal)⟩
  · rintro ⟨read, corruption, rfl, unlike⟩
    rw [read] at agrees leaves
    cases taken : take input {} with
    | ok result after =>
        rw [taken] at agrees
        exact absurd (CodecError.corruptEncoding.inj agrees.1) unlike
    | error fault after =>
        rw [taken] at agrees
        obtain ⟨rfl, _, counted⟩ := agrees
        obtain ⟨front, octet, back, middle, rfl, taken, refused⟩ := take_eq_error_iff.1 taken
        rw [rest_of_refused taken refused leaves counted]
        exact ⟨front, octet, middle, after, rfl, taken, refused⟩

/-- What a header announces is a new element, and the header is a new one. -/
theorem announced_iff_header {input rest : Bytes} {tlv : Tlv} :
    take input {} = .ok (some tlv, rest) after
      ↔ Reader.header input = .ok (tlv.tag, tlv.length) rest
        ∧ tlv.headerLength + rest.length = input.length
        ∧ tlv.consumed = 0 ∧ tlv.received = [] ∧ after = {} := by
  constructor
  · intro taken
    have read := header_of_take taken
    obtain ⟨rfl, _, counted⟩ := announced_of_take taken
    have fresh := header_eq_ok_iff.1 read
    rw [taken] at fresh
    simp only [EStateM.Result.ok.injEq, Prod.mk.injEq, Option.some.injEq, and_true] at fresh
    have size : tlv.headerLength + rest.length = 0 + input.length := counted
    exact ⟨read, size.trans (Nat.zero_add _), congrArg Tlv.consumed fresh,
      congrArg Tlv.received fresh, rfl⟩
  · rintro ⟨read, counted, consumed, received, rfl⟩
    obtain ⟨tag, length, headerLength, _, _⟩ := tlv
    cases consumed
    cases received
    have size : input.length - rest.length = headerLength := by
      dsimp only at counted
      omega
    rw [header_eq_ok_iff.1 read, size]

/-- The octets run out where a reader is lacking one. -/
theorem lacking_iff_header {input : Bytes} :
    (∃ after, take input {} = .ok (none, []) after)
      ↔ ∃ rest, Reader.header input = .error Reader.truncated rest := by
  have agrees := take_agrees input
  constructor
  · rintro ⟨after, taken⟩
    rw [taken] at agrees
    cases read : Reader.header input with
    | ok found left =>
        rw [read] at agrees
        cases agrees.1
    | error fault left =>
        rw [read] at agrees
        exact ⟨left, by rw [agrees.1]⟩
  · rintro ⟨rest, read⟩
    rw [read] at agrees
    cases taken : take input {} with
    | error fault after =>
        rw [taken] at agrees
        exact absurd rfl agrees.2.1
    | ok result after =>
        obtain ⟨announced, left⟩ := result
        rw [taken] at agrees
        obtain ⟨_, _, rfl, rfl, _⟩ := agrees
        exact ⟨after, rfl⟩

/-- **One verdict on a header.** Passing octets to a new header announces an element if and only
if a reader finds it, in as many octets, and the header is a new one again. One of the octets is
refused if and only if a reader fails at it, for the same fault of the encoding. And the octets
run out if and only if a reader finds the value truncated. -/
theorem take_iff_header (input : Bytes) :
    (∀ tlv rest after, take input {} = .ok (some tlv, rest) after
      ↔ Reader.header input = .ok (tlv.tag, tlv.length) rest
        ∧ tlv.headerLength + rest.length = input.length
        ∧ tlv.consumed = 0 ∧ tlv.received = [] ∧ after = {})
    ∧ (∀ error rest,
      (∃ front octet middle after, input = front ++ octet :: rest
        ∧ take front {} = .ok (none, []) middle ∧ push octet middle = .error error after)
      ↔ Reader.header input = .error error rest
        ∧ ∃ corruption, error = .corrupt corruption ∧ corruption ≠ .truncatedHeader)
    ∧ ((∃ after, take input {} = .ok (none, []) after)
      ↔ ∃ rest, Reader.header input = .error Reader.truncated rest)
    ∧ Reader.truncated.message = "Corrupt encoding: BER value truncated" :=
  ⟨fun _ _ _ => announced_iff_header, fun _ _ => refused_iff_header, lacking_iff_header, by decide⟩

end Header

end LdapWire.Ber
