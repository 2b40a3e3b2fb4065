import LdapWire.Ber.Reader
import LdapWire.Proofs.Ber.Header

/-!
# The two ways of reading a header

`Reader.header` reads the header of an element from the front of a complete value,
`Header.take` passes octets to a header that reads them one at a time. Both come to
the same end (`Header.take_agrees`): they find the same element and leave the same
octets, they refuse the same octet for the same reason, or the octets run out.

What is found in some octets is found in more octets as well (`Header.take_append`,
`Header.header_append`).
-/

set_option autoImplicit false

namespace LdapWire.Ber

/-- Reads the header of an element: its tag and the declared length of its content. -/
def Reader.header : Reader (UInt8 × Nat) := do
  let tag ← Reader.tag
  let length ← Reader.length
  return (tag, length)

/-- The error of a reader that runs out of octets within a header. -/
abbrev Reader.truncated : CodecError := .corrupt .truncatedHeader

/-! ## The parts of a header -/

namespace Reader

variable {tag : UInt8}

theorem tag_cons (tag : UInt8) (rest : Bytes) :
    Reader.tag (tag :: rest) =
      match checkTag tag with
      | .ok () => .ok tag rest
      | .error error => .error error rest := by
  have taken : octet (tag :: rest) = .ok tag rest := rfl
  rw [Reader.tag, Step.bind_of_ok _ taken]
  cases checkTag tag <;> rfl

theorem tag_of_single (single : checkTag tag = .ok ()) (rest : Bytes) :
    Reader.tag (tag :: rest) = .ok tag rest := by
  rw [tag_cons, single]

/-- What comes after a tag is a length. -/
theorem header_of_single (single : checkTag tag = .ok ()) (rest : Bytes) :
    header (tag :: rest) = (do let length ← Reader.length; return (tag, length)) rest := by
  rw [header, Step.bind_of_ok _ (tag_of_single single rest)]

/-- A length is what its first octet says, or what the octets spell that it counts. -/
theorem length_cons (first : UInt8) (rest : Bytes) :
    Reader.length (first :: rest) =
      match Length.form first with
      | .ok (.short length) => .ok length rest
      | .ok (.long count) => number count 0 rest
      | .error error => .error error rest := by
  have taken : octet (first :: rest) = .ok first rest := rfl
  rw [Reader.length, Step.bind_of_ok _ taken]
  cases Length.form first with
  | error error => rfl
  | ok form => cases form <;> rfl

end Reader

namespace Header

/-- Passes octets to a header until they announce an element, and returns what is
left, or passes all of them. -/
def take : Bytes → Step Header (Option Tlv × Bytes)
  | [] => return (none, [])
  | octet :: rest => do
      match ← push octet with
      | some tlv => return (some tlv, rest)
      | none => take rest

/-- Whether a reader and a header come to the same end, where a header has read
`octets` octets if none of them is left. -/
def Agrees (octets : Nat) : EStateM.Result CodecError Bytes (UInt8 × Nat) →
    EStateM.Result CodecError Header (Option Tlv × Bytes) → Prop
  | .ok (tag, length) rest, .ok (announced, left) after =>
      announced = some { tag, length, headerLength := octets - rest.length } ∧ left = rest
        ∧ after = {}
  | .error error rest, .ok (announced, left) after =>
      error = Reader.truncated ∧ rest = [] ∧ announced = none ∧ left = []
        ∧ after.bytesRead = octets
  | .error error rest, .error refusal after =>
      error = refusal ∧ error ≠ Reader.truncated ∧ after.bytesRead + rest.length = octets
  | .ok _ _, .error _ _ => False

/-! ## One octet -/

variable {octet : UInt8} {rest : Bytes} {header after : Header}

theorem take_of_announced {tlv : Tlv} (pushed : push octet header = .ok (some tlv) after) :
    take (octet :: rest) header = .ok (some tlv, rest) after := by
  rw [take, Step.bind_of_ok _ pushed]
  rfl

theorem take_of_pushed (pushed : push octet header = .ok none after) :
    take (octet :: rest) header = take rest after := by
  rw [take, Step.bind_of_ok _ pushed]

theorem take_of_refused {error : CodecError} (refused : push octet header = .error error after) :
    take (octet :: rest) header = .error error after := by
  rw [take, Step.bind_of_error _ refused]

/-! ## Agreement -/

theorem checkTag_ne_truncated {tag : UInt8} {error : CodecError}
    (failed : checkTag tag = .error error) : error ≠ Reader.truncated := by
  unfold checkTag at failed
  split at failed <;> cases failed
  simp

theorem form_ne_truncated {first : UInt8} {error : CodecError}
    (failed : Length.form first = .error error) : error ≠ Reader.truncated := by
  unfold Length.form at failed
  dsimp only at failed
  repeat' split at failed
  all_goals cases failed
  all_goals simp

/-- The octets that spell a length in the long form. -/
theorem take_longLength_agrees (tag : UInt8) {remaining : Nat} (lacking : 0 < remaining)
    (length bytesRead : Nat) (input : Bytes) :
    Agrees (bytesRead + input.length)
      ((do let length ← Reader.number remaining length; return (tag, length)) input)
      (take input { phase := .longLength tag remaining length, bytesRead }) := by
  induction input generalizing remaining length bytesRead with
  | nil =>
      obtain ⟨fewer, rfl⟩ := Nat.exists_eq_add_one.2 lacking
      exact ⟨rfl, rfl, rfl, rfl, rfl⟩
  | cons octet rest further =>
      obtain ⟨fewer, rfl⟩ := Nat.exists_eq_add_one.2 lacking
      have size : bytesRead + (octet :: rest).length = bytesRead + 1 + rest.length := by
        rw [List.length_cons]
        omega
      rw [size]
      cases fewer with
      | zero =>
          rw [take_of_announced rfl]
          refine ⟨?_, rfl, rfl⟩
          rw [Nat.add_sub_cancel]
          rfl
      | succ fewer =>
          rw [take_of_pushed rfl]
          exact further (Nat.succ_pos fewer) (256 * length + octet.toNat) (bytesRead + 1)

/-- The octets of a length. -/
theorem take_length_agrees (tag : UInt8) (bytesRead : Nat) (input : Bytes) :
    Agrees (bytesRead + input.length)
      ((do let length ← Reader.length; return (tag, length)) input)
      (take input { phase := .length tag, bytesRead }) := by
  cases input with
  | nil => exact ⟨rfl, rfl, rfl, rfl, rfl⟩
  | cons first rest =>
      have size : bytesRead + (first :: rest).length = bytesRead + 1 + rest.length := by
        rw [List.length_cons]
        omega
      have read := Reader.length_cons first rest
      rw [size]
      cases formed : Length.form first with
      | error error =>
          rw [formed] at read
          have refused : push first { phase := .length tag, bytesRead }
              = .error error { phase := .length tag, bytesRead := bytesRead + 1 } := by
            simp only [push, formed]
          rw [Step.bind_of_error _ read, take_of_refused refused]
          exact ⟨rfl, form_ne_truncated formed, rfl⟩
      | ok form =>
          rw [formed] at read
          cases form with
          | short length =>
              have announced : push first { phase := .length tag, bytesRead }
                  = .ok (some { tag, length, headerLength := bytesRead + 1 }) {} := by
                simp only [push, formed]
                rfl
              rw [Step.bind_of_ok _ read, take_of_announced announced]
              refine ⟨?_, rfl, rfl⟩
              rw [Nat.add_sub_cancel]
          | long count =>
              have counted : push first { phase := .length tag, bytesRead }
                  = .ok none
                      { phase := .longLength tag count 0, bytesRead := bytesRead + 1 } := by
                simp only [push, formed]
              rw [take_of_pushed counted, Step.bind_apply, read, ← Step.bind_apply]
              exact take_longLength_agrees tag (Length.form_long formed).1 0 (bytesRead + 1) rest

/-- **A header that is read octet by octet** ends as a reader does. -/
theorem take_agrees (input : Bytes) :
    Agrees input.length (Reader.header input) (take input {}) := by
  cases input with
  | nil => exact ⟨rfl, rfl, rfl, rfl, rfl⟩
  | cons tag rest =>
      cases checked : checkTag tag with
      | error error =>
          have tagged : Reader.tag (tag :: rest) = .error error rest := by
            rw [Reader.tag_cons, checked]
          have refused : push tag {} = .error error { bytesRead := 1 } := by
            simp only [push, checked]
          rw [Reader.header, Step.bind_of_error _ tagged, take_of_refused refused]
          exact ⟨rfl, checkTag_ne_truncated checked, Nat.add_comm _ _⟩
      | ok =>
          have pushed : push tag {} = .ok none { phase := .length tag, bytesRead := 1 } := by
            simp only [push, checked]
          rw [Reader.header_of_single checked, take_of_pushed pushed, List.length_cons,
            Nat.add_comm]
          exact take_length_agrees tag 1 rest

/-! ## More octets -/

/-- Octets and then others. -/
theorem take_append (front back : Bytes) (header : Header) :
    take (front ++ back) header =
      match take front header with
      | .ok (some tlv, left) after => .ok (some tlv, left ++ back) after
      | .ok (none, _) after => take back after
      | .error error after => .error error after := by
  induction front generalizing header with
  | nil => rfl
  | cons octet rest further =>
      rw [List.cons_append]
      cases pushed : push octet header with
      | error error after => rw [take_of_refused pushed, take_of_refused pushed]
      | ok announced after =>
          cases announced with
          | some tlv => rw [take_of_announced pushed, take_of_announced pushed]
          | none => rw [take_of_pushed pushed, take_of_pushed pushed, further]

/-- What a header announces is what a reader finds. -/
theorem header_of_take {input rest : Bytes} {tlv : Tlv}
    (taken : take input {} = .ok (some tlv, rest) after) :
    Reader.header input = .ok (tlv.tag, tlv.length) rest := by
  have agrees := take_agrees input
  rw [taken] at agrees
  cases read : Reader.header input with
  | ok result left =>
      obtain ⟨tag, length⟩ := result
      rw [read] at agrees
      obtain ⟨same, rfl, _⟩ := agrees
      cases same
      rfl
  | error error left =>
      rw [read] at agrees
      obtain ⟨_, _, none, _⟩ := agrees
      cases none

/-- What a reader finds is what a header announces. -/
theorem header_eq_ok_iff {input rest : Bytes} {tag : UInt8} {length : Nat} :
    Reader.header input = .ok (tag, length) rest ↔
      take input {}
        = .ok (some { tag, length, headerLength := input.length - rest.length }, rest) {} := by
  refine ⟨fun read => ?_, header_of_take⟩
  have agrees := take_agrees input
  rw [read] at agrees
  cases taken : take input {} with
  | ok result after =>
      obtain ⟨announced, left⟩ := result
      rw [taken] at agrees
      obtain ⟨rfl, rfl, rfl⟩ := agrees
      rfl
  | error error after =>
      rw [taken] at agrees
      exact agrees.elim

/-- A header that is found in some octets is found in more of them as well. -/
theorem header_append {front rest : Bytes} {tag : UInt8} {length : Nat}
    (read : Reader.header front = .ok (tag, length) rest) (back : Bytes) :
    Reader.header (front ++ back) = .ok (tag, length) (rest ++ back) := by
  rw [header_eq_ok_iff] at read ⊢
  rw [take_append, read]
  simp only [List.length_append, Nat.add_sub_add_right]

/-! ## One octet after another -/

/-- What every octet keeps that leaves a header waiting is kept by all of them. -/
theorem take_induction (motive : Bytes → Header → Prop) {input left : Bytes}
    (start : motive [] header)
    (next : ∀ front octet before after, motive front before → push octet before = .ok none after →
      motive (front ++ [octet]) after)
    (taken : take input header = .ok (none, left) after) : motive input after := by
  induction input generalizing header motive with
  | nil =>
      cases taken
      exact start
  | cons octet rest further =>
      cases pushed : push octet header with
      | error error middle =>
          rw [take_of_refused pushed] at taken
          cases taken
      | ok found middle =>
          cases found with
          | some tlv =>
              rw [take_of_announced pushed] at taken
              cases taken
          | none =>
              rw [take_of_pushed pushed] at taken
              exact further (fun front => motive (octet :: front))
                (next [] octet header middle start pushed) (fun front => next (octet :: front))
                taken

/-- Octets leave a header waiting, or one of them ends it after those before it. -/
theorem take_cases (input : Bytes) (header : Header) :
    (∃ after, take input header = .ok (none, []) after)
      ∨ ∃ front octet back middle, input = front ++ octet :: back
        ∧ take front header = .ok (none, []) middle
        ∧ take input header =
          match push octet middle with
          | .ok announced after => .ok (announced, back) after
          | .error error after => .error error after := by
  induction input generalizing header with
  | nil => exact .inl ⟨header, rfl⟩
  | cons octet rest further =>
      cases pushed : push octet header with
      | error error after =>
          refine .inr ⟨[], octet, rest, header, rfl, rfl, ?_⟩
          rw [take_of_refused pushed, pushed]
      | ok announced middle =>
          cases announced with
          | some tlv =>
              refine .inr ⟨[], octet, rest, header, rfl, rfl, ?_⟩
              rw [take_of_announced pushed, pushed]
          | none =>
              rw [take_of_pushed pushed]
              rcases further middle with waits | ⟨front, last, back, reached, rfl, before, ends⟩
              · exact .inl waits
              · exact .inr ⟨octet :: front, last, back, reached, rfl,
                  (take_of_pushed pushed).trans before, ends⟩

/-- An element is announced where an octet announces it after those before it. -/
theorem take_eq_some_iff {input : Bytes} {tlv : Tlv} :
    take input header = .ok (some tlv, rest) after
      ↔ ∃ front octet middle, input = front ++ octet :: rest
        ∧ take front header = .ok (none, []) middle
        ∧ push octet middle = .ok (some tlv) after := by
  constructor
  · intro taken
    rcases take_cases input header with ⟨_, waits⟩ | ⟨front, octet, back, middle, rfl, before, ends⟩
    · cases waits.symm.trans taken
    · rw [ends] at taken
      split at taken <;> cases taken
      exact ⟨front, octet, middle, rfl, before, ‹_›⟩
  · rintro ⟨front, octet, middle, rfl, before, pushed⟩
    rw [take_append, before]
    exact take_of_announced pushed

/-- Octets are refused where one of them is refused after those before it. -/
theorem take_eq_error_iff {input : Bytes} {error : CodecError} :
    take input header = .error error after
      ↔ ∃ front octet back middle, input = front ++ octet :: back
        ∧ take front header = .ok (none, []) middle ∧ push octet middle = .error error after := by
  constructor
  · intro refused
    rcases take_cases input header with ⟨_, waits⟩ | ⟨front, octet, back, middle, rfl, before, ends⟩
    · cases waits.symm.trans refused
    · rw [ends] at refused
      split at refused <;> cases refused
      exact ⟨front, octet, back, middle, rfl, before, ‹_›⟩
  · rintro ⟨front, octet, back, middle, rfl, before, refused⟩
    rw [take_append, before]
    exact take_of_refused refused

theorem corrupt_of_take {input : Bytes} {error : CodecError}
    (refused : take input header = .error error after) :
    ∃ corruption, error = .corrupt corruption := by
  obtain ⟨_, _, _, _, _, _, pushed⟩ := take_eq_error_iff.1 refused
  exact (refused_of_push pushed).1

/-- A header that lacks octets still is as its phase demands. -/
theorem sound_of_take {input left : Bytes} (sound : header.Sound)
    (taken : take input header = .ok (none, left) after) : after.Sound :=
  take_induction (fun _ => Header.Sound) sound
    (fun _ octet _ _ before pushed => ((push_meets octet before).ok pushed).1) taken

/-! ## Counting -/

theorem bytesRead_of_take {input left : Bytes}
    (taken : take input header = .ok (none, left) after) :
    after.bytesRead = header.bytesRead + input.length := by
  refine take_induction (fun front reached => reached.bytesRead = header.bytesRead + front.length)
    rfl ?_ taken
  intro front octet before after counted pushed
  rw [bytesRead_of_push pushed, counted, List.length_append, List.length_singleton, Nat.add_assoc]

/-- The octets of a header are those read before and those read since. -/
theorem announced_of_take {input left : Bytes} {tlv : Tlv}
    (taken : take input header = .ok (some tlv, left) after) :
    after = {} ∧ header.bytesRead < tlv.headerLength
      ∧ tlv.headerLength + left.length = header.bytesRead + input.length := by
  obtain ⟨front, octet, middle, rfl, before, pushed⟩ := take_eq_some_iff.1 taken
  obtain ⟨rfl, whole⟩ := announced_of_push pushed
  have counted := bytesRead_of_take before
  have length : tlv.headerLength = middle.bytesRead + 1 := by rw [whole]
  rw [List.length_append, List.length_cons]
  exact ⟨rfl, by omega, by omega⟩

/-- An element is as long as its header and its content. -/
theorem total_of_take {octets : Bytes} {tlv : Tlv}
    (taken : take octets {} = .ok (some tlv, []) after) :
    tlv.total = octets.length + tlv.length := by
  have counted : tlv.headerLength + 0 = 0 + octets.length := (announced_of_take taken).2.2
  rw [Tlv.total]
  omega

end Header

end LdapWire.Ber
