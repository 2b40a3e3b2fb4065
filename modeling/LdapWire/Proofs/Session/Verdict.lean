import LdapWire.Proofs.Session.Division
import LdapWire.Proofs.Session.Headers

/-!
# When an element is decided

A fresh session that has all octets of an outermost element has made a message of them
or has failed, whatever follows, except where the content of the element ends within
the header of another one (`Machine.Astride`): whether an element fits into the one
around it is seen when its header is complete. In that case the session asks for the
rest of the header, and then it fails, so no message is ever made of such an element
(`Session.element_decided_or_astride`).
-/

set_option autoImplicit false

namespace LdapWire

open Ber

namespace Machine

variable {decoder : Decoder} {machine : Machine}

/-- Whether a header is under way that takes up all that the element around it lacks,
so that the element which it announces does not fit. -/
structure Astride (machine : Machine) : Prop where
  idle : machine.current = none
  sound : machine.header.Sound
  begun : 0 < machine.header.bytesRead
  exceeds : ∃ frame ∈ machine.frames.head?, frame.tlv.remaining ≤ machine.header.bytesRead

theorem Consistent.sound {octets : Nat} (consistent : machine.Consistent decoder octets)
    (idle : machine.current = none) : machine.header.Sound := by
  obtain ⟨_, _, _, _, _, underWay⟩ := consistent
  cases underWay with
  | header _ sound => exact sound
  | content takes =>
      rw [takes.current] at idle
      cases idle

/-- **A machine that has read a whole element** and goes on reading is in the midst of a
header that does not fit: nothing of the element is missing, so all that the open elements
lack has been read in advance. -/
theorem Accounts.astride {element content : Bytes} {tag : UInt8} {length octets : Nat}
    (accounts : machine.Accounts element) (consistent : machine.Consistent decoder octets)
    (header : Reader.header element = .ok (tag, length) content)
    (whole : content.length = length) : machine.Astride := by
  have inside : machine.frames ≠ [] := by
    intro empty
    have taken := (accounts.outside empty).2.2
    rw [Header.header_eq_ok_iff.1 header] at taken
    cases taken
  have balance : Frame.lacking machine.frames + machine.due = machine.header.bytesRead := by
    have last := List.getLast?_eq_some_getLast inside
    obtain ⟨inner, found, size⟩ := (accounts.stack.spans _ last).header
    have balance := accounts.stack.balance _ last
    cases header.symm.trans found
    rw [Tlv.total] at balance
    omega
  have idle : machine.current = none := by
    by_contra underWay
    obtain ⟨pending, current⟩ := Option.ne_none_iff_exists'.1 underWay
    have lacking := accounts.waiting pending current
    rw [accounts.between underWay, due, current] at balance
    dsimp only [Tlv.remaining] at balance
    omega
  obtain ⟨frame, outer, stack⟩ := List.exists_cons_of_ne_nil inside
  have lacking := accounts.settled frame (by rw [stack]; rfl) idle
  simp only [due, idle, stack, Frame.lacking_cons, Tlv.remaining] at balance
  refine ⟨idle, consistent.sound idle, by omega, frame, by rw [stack]; rfl, ?_⟩
  rw [Tlv.remaining]
  omega

/-- **Behind a header that does not fit** there is no message: reading goes on up to the
last octet of the header and fails there. -/
theorem Astride.run (decoder : Decoder) (astride : machine.Astride) (behind : Bytes) :
    (∃ left after, Machine.run decoder behind machine = .ok (none, left) after
      ∧ machine.header.bytesRead + behind.length ≤ 1 + Length.maxOctets)
    ∨ ∃ corruption after,
        Machine.run decoder behind machine = .error (.corrupt corruption) after := by
  rw [run_eq_take astride.idle]
  cases taken : Header.take behind machine.header with
  | error error header =>
      obtain ⟨corruption, rfl⟩ := Header.corrupt_of_take taken
      exact .inr ⟨corruption, _, rfl⟩
  | ok result header =>
      obtain ⟨announced, left⟩ := result
      cases announced with
      | none =>
          have counted := Header.bytesRead_of_take taken
          have bounded := (Header.sound_of_take astride.sound taken).bytesRead_le
          exact .inl ⟨left, _, rfl, counted ▸ bounded⟩
      | some tlv =>
          obtain ⟨frame, innermost, exceeds⟩ := astride.exceeds
          obtain ⟨outer, stack⟩ := List.head?_eq_some_iff.1 innermost
          have longer := (Header.announced_of_take taken).2.1
          have overflow : frame.tlv.remaining < tlv.total := by
            rw [Tlv.total]
            omega
          have failed := @beginElement_of_overflow decoder frame outer tlv
            { machine with header } stack overflow
          exact .inr ⟨_, _, Step.bind_of_error _ failed⟩

end Machine

namespace Session

variable {decoder : Decoder}

/-! ## Answers to chunks -/

/-- What a session answers to chunks one after another: its first message or its first
error, or nothing if it needs more input still. -/
def answer (decoder : Decoder) : Session → List Bytes → Except CodecError (Option Message)
  | _, [] => .ok none
  | session, chunk :: later =>
      match feed decoder chunk session with
      | .error error _ => .error error
      | .ok (some message) _ => .ok (some message)
      | .ok none after => answer decoder after later

/-- The answer does not depend on the cuts between the chunks. -/
theorem answer_eq_run {machine : Machine} (waiting : machine.Waiting) (chunks : List Bytes) :
    answer decoder { machine } chunks =
      match Machine.run decoder chunks.flatten machine with
      | .error error _ => .error error
      | .ok (ready, _) _ => .ok ready := by
  induction chunks generalizing machine with
  | nil => rfl
  | cons chunk later further =>
      rw [answer, feed_eq_run rfl waiting, List.flatten_cons,
        Machine.run_append decoder chunk later.flatten]
      dsimp only [List.nil_append]
      cases ran : Machine.run decoder chunk machine with
      | error error after => rfl
      | ok result after =>
          obtain ⟨ready, left⟩ := result
          cases ready with
          | some message => rfl
          | none =>
              obtain rfl := Machine.run_left_eq_nil ran
              exact further (Machine.waiting_of_run waiting ran)

/-- Whether some octets get an answer of a fresh session, whatever follows them and in
whatever chunks they come. -/
def Settles (decoder : Decoder) (octets : Bytes)
    (verdict : Except CodecError (Option Message)) : Prop :=
  ∀ behind chunks, chunks.flatten = octets ++ behind → answer decoder {} chunks = verdict

theorem answer_fresh {octets behind : Bytes} {chunks : List Bytes}
    (same : chunks.flatten = octets ++ behind) :
    answer decoder {} chunks =
      match Machine.run decoder (octets ++ behind) {} with
      | .error error _ => .error error
      | .ok (ready, _) _ => .ok ready := by
  rw [← same]
  exact answer_eq_run (Machine.waiting_of_current_eq_none rfl) chunks

/-! ## Elements as a whole -/

/-- A message made of octets that are one element is made of all of them. -/
theorem accepts_of_element {element content left : Bytes} {tag : UInt8} {length : Nat}
    {message : Message} {after : Machine}
    (header : Reader.header element = .ok (tag, length) content)
    (whole : content.length = length)
    (ran : Machine.run decoder element {} = .ok (some message, left) after) :
    Accepts decoder element message := by
  obtain rfl := Machine.eq_fresh_of_run ran
  obtain ⟨taken, rfl, ⟨_, inner, found, size⟩, _⟩ :=
    Machine.accounted_of_run Machine.accounts_fresh ran
  cases header.symm.trans (Header.header_append found left)
  rw [List.length_append] at whole
  obtain rfl := List.length_eq_zero_iff.1 (show left.length = 0 by omega)
  exact accepts_of_run ran

/-- **An element is decided by its own octets**: a fresh session that has been fed with
all of them returns a message and keeps what follows, or it fails, and neither depends
on what follows. The exception is an element whose content ends within the header of
another one: more input is asked for in whatever chunks it has come, no message is made of
it, and the session fails for a fault of the encoding not later than with the fifth octet
that follows. -/
theorem element_decided_or_astride (decoder : Decoder) {element content : Bytes} {tag : UInt8}
    {length : Nat} (header : Reader.header element = .ok (tag, length) content)
    (whole : content.length = length) :
    (∃ message, Settles decoder element (.ok (some message))
      ∧ ∀ behind,
          feed decoder (element ++ behind) {} = .ok (some message) { pending := behind })
    ∨ (∃ error, Settles decoder element (.error error))
    ∨ ∃ machine, machine.Astride ∧ feed decoder element {} = .ok none { machine }
      ∧ (∀ chunks, chunks.flatten = element → answer decoder {} chunks = .ok none)
      ∧ ∀ behind chunks, chunks.flatten = element ++ behind →
          (answer decoder {} chunks = .ok none ∧ behind.length ≤ 4)
          ∨ ∃ corruption, answer decoder {} chunks = .error (.corrupt corruption) := by
  cases ran : Machine.run decoder element {} with
  | error error machine =>
      refine .inr (.inl ⟨error, fun behind chunks same => ?_⟩)
      rw [answer_fresh same, Machine.run_append, ran]
  | ok result machine =>
      obtain ⟨ready, left⟩ := result
      cases ready with
      | some message =>
          have accepts := accepts_of_element header whole ran
          refine .inl ⟨message, fun behind chunks same => ?_, accepts.feed_append⟩
          rw [answer_fresh same, Machine.run_append, ran]
      | none =>
          obtain rfl := Machine.run_left_eq_nil ran
          have fed : feed decoder element {} = .ok none { machine } := by
            rw [feed_fresh, ran]
          obtain ⟨taken, split, accounts⟩ := Machine.accounted_of_run Machine.accounts_fresh ran
          rw [List.append_nil] at split
          subst split
          obtain ⟨octets, consistent⟩ := (Reachable.fresh.fed fed).consistent rfl
          have astride := Machine.Accounts.astride accounts consistent header whole
          refine .inr (.inr ⟨machine, astride, fed, fun chunks same => ?_,
            fun behind chunks same => ?_⟩)
          · rw [answer_fresh (same.trans (List.append_nil element).symm), List.append_nil, ran]
          · rw [answer_fresh same, Machine.run_append, ran]
            dsimp only
            rcases astride.run decoder behind with
              ⟨left, after, goes, bounded⟩ | ⟨corruption, after, fails⟩
            · rw [goes]
              have begun := astride.begun
              refine .inl ⟨rfl, ?_⟩
              rw [Length.maxOctets] at bounded
              omega
            · rw [fails]
              exact .inr ⟨corruption, rfl⟩

/-- An element of which the content ends with the identifier of an unbind request. -/
def cutUnbind : Bytes := [0x30, 0x04, 0x02, 0x01, 0x01, 0x42]

theorem answer_identifier : answer {} {} [cutUnbind] = .ok none := by
  rw [answer_eq_run (Machine.waiting_of_current_eq_none rfl)]
  decide +kernel

/-- The element is astride: more input is asked for, and there is no message in it. -/
theorem element_decided_or_astride_identifier :
    ∃ machine : Machine, machine.Astride
      ∧ feed {} cutUnbind {} = .ok none { machine }
      ∧ (∀ chunks, chunks.flatten = cutUnbind → answer {} {} chunks = .ok none)
      ∧ ∀ behind chunks, chunks.flatten = cutUnbind ++ behind →
          (answer {} {} chunks = .ok none ∧ behind.length ≤ 4)
          ∨ ∃ corruption, answer {} {} chunks = .error (.corrupt corruption) := by
  have undecided := answer_identifier
  have header : Reader.header cutUnbind = .ok (0x30, 4) [0x02, 0x01, 0x01, 0x42] := rfl
  rcases element_decided_or_astride {} header rfl with
    ⟨message, settles, _⟩ | ⟨error, settles⟩ | astride
  · cases undecided.symm.trans (settles [] _ rfl)
  · cases undecided.symm.trans (settles [] _ rfl)
  · exact astride

/-- Having all octets of an element does not suffice to decide it. -/
theorem not_forall_decided :
    ¬ ∀ (decoder : Decoder) (element content : Bytes) (tag : UInt8) (length : Nat),
      Reader.header element = .ok (tag, length) content → content.length = length →
        ∃ verdict, verdict ≠ .ok none ∧ Settles decoder element verdict := by
  intro decided
  obtain ⟨verdict, definite, settles⟩ :=
    decided {} cutUnbind [0x02, 0x01, 0x01, 0x42] 0x30 4 rfl rfl
  exact definite ((settles [] _ rfl).symm.trans answer_identifier)

end Session

end LdapWire
