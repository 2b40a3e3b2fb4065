import LdapWire.Proofs.Ber.Header
import LdapWire.Session.Basic

/-!
# Octet by octet

`Machine.consume` takes the content of a primitive element in pieces that are as
large as the input allows. `Machine.push` takes a single octet, and `Machine.run`
octets one after another. Where the primitive element under way lacks content
(`Waiting`, which every octet keeps: `waiting_of_push`), both ways of reading
agree (`consume_eq_run`).
-/

set_option autoImplicit false

namespace LdapWire

open Ber (Header Tlv)
open Grammar (Transition)

/-! ## Growing content -/

namespace Ber.Tlv

/-- The element with more of its content. -/
def fill (tlv : Tlv) (content : Bytes) : Tlv :=
  { tlv.advance content.length with received := content.reverseAux tlv.received }

@[simp] theorem fill_nil (tlv : Tlv) : tlv.fill [] = tlv := rfl

theorem fill_fill (tlv : Tlv) (content further : Bytes) :
    (tlv.fill content).fill further = tlv.fill (content ++ further) := by
  simp [fill, advance, List.reverseAux_eq, Nat.add_assoc]

@[simp] theorem consumed_fill (tlv : Tlv) (content : Bytes) :
    (tlv.fill content).consumed = tlv.consumed + content.length := rfl

@[simp] theorem length_fill (tlv : Tlv) (content : Bytes) :
    (tlv.fill content).length = tlv.length := rfl

theorem append_of_le {tlv : Tlv} {content : Bytes} (fits : content.length ≤ tlv.remaining) :
    append content tlv = .ok () (tlv.fill content) := by
  have room : ¬ tlv.remaining < content.length := Nat.not_lt.2 fits
  simp [append, consume, Step.bind_apply, room, fill, advance]

end Ber.Tlv

namespace Pending

/-- The element under way with more of its content. -/
def fill (pending : Pending) (content : Bytes) : Pending :=
  { pending with tlv := pending.tlv.fill content }

@[simp] theorem fill_nil (pending : Pending) : pending.fill [] = pending := rfl

theorem fill_fill (pending : Pending) (content further : Bytes) :
    (pending.fill content).fill further = pending.fill (content ++ further) :=
  congrArg (fun tlv => { pending with tlv }) (Tlv.fill_fill pending.tlv content further)

end Pending

namespace Machine

/-- The machine with another element under way. -/
def withCurrent (machine : Machine) (pending : Pending) : Machine :=
  { machine with current := some pending }

/-- Whether the primitive element under way, if there is one, lacks content. -/
def Waiting (machine : Machine) : Prop :=
  ∀ pending, machine.current = some pending → pending.tlv.consumed < pending.tlv.length

theorem waiting_of_current_eq_none {machine : Machine} (idle : machine.current = none) :
    machine.Waiting := by
  intro pending current
  rw [idle] at current
  cases current

/-- Takes one octet. -/
def push (decoder : Decoder) (octet : UInt8) : Step Machine (Option Message) := fun machine =>
  match machine.current with
  | none => takeHeaderOctet decoder octet machine
  | some pending =>
      let grown := pending.fill [octet]
      if grown.tlv.isComplete then finishPrimitive decoder.registry grown machine
      else .ok none (machine.withCurrent grown)

/-- Takes octets up to the end of a message and returns what is left, or takes
all of them. -/
def run (decoder : Decoder) : Bytes → Step Machine (Option Message × Bytes)
  | [] => return (none, [])
  | octet :: rest => do
      match ← push decoder octet with
      | some message => return (some message, rest)
      | none => run decoder rest

/-! ## Content that is still missing -/

/-- Charging an element changes an open element only. -/
theorem exists_frames_of_charge {limits : Limits} {tlv : Tlv} {machine after : Machine}
    (charged : charge limits tlv machine = .ok () after) :
    ∃ frames, after = { machine with frames } ∧ frames.length = machine.frames.length := by
  unfold charge at charged
  split at charged
  · split at charged <;> cases charged
    exact ⟨machine.frames, rfl, rfl⟩
  · rename_i parent outer stack
    split at charged <;> cases charged
    exact ⟨_, rfl, by rw [stack, List.length_cons, List.length_cons]⟩

/-- An element that opens goes on the others, and ends with those that end with it if it has no
content. -/
theorem exists_closeFrames_of_openFrame {decoder : Decoder} {tlv : Tlv}
    {transition : Transition} {close : Grammar.Close} {machine after : Machine}
    {message : Option Message}
    (opened : openFrame decoder tlv transition close machine = .ok message after) :
    ∃ draft, closeFrames decoder.registry
        ({ tlv, resume := close.resume, atEnd := close.action } :: machine.frames)
        { machine with
          frames := { tlv, resume := close.resume, atEnd := close.action } :: machine.frames
          state := transition.next
          draft }
      = .ok message after := by
  rw [openFrame, Step.get_bind] at opened
  split at opened
  · cases opened
  · obtain ⟨_, middle, performed, closed⟩ := Step.exists_of_bind_eq_ok opened
    obtain ⟨draft, rfl⟩ := exists_draft_of_perform performed
    rw [Step.modify_bind, Step.get_bind] at closed
    exact ⟨draft, closed⟩

theorem openFrame_current {decoder : Decoder} {tlv : Tlv} {transition : Transition}
    {close : Grammar.Close} {machine after : Machine} {message : Option Message}
    (opened : openFrame decoder tlv transition close machine = .ok message after) :
    after.current = machine.current := by
  obtain ⟨draft, closed⟩ := exists_closeFrames_of_openFrame opened
  have kept := closeFrames_current closed
  exact kept

/-- An element begins where the state accepts it, after it has been charged: it is opened, or
it is primitive and either ends at once or is under way. -/
theorem beginElement_cases {decoder : Decoder} {tlv : Tlv} {machine after : Machine}
    {message : Option Message} (begun : beginElement decoder tlv machine = .ok message after) :
    ∃ charged transition, charge decoder.limits tlv machine = .ok () charged
      ∧ charged.state.transition? tlv.tag = some transition
      ∧ ((∃ close, transition.close = some close
          ∧ openFrame decoder tlv transition close charged = .ok message after)
        ∨ (transition.close = none ∧ tlv.consumed = tlv.length
          ∧ finishPrimitive decoder.registry { tlv, transition } charged = .ok message after)
        ∨ (transition.close = none ∧ tlv.consumed ≠ tlv.length ∧ message = none
          ∧ after = { charged with current := some { tlv, transition } })) := by
  obtain ⟨_, charged, chargeOk, begun⟩ := Step.exists_of_bind_eq_ok begun
  simp only [Step.get_bind] at begun
  cases found : charged.state.transition? tlv.tag with
  | none =>
      simp only [found] at begun
      cases begun
  | some transition =>
      simp only [found] at begun
      refine ⟨charged, transition, chargeOk, found, ?_⟩
      cases closing : transition.close with
      | some close =>
          simp only [closing] at begun
          exact .inl ⟨close, rfl, begun⟩
      | none =>
          simp only [closing] at begun
          by_cases complete : tlv.isComplete = true
          · rw [if_pos complete] at begun
            exact .inr (.inl ⟨rfl, Tlv.isComplete_iff.1 complete, begun⟩)
          · rw [if_neg complete] at begun
            cases begun
            exact .inr (.inr ⟨rfl, mt Tlv.isComplete_iff.2 complete, rfl, rfl⟩)

/-- An element that has just begun lacks content, if it is under way at all. -/
theorem waiting_of_beginElement {decoder : Decoder} {tlv : Tlv} {machine after : Machine}
    {message : Option Message} (fresh : tlv.consumed = 0) (idle : machine.current = none)
    (begun : beginElement decoder tlv machine = .ok message after) : after.Waiting := by
  obtain ⟨_, transition, charged, _, ways⟩ := beginElement_cases begun
  obtain ⟨frames, rfl, _⟩ := exists_frames_of_charge charged
  rcases ways with ⟨close, _, opened⟩ | ⟨_, _, finished⟩ | ⟨_, partly, rfl, rfl⟩
  · exact waiting_of_current_eq_none ((openFrame_current opened).trans idle)
  · exact waiting_of_current_eq_none (finishPrimitive_current finished)
  · rintro _ ⟨⟩
    dsimp only
    omega

/-- Every octet leaves the element under way, if there is one, short of content. -/
theorem waiting_of_push {decoder : Decoder} {octet : UInt8} {machine after : Machine}
    {message : Option Message} (waiting : machine.Waiting)
    (pushed : push decoder octet machine = .ok message after) : after.Waiting := by
  cases current : machine.current with
  | none =>
      simp only [push, current] at pushed
      obtain ⟨announced, _, headerPushed, begun⟩ := Step.exists_of_bind_eq_ok pushed
      unfold pushHeader at headerPushed
      split at headerPushed
      · rename_i announcedOk
        cases headerPushed
        cases announced with
        | none =>
            cases begun
            exact waiting_of_current_eq_none current
        | some tlv =>
            obtain ⟨rfl, shape⟩ := Header.announced_of_push announcedOk
            have unread : tlv.consumed = 0 := by rw [shape]
            refine waiting_of_beginElement unread ?_ begun
            exact current
      · cases headerPushed
  | some pending =>
      simp only [push, current] at pushed
      split at pushed
      · exact waiting_of_current_eq_none (finishPrimitive_current pushed)
      · rename_i incomplete
        cases pushed
        intro grown grownCurrent
        cases grownCurrent
        have lacking := waiting pending current
        simp only [Tlv.isComplete_iff, Pending.fill, Tlv.consumed_fill, Tlv.length_fill,
          List.length_singleton] at incomplete ⊢
        omega

/-! ## Pieces and octets -/

/-- Goes on reading after a step that may have ended a message. -/
def resume (decoder : Decoder) : Option Message × Bytes → Step Machine (Option Message × Bytes)
  | (some message, left) => return (some message, left)
  | (none, left) => run decoder left

theorem run_cons (decoder : Decoder) (octet : UInt8) (rest : Bytes) :
    run decoder (octet :: rest)
      = (do let message ← push decoder octet; resume decoder (message, rest)) := by
  rw [run]
  refine congrArg (push decoder octet >>= ·) (funext fun message => ?_)
  cases message <;> rfl

/-- A primitive element that is ended is forgotten first, whatever it was. -/
theorem finishPrimitive_withCurrent (registry : Registry) (pending other : Pending)
    (machine : Machine) :
    finishPrimitive registry pending (machine.withCurrent other)
      = finishPrimitive registry pending machine := rfl

theorem push_of_incomplete (decoder : Decoder) (octet : UInt8) {pending : Pending}
    {machine : Machine} (lacking : pending.tlv.consumed + 1 < pending.tlv.length)
    (current : machine.current = some pending) :
    push decoder octet machine = .ok none (machine.withCurrent (pending.fill [octet])) := by
  have incomplete : ¬ (pending.fill [octet]).tlv.isComplete = true := by
    simp only [Tlv.isComplete_iff, Pending.fill, Tlv.consumed_fill, Tlv.length_fill,
      List.length_singleton]
    omega
  simp only [push, current, incomplete, if_false, Bool.false_eq_true]

theorem push_of_complete (decoder : Decoder) (octet : UInt8) {pending : Pending}
    {machine : Machine} (last : pending.tlv.consumed + 1 = pending.tlv.length)
    (current : machine.current = some pending) :
    push decoder octet machine
      = finishPrimitive decoder.registry (pending.fill [octet]) machine := by
  have complete : (pending.fill [octet]).tlv.isComplete = true := by
    simp only [Tlv.isComplete_iff, Pending.fill, Tlv.consumed_fill, Tlv.length_fill,
      List.length_singleton]
    exact last
  simp only [push, current, complete, if_true]

/-- Octets that do not complete the element under way are added to its content. -/
theorem run_of_short (decoder : Decoder) {pending : Pending} {input : Bytes} {machine : Machine}
    (short : pending.tlv.consumed + input.length < pending.tlv.length)
    (current : machine.current = some pending) :
    run decoder input machine = .ok (none, []) (machine.withCurrent (pending.fill input)) := by
  induction input generalizing pending machine with
  | nil =>
      rw [Pending.fill_nil, withCurrent, ← current]
      rfl
  | cons octet rest further =>
      rw [List.length_cons] at short
      have pushed := push_of_incomplete decoder octet (by omega) current
      have shorter : (pending.fill [octet]).tlv.consumed + rest.length
          < (pending.fill [octet]).tlv.length := by
        simp only [Pending.fill, Tlv.consumed_fill, Tlv.length_fill, List.length_singleton]
        omega
      have ran := @further _ (machine.withCurrent (pending.fill [octet])) shorter rfl
      rw [Pending.fill_fill] at ran
      rw [run_cons, Step.bind_of_ok _ pushed]
      exact ran

/-- Octets that complete the element under way end it; those after them are left. -/
theorem run_of_enough (decoder : Decoder) {pending : Pending} {content : Bytes} (left : Bytes)
    {machine : Machine} (nonempty : content ≠ [])
    (enough : pending.tlv.consumed + content.length = pending.tlv.length)
    (current : machine.current = some pending) :
    run decoder (content ++ left) machine
      = (do
          let message ← finishPrimitive decoder.registry (pending.fill content)
          resume decoder (message, left)) machine := by
  induction content generalizing pending machine with
  | nil => exact absurd rfl nonempty
  | cons octet rest further =>
      rw [List.length_cons] at enough
      rw [List.cons_append, run_cons]
      cases rest with
      | nil =>
          rw [List.length_nil] at enough
          rw [Step.bind_apply, push_of_complete decoder octet (by omega) current, ← Step.bind_apply]
          rfl
      | cons next rest =>
          rw [List.length_cons] at enough
          have pushed := push_of_incomplete decoder octet (by omega) current
          have shorter : (pending.fill [octet]).tlv.consumed + (next :: rest).length
              = (pending.fill [octet]).tlv.length := by
            simp only [Pending.fill, Tlv.consumed_fill, Tlv.length_fill, List.length_cons,
              List.length_nil]
            omega
          have ran := @further _ (machine.withCurrent (pending.fill [octet]))
            (List.cons_ne_nil next rest) shorter rfl
          rw [Pending.fill_fill] at ran
          rw [Step.bind_of_ok _ pushed]
          exact ran

/-- The piece of its input that a waiting machine takes is what single octets come to. -/
theorem run_eq_takePiece {decoder : Decoder} {input : Bytes} {machine : Machine}
    (waiting : machine.Waiting) (nonempty : input ≠ []) :
    run decoder input machine = (takePiece decoder input >>= resume decoder) machine := by
  rw [Step.bind_apply]
  cases current : machine.current with
  | none =>
      cases input with
      | nil => exact absurd rfl nonempty
      | cons octet rest =>
          have pushed : push decoder octet machine = takeHeaderOctet decoder octet machine := by
            simp only [push, current]
          simp only [takePiece, current, takeHeaderPiece]
          rw [run_cons, Step.bind_apply, pushed, Step.bind_apply]
          cases takeHeaderOctet decoder octet machine <;> rfl
  | some pending =>
      have lacking := waiting pending current
      simp only [takePiece, current, takeContentPiece]
      by_cases short : input.length < pending.tlv.remaining
      · have stillShort : pending.tlv.consumed + input.length < pending.tlv.length := by
          unfold Tlv.remaining at short
          omega
        have taken : takeContent input pending machine
            = .ok (pending.fill input) (machine.withCurrent (pending.fill input)) := by
          rw [takeContent, Tlv.append_of_le (Nat.le_of_lt short)]
          rfl
        rw [if_pos short, Step.bind_of_ok _ taken, run_of_short decoder stillShort current]
        rfl
      · have size : (input.take pending.tlv.remaining).length = pending.tlv.remaining := by
          rw [List.length_take]
          exact Nat.min_eq_left (Nat.not_lt.1 short)
        have enough : pending.tlv.consumed + (input.take pending.tlv.remaining).length
            = pending.tlv.length := by
          rw [size, Tlv.remaining]
          omega
        have needed : input.take pending.tlv.remaining ≠ [] := by
          intro empty
          rw [empty, List.length_nil, Tlv.remaining] at size
          omega
        have taken : takeContent (input.take pending.tlv.remaining) pending machine
            = .ok (pending.fill (input.take pending.tlv.remaining))
                (machine.withCurrent (pending.fill (input.take pending.tlv.remaining))) := by
          rw [takeContent, Tlv.append_of_le (Nat.le_of_eq size)]
          rfl
        have ran := run_of_enough decoder (input.drop pending.tlv.remaining) needed enough current
        rw [List.take_append_drop, Step.bind_apply] at ran
        rw [if_neg short, Step.bind_apply, takeLastContent, Step.bind_of_ok _ taken,
          finishPrimitive_withCurrent, ran]
        cases finishPrimitive decoder.registry
          (pending.fill (input.take pending.tlv.remaining)) machine <;> rfl

/-- What a piece leaves is less work, and the machine after it waits. -/
theorem waiting_of_takePiece {decoder : Decoder} {input left : Bytes} {machine after : Machine}
    {message : Option Message} (waiting : machine.Waiting)
    (taken : takePiece decoder input machine = .ok (message, left) after) : after.Waiting := by
  cases current : machine.current with
  | none =>
      simp only [takePiece, current] at taken
      cases input with
      | nil =>
          cases taken
          exact waiting
      | cons octet rest =>
          obtain ⟨_, _, headed, returned⟩ := Step.exists_of_bind_eq_ok taken
          cases returned
          have pushed : push decoder octet machine = .ok message after := by
            simp only [push, current]
            exact headed
          exact waiting_of_push waiting pushed
  | some pending =>
      simp only [takePiece, current, takeContentPiece] at taken
      by_cases short : input.length < pending.tlv.remaining
      · rw [if_pos short] at taken
        obtain ⟨_, _, appended, returned⟩ := Step.exists_of_bind_eq_ok taken
        cases returned
        rw [takeContent, Tlv.append_of_le (Nat.le_of_lt short)] at appended
        cases appended
        intro grown grownCurrent
        cases grownCurrent
        have lacking := waiting pending current
        simp only [Tlv.remaining, Tlv.consumed_fill, Tlv.length_fill] at short ⊢
        omega
      · rw [if_neg short] at taken
        obtain ⟨_, _, finished, returned⟩ := Step.exists_of_bind_eq_ok taken
        cases returned
        exact waiting_of_current_eq_none (takeLastContent_current finished)

/-- A waiting machine consumes its input as if octet by octet. -/
theorem consume_eq_run {decoder : Decoder} {input : Bytes} {machine : Machine}
    (waiting : machine.Waiting) : consume decoder input machine = run decoder input machine := by
  fun_induction consume decoder input machine with
  | case1 input machine nonempty error after taken =>
      rw [run_eq_takePiece waiting nonempty, Step.bind_of_error _ taken]
  | case2 input machine nonempty message left after taken =>
      rw [run_eq_takePiece waiting nonempty, Step.bind_of_ok _ taken]
      rfl
  | case3 input machine nonempty left after taken less further =>
      rw [run_eq_takePiece waiting nonempty, Step.bind_of_ok _ taken,
        further (waiting_of_takePiece waiting taken)]
      rfl
  | case4 input machine empty =>
      rw [Decidable.not_not.1 empty]
      rfl

/-- A machine that reads on keeps waiting. -/
theorem waiting_of_run {decoder : Decoder} {input left : Bytes} {machine after : Machine}
    {message : Option Message} (waiting : machine.Waiting)
    (ran : run decoder input machine = .ok (message, left) after) : after.Waiting := by
  induction input generalizing machine with
  | nil =>
      cases ran
      exact waiting
  | cons octet rest further =>
      rw [run_cons] at ran
      obtain ⟨ready, middle, pushed, ran⟩ := Step.exists_of_bind_eq_ok ran
      have stillWaiting := waiting_of_push waiting pushed
      cases ready with
      | none => exact further stillWaiting ran
      | some message =>
          cases ran
          exact stillWaiting

/-- Octets are left only behind the end of a message. -/
theorem run_left_eq_nil {decoder : Decoder} {input left : Bytes} {machine after : Machine}
    (ran : run decoder input machine = .ok (none, left) after) : left = [] := by
  induction input generalizing machine with
  | nil =>
      cases ran
      rfl
  | cons octet rest further =>
      rw [run_cons] at ran
      obtain ⟨ready, middle, _, ran⟩ := Step.exists_of_bind_eq_ok ran
      cases ready with
      | none => exact further ran
      | some message => cases ran

/-- Octets and then others: where the first ones end the run, the others are left. -/
theorem run_append (decoder : Decoder) (front back : Bytes) (machine : Machine) :
    run decoder (front ++ back) machine =
      match run decoder front machine with
      | .error error after => .error error after
      | .ok (some message, left) after => .ok (some message, left ++ back) after
      | .ok (none, _) after => run decoder back after := by
  induction front generalizing machine with
  | nil => rfl
  | cons octet rest further =>
      rw [List.cons_append, run_cons, run_cons, Step.bind_apply, Step.bind_apply]
      cases push decoder octet machine with
      | error error after => rfl
      | ok ready after =>
          cases ready with
          | none => exact further after
          | some message => rfl

end Machine

end LdapWire
