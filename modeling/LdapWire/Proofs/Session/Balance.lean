import LdapWire.Proofs.Ber.Agreement
import LdapWire.Proofs.Session.Tracking

/-!
# The balance of a machine

Every octet of a message that has been read is accounted for: those that the
message still lacks are those that the open elements lack, each apart from the
elements begun in it, and those that the primitive element under way lacks. The
octets of a header under way have been read before any element is charged with
them, so they are an advance (`Stack.balance`).

`Machine.Accounts` is the balance of a machine between two octets. An octet keeps
it or completes a message (`Machine.accounted_of_push`), and a message is complete
when its octets are exactly one sequence (`Ber.WholeSequence`).
-/

set_option autoImplicit false

namespace LdapWire

open Ber
open Grammar (Action State)

/-- Whether octets are the header of a sequence and as much content as it declares. -/
def Ber.WholeSequence (octets : Bytes) : Prop :=
  ∃ length content,
    Reader.header octets = .ok (Tag.sequence, length) content ∧ content.length = length

/-! ## Stacks -/

namespace Frame

/-- The number of octets that open elements lack, where an element counts as read in
the elements around it as soon as it has begun. -/
def lacking (frames : List Frame) : Nat := (frames.map fun frame => frame.tlv.remaining).sum

@[simp] theorem lacking_nil : lacking [] = 0 := rfl

@[simp] theorem lacking_cons (frame : Frame) (outer : List Frame) :
    lacking (frame :: outer) = frame.tlv.remaining + lacking outer := by
  simp [lacking]

/-- Whether a frame is that of a message which begins with the octets `read`. -/
structure Spans (outer : Frame) (read : Bytes) : Prop where
  resume : outer.resume = .start
  header : ∃ content, Reader.header read = .ok (Tag.sequence, outer.tlv.length) content
    ∧ outer.tlv.headerLength + content.length = read.length

theorem Spans.append {outer : Frame} {read : Bytes} (spans : outer.Spans read) (further : Bytes) :
    outer.Spans (read ++ further) := by
  obtain ⟨content, found, size⟩ := spans.header
  refine ⟨spans.resume, content ++ further, Header.header_append found further, ?_⟩
  rw [List.length_append, List.length_append]
  omega

end Frame

/-- The balance of the open elements after the octets `read` of a message, where the
element under way lacks `due` octets and `early` ones belong to a header. -/
structure Stack (frames : List Frame) (read : Bytes) (due early : Nat) : Prop where
  bounded : ∀ frame ∈ frames, frame.tlv.consumed ≤ frame.tlv.length
  spans : ∀ outer ∈ frames.getLast?, outer.Spans read
  balance : ∀ outer ∈ frames.getLast?,
    read.length + (Frame.lacking frames + due) = outer.tlv.total + early

namespace Stack

variable {frame : Frame} {frames outer : List Frame} {read : Bytes} {due early : Nat}

theorem nil (read : Bytes) (due early : Nat) : Stack [] read due early where
  bounded := fun _ listed => by cases listed
  spans := fun _ listed => by cases listed
  balance := fun _ listed => by cases listed

/-- One more octet. -/
theorem read_octet (stack : Stack frames read due early) (octet : UInt8) {dueNow earlyNow : Nat}
    (same : dueNow + 1 + early = due + earlyNow) :
    Stack frames (read ++ [octet]) dueNow earlyNow where
  bounded := stack.bounded
  spans := fun outer last => (stack.spans outer last).append [octet]
  balance := fun outer last => by
    have balance := stack.balance outer last
    rw [List.length_append, List.length_singleton]
    omega

/-- The innermost element is charged with a new one, the header of which has been
read. -/
theorem charge {tlv : Tlv} (stack : Stack (frame :: outer) read 0 tlv.headerLength)
    (fits : tlv.total ≤ frame.tlv.remaining) :
    Stack ({ frame with tlv := frame.tlv.advance tlv.total } :: outer) read tlv.length 0 := by
  have room : frame.tlv.consumed + tlv.total ≤ frame.tlv.length := by
    have bounded := stack.bounded frame List.mem_cons_self
    unfold Tlv.remaining at fits
    omega
  have moved : (frame.tlv.advance tlv.total).remaining + tlv.headerLength + tlv.length
      = frame.tlv.remaining := by
    simp only [Tlv.remaining, Tlv.advance, Tlv.total] at room ⊢
    omega
  have within : ∀ other ∈ { frame with tlv := frame.tlv.advance tlv.total } :: outer,
      other.tlv.consumed ≤ other.tlv.length := by
    intro other listed
    rcases List.mem_cons.1 listed with rfl | listed
    · exact room
    · exact stack.bounded other (List.mem_cons_of_mem _ listed)
  cases outer with
  | nil =>
      have spans := stack.spans frame rfl
      have balance := stack.balance frame rfl
      refine ⟨within, ?_, ?_⟩
      · rintro _ ⟨⟩
        exact ⟨spans.resume, spans.header⟩
      · rintro _ ⟨⟩
        rw [Frame.lacking_cons, Frame.lacking_nil] at balance ⊢
        change _ = frame.tlv.total + 0
        dsimp only
        omega
  | cons next outer =>
      refine ⟨within, fun last listed => ?_, fun last listed => ?_⟩
      · rw [List.getLast?_cons_cons] at listed
        exact stack.spans last (by rwa [List.getLast?_cons_cons])
      · rw [List.getLast?_cons_cons] at listed
        have balance := stack.balance last (by rwa [List.getLast?_cons_cons])
        rw [Frame.lacking_cons] at balance ⊢
        dsimp only
        omega

/-- An element becomes the innermost open one, or that of a message if it is the first. -/
theorem cons {inner : Frame} (stack : Stack frames read inner.tlv.length 0)
    (unread : inner.tlv.consumed = 0)
    (first : frames = [] → inner.Spans read ∧ inner.tlv.headerLength = read.length) :
    Stack (inner :: frames) read 0 0 where
  bounded := fun other listed => by
    rcases List.mem_cons.1 listed with rfl | listed
    · omega
    · exact stack.bounded other listed
  spans := fun last listed => by
    cases frames with
    | nil =>
        cases listed
        exact (first rfl).1
    | cons frame outer => exact stack.spans last (by rwa [List.getLast?_cons_cons] at listed)
  balance := fun last listed => by
    rw [Frame.lacking_cons, Tlv.remaining, unread]
    cases frames with
    | nil =>
        obtain rfl : inner = last := Option.some.inj listed
        have size := (first rfl).2
        rw [Frame.lacking_nil, Tlv.total]
        omega
    | cons frame outer =>
        have balance := stack.balance last (by rwa [List.getLast?_cons_cons] at listed)
        omega

/-- An element that lacks nothing ends. -/
theorem tail (stack : Stack (frame :: outer) read due early)
    (full : frame.tlv.consumed = frame.tlv.length) : Stack outer read due early := by
  cases outer with
  | nil => exact .nil read due early
  | cons next outer =>
      refine ⟨fun other listed => stack.bounded other (List.mem_cons_of_mem _ listed),
        fun last listed => stack.spans last (by rwa [List.getLast?_cons_cons]),
        fun last listed => ?_⟩
      have balance := stack.balance last (by rwa [List.getLast?_cons_cons])
      rw [Frame.lacking_cons, Tlv.remaining, full] at balance
      omega

/-- The outermost element lacks nothing when all of the message has been read. -/
theorem whole (stack : Stack [frame] read 0 0) (full : frame.tlv.consumed = frame.tlv.length) :
    Ber.WholeSequence read := by
  obtain ⟨content, found, size⟩ := (stack.spans frame rfl).header
  have balance := stack.balance frame rfl
  refine ⟨frame.tlv.length, content, found, ?_⟩
  rw [Frame.lacking_cons, Frame.lacking_nil, Tlv.remaining, full, Tlv.total] at balance
  omega

end Stack

/-! ## Machines -/

namespace Machine

/-- The number of octets that the primitive element under way lacks. -/
def due (machine : Machine) : Nat :=
  match machine.current with
  | none => 0
  | some pending => pending.tlv.remaining

/-- The balance of a machine after the octets `read` of a message. -/
structure Accounts (machine : Machine) (read : Bytes) : Prop where
  stack : Stack machine.frames read machine.due machine.header.bytesRead
  waiting : machine.Waiting
  /-- The innermost element lacks octets unless one in it is under way. -/
  settled : ∀ frame ∈ machine.frames.head?, machine.current = none →
    frame.tlv.consumed < frame.tlv.length
  between : machine.current ≠ none → machine.header = {}
  outside : machine.frames = [] → machine.current = none ∧ machine.state = .start
    ∧ Header.take read {} = .ok (none, []) machine.header

theorem accounts_fresh : Accounts {} [] where
  stack := .nil [] 0 0
  waiting := waiting_of_current_eq_none rfl
  settled := fun _ listed => by cases listed
  between := fun underWay => absurd rfl underWay
  outside := fun _ => ⟨rfl, rfl, rfl⟩

/-- What reading leads to: a machine whose balance holds, or the end of a message of
which nothing is missing, and a machine that starts again. -/
def Accounted (read : Bytes) (after : Machine) : Option Message → Prop
  | none => after.Accounts read
  | some _ => Ber.WholeSequence read ∧ after.Accounts []

variable {registry : Registry} {decoder : Decoder} {machine after : Machine} {read : Bytes}
  {message : Option Message}

/-! ### Ending elements -/

/-- The innermost element lacks octets, or it ends and so may those around it, or it ends and
the message with it. -/
theorem closeFrames_cases {frame : Frame} {outer : List Frame}
    (closed : closeFrames registry (frame :: outer) machine = .ok message after) :
    (frame.tlv.consumed ≠ frame.tlv.length ∧ message = none ∧ after = machine)
      ∨ (frame.tlv.consumed = frame.tlv.length ∧ outer ≠ [] ∧ ∃ draft,
        closeFrames registry outer { machine with frames := outer, draft, state := frame.resume }
          = .ok message after)
      ∨ (frame.tlv.consumed = frame.tlv.length ∧ outer = []
        ∧ (∃ delivered, message = some delivered)
        ∧ after = { machine with frames := [], draft := {}, state := frame.resume }) := by
  cases complete : frame.tlv.isComplete with
  | false =>
      rw [closeFrames_of_incomplete registry outer complete] at closed
      cases closed
      exact .inl ⟨Tlv.isComplete_eq_false_iff.1 complete, rfl, rfl⟩
  | true =>
      have full := Tlv.isComplete_iff.1 complete
      rw [closeFrames_of_complete registry outer complete] at closed
      obtain ⟨_, ended, closedFrame, closed⟩ := Step.exists_of_bind_eq_ok closed
      obtain ⟨draft, rfl⟩ := exists_draft_of_closeFrame closedFrame
      cases outer with
      | cons next outer => exact .inr (.inl ⟨full, List.cons_ne_nil _ _, draft, closed⟩)
      | nil =>
          obtain ⟨delivered, _, made, returned⟩ := Step.exists_of_bind_eq_ok closed
          simp only [deliver] at made
          split at made <;> cases made
          cases returned
          exact .inr (.inr ⟨full, rfl, ⟨delivered, rfl⟩, rfl⟩)

/-- Ending the elements that are complete keeps the balance. -/
theorem accounted_of_closeFrames {frames : List Frame} (stack : Stack frames read 0 0)
    (same : machine.frames = frames) (idle : machine.current = none)
    (fresh : machine.header = {}) (inside : frames ≠ [])
    (closed : closeFrames registry frames machine = .ok message after) :
    Accounted read after message := by
  induction frames generalizing machine with
  | nil => exact absurd rfl inside
  | cons frame outer further =>
      rcases closeFrames_cases closed with ⟨partly, rfl, rfl⟩ | ⟨full, around, draft, closed⟩
        | ⟨full, rfl, ⟨delivered, rfl⟩, rfl⟩
      · have lacking : frame.tlv.consumed < frame.tlv.length := by
          have bounded := stack.bounded frame List.mem_cons_self
          omega
        exact
          { stack := by simpa only [same, due, idle, fresh] using stack
            waiting := waiting_of_current_eq_none idle
            settled := by
              rw [same]
              rintro _ ⟨⟩ _
              exact lacking
            between := fun underWay => absurd idle underWay
            outside := fun empty => absurd (same.symm.trans empty) inside }
      · refine further (stack.tail full) rfl ?_ ?_ around closed
        · exact idle
        · exact fresh
      · refine ⟨stack.whole full, .nil _ _ _, waiting_of_current_eq_none idle, ?_, ?_, ?_⟩
        · rintro _ ⟨⟩
        · exact fun underWay => absurd idle underWay
        · intro _
          refine ⟨idle, (stack.spans frame rfl).resume, ?_⟩
          dsimp only
          rw [fresh]
          rfl

theorem accounted_of_finishPrimitive {pending : Pending}
    (stack : Stack machine.frames read 0 0) (fresh : machine.header = {})
    (inside : machine.frames ≠ [])
    (finished : finishPrimitive registry pending machine = .ok message after) :
    Accounted read after message := by
  obtain ⟨draft, closed⟩ := exists_closeFrames_of_finishPrimitive finished
  refine accounted_of_closeFrames stack ?_ ?_ ?_ inside closed
  · rfl
  · rfl
  · exact fresh

/-! ### Beginning elements -/

/-- Outside of all elements a state accepts nothing but a sequence, which ends there. -/
theorem transition?_start {tag : UInt8} {transition : Grammar.Transition}
    (accepted : State.start.transition? tag = some transition) :
    tag = Tag.sequence ∧ transition.close = some { action := none, resume := .start } := by
  obtain ⟨rule, listed, rfl, rfl⟩ := State.exists_rule_of_transition? accepted
  cases List.mem_singleton.1 listed
  exact ⟨rfl, rfl⟩

/-- An element is charged to the innermost open one, if there is one. -/
theorem stack_of_charge {limits : Limits} {tlv : Tlv}
    (stack : Stack machine.frames read 0 tlv.headerLength)
    (charged : charge limits tlv machine = .ok () after) :
    ∃ frames, after = { machine with frames } ∧ (frames = [] ↔ machine.frames = [])
      ∧ Stack frames read tlv.length 0 := by
  obtain ⟨header, current, frames, state, draft⟩ := machine
  cases frames with
  | nil =>
      simp only [Machine.charge] at charged
      split at charged <;> cases charged
      exact ⟨[], rfl, Iff.rfl, .nil _ _ _⟩
  | cons parent outer =>
      simp only [Machine.charge] at charged
      split at charged
      · cases charged
      · rename_i fits
        cases charged
        have lists : ∀ parent : Frame, parent :: outer ≠ [] := fun _ => List.cons_ne_nil _ _
        exact ⟨_, rfl, iff_of_false (lists _) (lists _), stack.charge (Nat.not_lt.1 fits)⟩

theorem accounted_of_openFrame {tlv : Tlv} {transition : Grammar.Transition}
    {close : Grammar.Close} (stack : Stack machine.frames read tlv.length 0)
    (idle : machine.current = none) (fresh : machine.header = {}) (unread : tlv.consumed = 0)
    (first : machine.frames = [] → close.resume = .start
      ∧ Reader.header read = .ok (Tag.sequence, tlv.length) []
      ∧ tlv.headerLength = read.length)
    (opened : openFrame decoder tlv transition close machine = .ok message after) :
    Accounted read after message := by
  obtain ⟨draft, closed⟩ := exists_closeFrames_of_openFrame opened
  refine accounted_of_closeFrames ?_ ?_ ?_ ?_ (List.cons_ne_nil _ _) closed
  · refine Stack.cons stack unread fun empty => ?_
    obtain ⟨resume, found, size⟩ := first empty
    exact ⟨⟨resume, [], found, size⟩, size⟩
  · rfl
  · exact idle
  · exact fresh

/-- An element of which the header has just been read. -/
theorem accounted_of_beginElement {tlv : Tlv}
    (stack : Stack machine.frames read 0 tlv.headerLength) (idle : machine.current = none)
    (fresh : machine.header = {}) (unread : tlv.consumed = 0)
    (first : machine.frames = [] → machine.state = .start
      ∧ Reader.header read = .ok (tlv.tag, tlv.length) [] ∧ tlv.headerLength = read.length)
    (begun : beginElement decoder tlv machine = .ok message after) :
    Accounted read after message := by
  obtain ⟨middle, transition, charged, found, ways⟩ := beginElement_cases begun
  obtain ⟨frames, rfl, empty, stack⟩ := stack_of_charge stack charged
  have outermost : frames = [] →
      tlv.tag = Tag.sequence ∧ transition.close = some { action := none, resume := .start } := by
    intro none
    have starts := (first (empty.1 none)).1
    dsimp only at found
    rw [starts] at found
    exact transition?_start found
  rcases ways with ⟨close, closing, opened⟩ | ⟨primitive, full, finished⟩
    | ⟨primitive, partly, rfl, rfl⟩
  · refine accounted_of_openFrame stack ?_ ?_ unread (fun none => ?_) opened
    · exact idle
    · exact fresh
    · obtain ⟨_, header, size⟩ := first (empty.1 none)
      obtain ⟨sequence, closes⟩ := outermost none
      cases closing.symm.trans closes
      rw [sequence] at header
      exact ⟨rfl, header, size⟩
  · have inside : frames ≠ [] := fun none => by cases primitive.symm.trans (outermost none).2
    rw [← full, unread] at stack
    refine accounted_of_finishPrimitive ?_ ?_ ?_ finished
    · exact stack
    · exact fresh
    · exact inside
  · have inside : frames ≠ [] := fun none => by cases primitive.symm.trans (outermost none).2
    have lacking : tlv.consumed < tlv.length := by omega
    refine ⟨?_, ?_, ?_, fun _ => fresh, fun none => absurd none inside⟩
    · simpa only [due, Tlv.remaining, unread, fresh, Nat.sub_zero] using stack
    · rintro _ ⟨⟩
      exact lacking
    · rintro _ _ ⟨⟩

/-! ### Octets -/

/-- An octet of a header. -/
theorem accounted_of_headerOctet {octet : UInt8} (accounts : machine.Accounts read)
    (current : machine.current = none) (pushed : push decoder octet machine = .ok message after) :
    Accounted (read ++ [octet]) after message := by
  have begun := accounts.stack
  simp only [due, current] at begun
  simp only [push, current] at pushed
  obtain ⟨announced, middle, headerPushed, continued⟩ := Step.exists_of_bind_eq_ok pushed
  unfold pushHeader at headerPushed
  split at headerPushed
  · rename_i found header took
    cases headerPushed
    cases announced with
    | none =>
        cases continued
        have counted := Header.bytesRead_of_push took
        refine ⟨?_, accounts.waiting, accounts.settled, fun other => absurd current other,
          fun empty => ?_⟩
        · simp only [due, current]
          exact begun.read_octet octet (by omega)
        · obtain ⟨idle, starts, taken⟩ := accounts.outside empty
          refine ⟨idle, starts, ?_⟩
          rw [Header.take_append, taken]
          exact Header.take_of_pushed took
    | some tlv =>
        obtain ⟨rfl, shape⟩ := Header.announced_of_push took
        have size : tlv.headerLength = machine.header.bytesRead + 1 := by rw [shape]
        have unread : tlv.consumed = 0 := by rw [shape]
        refine accounted_of_beginElement ?_ ?_ rfl unread (fun empty => ?_) continued
        · rw [size]
          exact begun.read_octet octet (by omega)
        · exact current
        · obtain ⟨_, starts, taken⟩ := accounts.outside empty
          have counted : machine.header.bytesRead = read.length := by
            simpa using Header.bytesRead_of_take taken
          have whole : tlv.headerLength = (read ++ [octet]).length := by
            rw [size, List.length_append, List.length_singleton]
            omega
          refine ⟨starts, Header.header_eq_ok_iff.2 ?_, whole⟩
          rw [Header.take_append, taken]
          dsimp only
          rw [Header.take_of_announced took, List.length_nil, Nat.sub_zero, ← whole, shape]
  · cases headerPushed

/-- An octet of a primitive element. -/
theorem accounted_of_contentOctet {octet : UInt8} {pending : Pending}
    (accounts : machine.Accounts read) (current : machine.current = some pending)
    (pushed : push decoder octet machine = .ok message after) :
    Accounted (read ++ [octet]) after message := by
  have lacking := accounts.waiting pending current
  have fresh : machine.header = {} :=
    accounts.between (by rw [current]; exact Option.some_ne_none _)
  have inside : machine.frames ≠ [] := by
    intro empty
    rw [(accounts.outside empty).1] at current
    cases current
  have stack := accounts.stack
  simp only [due, current, fresh, Tlv.remaining] at stack
  by_cases last : pending.tlv.consumed + 1 = pending.tlv.length
  · rw [push_of_complete decoder octet last current] at pushed
    exact accounted_of_finishPrimitive (stack.read_octet octet (by omega)) fresh inside pushed
  · rw [push_of_incomplete decoder octet (by omega) current] at pushed
    cases pushed
    refine ⟨?_, ?_, ?_, fun _ => fresh, fun empty => absurd empty inside⟩
    · simp only [withCurrent, due, fresh, Pending.fill, Tlv.remaining, Tlv.consumed_fill,
        Tlv.length_fill, List.length_singleton]
      exact stack.read_octet octet (by omega)
    · rintro _ ⟨⟩
      simp only [Pending.fill, Tlv.consumed_fill, Tlv.length_fill, List.length_singleton]
      omega
    · rintro _ _ ⟨⟩

/-- **An octet** keeps the balance of a machine, or completes a message of which
nothing is missing. -/
theorem accounted_of_push {octet : UInt8} (accounts : machine.Accounts read)
    (pushed : push decoder octet machine = .ok message after) :
    Accounted (read ++ [octet]) after message := by
  cases current : machine.current with
  | none => exact accounted_of_headerOctet accounts current pushed
  | some pending => exact accounted_of_contentOctet accounts current pushed

/-- **Octets one after another** keep the balance up to the end of a message. -/
theorem accounted_of_run {input left : Bytes} (accounts : machine.Accounts read)
    (ran : run decoder input machine = .ok (message, left) after) :
    ∃ taken, input = taken ++ left ∧ Accounted (read ++ taken) after message := by
  induction input generalizing machine read with
  | nil =>
      cases ran
      exact ⟨[], rfl, by rwa [List.append_nil]⟩
  | cons octet rest further =>
      rw [run_cons] at ran
      obtain ⟨ready, middle, pushed, ran⟩ := Step.exists_of_bind_eq_ok ran
      have reached := accounted_of_push accounts pushed
      cases ready with
      | none =>
          obtain ⟨taken, rfl, ends⟩ := further reached ran
          exact ⟨octet :: taken, rfl, by rwa [List.append_assoc] at ends⟩
      | some message =>
          cases ran
          exact ⟨[octet], rfl, reached⟩

end Machine

end LdapWire
