import LdapWire.Proofs.Descent.Basic
import LdapWire.Proofs.Session.Elements
import LdapWire.Proofs.Session.Framing
import LdapWire.Proofs.Session.Headers

/-!
# The machine reads as the descent does

The machine keeps a stack where the descent calls itself. A frame that lacks exactly
the octets of a slice is where the descent reads the slice: the machine goes on
behind the frame if and only if the descent accepts the slice
(`Machine.readsSlice`). This is an induction on the length of the slice, for
the content of an element as well as for what is behind it. A header that does not
end inside the slice is the case that the descent sees at once and the machine only
later, when it charges the element.

So a fresh machine returns a message after some octets if and only if the descent
reads those octets as the message (`Session.feed_ready_iff`).
-/

set_option autoImplicit false

namespace LdapWire

open Ber
open Grammar (Action Close State Transition)

/-! ## Actions -/

theorem Draft.act_congr (registry : Registry) (action : Action) {tlv other : Tlv}
    (value : tlv.value = other.value) (length : tlv.length = other.length) :
    Draft.act registry action tlv = Draft.act registry action other := by
  unfold Draft.act
  rw [value, length]

namespace Descent

variable {registry : Registry} {action : Option Action} {tlv other : Tlv} {draft after : Draft}

/-- An action depends on the content of an element and on its length. -/
theorem act_congr (value : tlv.value = other.value) (length : tlv.length = other.length) :
    act registry action tlv draft = act registry action other draft := by
  cases action with
  | none => rfl
  | some action =>
      have same := Draft.act_congr registry action value length
      simp only [act, Draft.perform, same]

theorem act_eq_some_iff : act registry action tlv draft = some after ↔
    Draft.perform registry action tlv draft = .ok () after := by
  unfold act
  cases Draft.perform registry action tlv draft <;> simp

variable {decoder : Decoder} {depth : Nat} {slice : Bytes} {state : State}

theorem content_nil : content decoder depth [] state draft
    = if state.canEnd then some draft else none := by
  rw [content, if_pos rfl]

theorem content_eq_some_iff (nonempty : slice ≠ []) :
    content decoder depth slice state draft = some after ↔
      ∃ tlv value behind next middle, split slice = some (tlv, value, behind)
        ∧ element decoder depth tlv value (content decoder (depth + 1) value) state draft
          = some (next, middle)
        ∧ content decoder depth behind next middle = some after := by
  rw [content, if_neg nonempty]
  split
  · rename_i missing
    simp [missing]
  · rename_i tlv value behind found
    simp only [found, Option.bind_eq_bind, Option.bind_eq_some_iff, Prod.exists, Option.some.injEq,
      Prod.mk.injEq]
    constructor
    · rintro ⟨next, middle, read, further⟩
      exact ⟨tlv, value, behind, next, middle, ⟨rfl, rfl, rfl⟩, read, further⟩
    · rintro ⟨_, _, _, next, middle, ⟨rfl, rfl, rfl⟩, read, further⟩
      exact ⟨next, middle, read, further⟩

variable {value : Bytes} {inside : State → Draft → Option Draft} {transition : Transition}
  {next : State}

theorem element_primitive_iff (accepted : state.transition? tlv.tag = some transition)
    (plain : transition.close = none) :
    element decoder depth tlv value inside state draft = some (next, after) ↔
      next = transition.next
        ∧ act decoder.registry transition.action (tlv.fill value) draft = some after := by
  simp only [element, accepted, plain, Option.bind_eq_bind, Option.bind_some,
    Option.bind_eq_some_iff, Option.pure_def, Option.some.injEq, Prod.mk.injEq]
  constructor
  · rintro ⟨_, acted, rfl, rfl⟩
    exact ⟨rfl, acted⟩
  · rintro ⟨rfl, acted⟩
    exact ⟨after, acted, rfl, rfl⟩

theorem element_constructed_iff (accepted : state.transition? tlv.tag = some transition)
    {close : Close} (closing : transition.close = some close)
    (shallow : depth < decoder.limits.maxDepth) :
    element decoder depth tlv value inside state draft = some (next, after) ↔
      next = close.resume ∧ ∃ opened read,
        act decoder.registry transition.action tlv draft = some opened
        ∧ inside transition.next opened = some read
        ∧ act decoder.registry close.action tlv read = some after := by
  simp only [element, accepted, closing, if_neg (Nat.not_le.2 shallow), Option.bind_eq_bind,
    Option.bind_some, Option.bind_eq_some_iff, Option.pure_def, Option.some.injEq,
    Prod.mk.injEq]
  constructor
  · rintro ⟨opened, opens, read, reads, _, ends, rfl, rfl⟩
    exact ⟨rfl, opened, read, opens, reads, ends⟩
  · rintro ⟨rfl, opened, read, opens, reads, ends⟩
    exact ⟨opened, opens, read, reads, after, ends, rfl, rfl⟩

theorem element_of_deep (accepted : state.transition? tlv.tag = some transition)
    {close : Close} (closing : transition.close = some close)
    (deep : decoder.limits.maxDepth ≤ depth) :
    element decoder depth tlv value inside state draft = none := by
  simp only [element, accepted, closing, if_pos deep, Option.bind_eq_bind, Option.bind_some]

theorem element_of_unexpected (unexpected : state.transition? tlv.tag = none) :
    element decoder depth tlv value inside state draft = none := by
  simp only [element, unexpected, Option.bind_eq_bind, Option.bind_none]

theorem toMessage_eq_ok_iff {found : Message} :
    draft.toMessage.toOption = some found ↔ draft.toMessage = .ok found := by
  cases draft.toMessage <;> simp [Except.toOption]

theorem message_eq_some_iff {octets : Bytes} {found : Message} :
    message decoder octets = some found ↔
      ∃ tlv value next draft, split octets = some (tlv, value, [])
        ∧ tlv.total ≤ decoder.limits.maxPduSize
        ∧ element decoder 0 tlv value (content decoder 1 value) .start {} = some (next, draft)
        ∧ draft.toMessage = .ok found := by
  simp only [message, Option.bind_eq_bind, Option.bind_eq_some_iff, Prod.exists]
  constructor
  · rintro ⟨tlv, value, behind, held, read⟩
    split at read
    · cases read
    · rename_i whole
      obtain ⟨complete, small⟩ := not_or.1 whole
      obtain rfl := not_not.1 complete
      simp only [Option.bind_eq_some_iff, Prod.exists, toMessage_eq_ok_iff] at read
      obtain ⟨next, draft, reads, made⟩ := read
      exact ⟨tlv, value, next, draft, held, Nat.not_lt.1 small, reads, made⟩
  · rintro ⟨tlv, value, next, draft, held, fits, reads, made⟩
    refine ⟨tlv, value, [], held, ?_⟩
    rw [if_neg (not_or.2 ⟨fun other => other rfl, Nat.not_lt.2 fits⟩)]
    simp only [reads, Option.bind_some, toMessage_eq_ok_iff]
    exact made

/-- A slice that does not hold an element as a whole is shorter than the element. -/
theorem total_of_missing {rest left : Bytes} {header : Header} (missing : split slice = none)
    (taken : Header.take (slice ++ rest) {} = .ok (some tlv, left) header) :
    slice.length < tlv.total := by
  rw [Header.take_append] at taken
  cases front : Header.take slice {} with
  | error error middle =>
      rw [front] at taken
      cases taken
  | ok result middle =>
      obtain ⟨announced, body⟩ := result
      rw [front] at taken
      cases announced with
      | some found =>
          cases taken
          obtain ⟨_, _, whole⟩ := Header.announced_of_take front
          have long : ¬ tlv.length ≤ body.length := by
            intro fits
            have held := split_eq_some_iff.2
              ⟨_, _, _, Header.header_of_take front, fits, rfl, rfl, rfl⟩
            cases missing.symm.trans held
          unfold Tlv.total
          dsimp only at whole
          omega
      | none =>
          have counted := Header.bytesRead_of_take front
          obtain ⟨_, wide, _⟩ := Header.announced_of_take taken
          unfold Tlv.total
          dsimp only at counted
          omega

end Descent

/-! ## Elements -/

namespace Machine

/-- Whether reading has ended with a message and has left some octets. -/
def Returns (message : Message) (left : Bytes)
    (result : EStateM.Result CodecError Machine (Option Message × Bytes)) : Prop :=
  ∃ after, result = .ok (some message, left) after

variable {decoder : Decoder} {message : Message} {left rest value slice : Bytes} {tlv : Tlv}
  {frame : Frame} {outer frames : List Frame} {state : State} {draft : Draft}

theorem not_returns_of_error {error : CodecError} {machine : Machine} :
    ¬ Returns message left (.error error machine) := by
  rintro ⟨_, same⟩
  cases same

theorem not_returns_of_none {other : Bytes} {machine : Machine} :
    ¬ Returns message left (.ok (none, other) machine) := by
  rintro ⟨_, same⟩
  cases same

theorem not_returns_of_failed {machine after : Machine} {error : CodecError}
    (failed : beginElement decoder tlv machine = .error error after) :
    ¬ Returns message left ((do
      let message ← beginElement decoder tlv
      resume decoder (message, rest)) machine) := by
  rw [Step.bind_of_error _ failed]
  exact not_returns_of_error

/-- Whether a frame that lacks exactly the octets of a slice is left behind them where the
descent accepts them. -/
def ReadsSlice (decoder : Decoder) (slice : Bytes) : Prop :=
  ∀ (message : Message) (left rest : Bytes) (frame : Frame) (outer : List Frame) (state : State)
    (draft : Draft),
    frame.tlv.remaining = slice.length → frame.tlv.consumed ≤ frame.tlv.length →
    (Returns message left (settle decoder (frame :: outer) (slice ++ rest)
        { frames := frame :: outer, state, draft }) ↔
      ∃ inside after, Descent.content decoder (outer.length + 1) slice state draft = some inside
        ∧ Descent.act decoder.registry frame.atEnd frame.tlv inside = some after
        ∧ Returns message left
          (leave decoder outer rest
            { frames := outer, state := frame.resume, draft := after }))

/-- An element that has just begun lacks all its content. -/
theorem ReadsSlice.opened (reads : ReadsSlice decoder value) (unread : tlv.consumed = 0)
    (size : value.length = tlv.length) (close : Close) :
    Returns message left (settle decoder (.opened tlv close :: frames) (value ++ rest)
        { frames := .opened tlv close :: frames, state, draft }) ↔
      ∃ inside after, Descent.content decoder (frames.length + 1) value state draft = some inside
        ∧ Descent.act decoder.registry close.action tlv inside = some after
        ∧ Returns message left
          (leave decoder frames rest { frames, state := close.resume, draft := after }) := by
  have room : tlv.remaining = value.length := by
    rw [Tlv.remaining, unread, size, Nat.sub_zero]
  have bounded : tlv.consumed ≤ tlv.length := by
    rw [unread]
    exact Nat.zero_le _
  exact reads message left rest (.opened tlv close) frames state draft room bounded

/-- **One element**: the machine goes on behind it where the descent accepts it,
provided that this is so for its content. -/
theorem begin_returns_iff {machine : Machine} (unread : tlv.consumed = 0)
    (size : value.length = tlv.length)
    (charges : charge decoder.limits tlv machine = .ok () { frames, state, draft })
    (nested : ∀ transition, state.transition? tlv.tag = some transition →
      transition.close = none → frames ≠ [])
    (reads : ReadsSlice decoder value) :
    Returns message left ((do
        let message ← beginElement decoder tlv
        resume decoder (message, value ++ rest)) machine) ↔
      ∃ next after,
        Descent.element decoder frames.length tlv value
            (Descent.content decoder (frames.length + 1) value) state draft = some (next, after)
        ∧ Returns message left
          (leave decoder frames rest { frames, state := next, draft := after }) := by
  cases found : state.transition? tlv.tag with
  | none =>
      have failed := beginElement_of_unexpected charges found
      rw [Descent.element_of_unexpected found]
      refine iff_of_false (not_returns_of_failed failed) ?_
      rintro ⟨_, _, ⟨⟩, _⟩
  | some transition =>
      cases closing : transition.close with
      | none =>
          have goesOn : ∀ machine, leave decoder frames rest machine
              = settle decoder frames rest machine := by
            intro machine
            cases frames with
            | nil => exact absurd rfl (nested transition found closing)
            | cons => rfl
          simp only [Descent.element_primitive_iff found closing, Descent.act_eq_some_iff, goesOn]
          rw [beginElement_primitive unread size charges found closing]
          cases acted : Draft.perform decoder.registry transition.action (tlv.fill value) draft with
          | error error after =>
              refine iff_of_false not_returns_of_error ?_
              rintro ⟨_, _, ⟨_, ⟨⟩⟩, _⟩
          | ok _ after =>
              constructor
              · intro returns
                exact ⟨_, after, ⟨rfl, rfl⟩, returns⟩
              · rintro ⟨_, _, ⟨rfl, ⟨⟩⟩, returns⟩
                exact returns
      | some close =>
          by_cases deep : decoder.limits.maxDepth ≤ frames.length
          · obtain ⟨error, failed⟩ := beginElement_of_deep charges found closing deep
            rw [Descent.element_of_deep found closing deep]
            refine iff_of_false (not_returns_of_failed failed) ?_
            rintro ⟨_, _, ⟨⟩, _⟩
          · have shallow := Nat.not_le.1 deep
            simp only [Descent.element_constructed_iff found closing shallow]
            rw [beginElement_constructed charges found closing shallow]
            cases acted : Draft.perform decoder.registry transition.action tlv draft with
            | error error after =>
                refine iff_of_false not_returns_of_error ?_
                rintro ⟨_, _, ⟨_, _, _, opens, _⟩, _⟩
                rw [Descent.act_eq_some_iff, acted] at opens
                cases opens
            | ok _ opened =>
                have opens := Descent.act_eq_some_iff.2 acted
                rw [reads.opened unread size close]
                constructor
                · rintro ⟨read, after, content, ends, returns⟩
                  exact ⟨_, after, ⟨rfl, opened, read, opens, content, ends⟩, returns⟩
                · rintro ⟨_, after, ⟨rfl, other, read, otherOpens, content, ends⟩, returns⟩
                  cases opens.symm.trans otherOpens
                  exact ⟨read, after, content, ends, returns⟩

/-! ## Slices -/

/-- A complete element ends where the descent ends. -/
theorem readsSlice_nil : ReadsSlice decoder [] := by
  intro message left rest frame outer state draft room bounded
  have complete : frame.tlv.isComplete = true := by
    rw [Tlv.remaining, List.length_nil] at room
    exact Tlv.isComplete_iff.2 (by omega)
  rw [List.nil_append, settle_of_complete complete, Descent.content_nil]
  simp only [Descent.act_eq_some_iff]
  cases state.canEnd with
  | false =>
      refine iff_of_false not_returns_of_error ?_
      rintro ⟨_, _, ⟨⟩, _⟩
  | true =>
      simp only [if_true, Option.some.injEq]
      cases acted : Draft.perform decoder.registry frame.atEnd frame.tlv draft with
      | error error after =>
          refine iff_of_false not_returns_of_error ?_
          rintro ⟨_, _, rfl, ends, _⟩
          cases acted.symm.trans ends
      | ok _ after =>
          constructor
          · intro returns
            exact ⟨draft, after, rfl, acted, returns⟩
          · rintro ⟨_, _, rfl, ends, returns⟩
            cases acted.symm.trans ends
            exact returns

/-- What a slice does not hold as a whole overflows the element around it, wherever
its header ends. -/
theorem not_returns_of_missing (room : frame.tlv.remaining = slice.length)
    (missing : Descent.split slice = none) :
    ¬ Returns message left (run decoder (slice ++ rest)
      { frames := frame :: outer, state, draft }) := by
  rw [run_eq_take rfl]
  cases taken : Header.take (slice ++ rest) {} with
  | error error after => exact not_returns_of_error
  | ok result after =>
      obtain ⟨announced, others⟩ := result
      cases announced with
      | none => exact not_returns_of_none
      | some tlv =>
          obtain ⟨rfl, _⟩ := Header.announced_of_take taken
          have overflow : frame.tlv.remaining < tlv.total :=
            room ▸ Descent.total_of_missing missing taken
          exact not_returns_of_failed (beginElement_of_overflow rfl overflow)

/-- What a slice holds as a whole is begun. -/
theorem run_of_split {behind : Bytes} {machine : Machine} (idle : machine.current = none)
    (fresh : machine.header = {}) (found : Descent.split slice = some (tlv, value, behind)) :
    run decoder (slice ++ rest) machine
      = (do let message ← beginElement decoder tlv
            resume decoder (message, value ++ (behind ++ rest))) machine := by
  obtain ⟨tag, length, body, read, _, rfl, rfl, rfl⟩ := Descent.split_eq_some_iff.1 found
  have taken := Header.header_eq_ok_iff.1 (Header.header_append read rest)
  obtain ⟨header, current, frames, state, draft⟩ := machine
  cases idle
  cases fresh
  rw [run_eq_take rfl, taken, ← List.append_assoc, List.take_append_drop]
  simp only [List.length_append, Nat.add_sub_add_right]

/-- A slice that does not hold its first element as a whole is accepted by neither. -/
theorem readsSlice_of_missing (nonempty : slice ≠ []) (missing : Descent.split slice = none) :
    ReadsSlice decoder slice := by
  intro message left rest frame outer state draft room _
  have lacking : 0 < frame.tlv.remaining := room ▸ List.length_pos_iff.2 nonempty
  rw [settle_of_lacking lacking]
  refine iff_of_false (not_returns_of_missing room missing) ?_
  rintro ⟨_, _, read, _⟩
  obtain ⟨_, _, _, _, _, held, _⟩ := (Descent.content_eq_some_iff nonempty).1 read
  cases missing.symm.trans held

/-- **The first element of a slice** is read, and then what is behind it. The element is charged
as a whole, so what its frame lacks is its content, and what the frame around it lacks is what
is behind it. -/
theorem readsSlice_of_split {behind : Bytes} (nonempty : slice ≠ [])
    (found : Descent.split slice = some (tlv, value, behind)) (content : ReadsSlice decoder value)
    (others : ReadsSlice decoder behind) : ReadsSlice decoder slice := by
  intro message left rest frame outer state draft room bounded
  have parts := Descent.splits_of_split found
  have total := parts.total
  have lacking : 0 < frame.tlv.remaining := room ▸ List.length_pos_iff.2 nonempty
  have fits : tlv.total ≤ frame.tlv.remaining := by omega
  have behindRoom : (frame.advance tlv.total).tlv.remaining = behind.length := by
    rw [Frame.remaining_advance]
    omega
  have behindBounded : frame.tlv.consumed + tlv.total ≤ frame.tlv.length := by
    unfold Tlv.remaining at fits
    omega
  have later : ∀ next middle,
      Returns message left
          (leave decoder (frame.advance tlv.total :: outer) (behind ++ rest)
            { frames := frame.advance tlv.total :: outer, state := next, draft := middle }) ↔ _ :=
    fun next middle =>
      others message left rest (frame.advance tlv.total) outer next middle behindRoom behindBounded
  have sameEnd : ∀ inside,
      Descent.act decoder.registry (frame.advance tlv.total).atEnd
          (frame.advance tlv.total).tlv inside
        = Descent.act decoder.registry frame.atEnd frame.tlv inside :=
    fun inside => Descent.act_congr rfl rfl
  rw [settle_of_lacking lacking, run_of_split rfl rfl found,
    begin_returns_iff parts.unread parts.length (charge_of_le fits decoder.limits)
      (fun _ _ _ => List.cons_ne_nil _ _) content]
  simp only [later, sameEnd]
  constructor
  · rintro ⟨next, middle, read, inside, after, content, ends, returns⟩
    refine ⟨inside, after, ?_, ends, returns⟩
    exact (Descent.content_eq_some_iff nonempty).2
      ⟨tlv, value, behind, next, middle, found, read, content⟩
  · rintro ⟨inside, after, whole, ends, returns⟩
    obtain ⟨_, _, _, next, middle, held, read, content⟩ :=
      (Descent.content_eq_some_iff nonempty).1 whole
    cases found.symm.trans held
    exact ⟨next, middle, read, inside, after, content, ends, returns⟩

/-- **A slice**: a frame that lacks its octets is left behind them where the descent
accepts them. The content of its first element and what is behind that are both shorter. -/
theorem readsSlice (decoder : Decoder) (slice : Bytes) : ReadsSlice decoder slice := by
  induction slice using WellFounded.induction (measure List.length).wf with
  | _ slice shorter =>
      by_cases empty : slice = []
      · rw [empty]
        exact readsSlice_nil
      · cases found : Descent.split slice with
        | none => exact readsSlice_of_missing empty found
        | some parts =>
            obtain ⟨tlv, value, behind⟩ := parts
            have parts := Descent.splits_of_split found
            have total := parts.total
            have size := parts.length
            have wide := parts.wide
            have whole : tlv.total = tlv.headerLength + tlv.length := rfl
            have inner : value.length < slice.length := by omega
            have later : behind.length < slice.length := by omega
            exact readsSlice_of_split empty found (shorter value inner) (shorter behind later)

/-! ## Messages -/

theorem leave_returns_iff {draft : Draft} :
    Returns message left (leave decoder [] rest { state, draft }) ↔
      draft.toMessage = .ok message ∧ left = rest := by
  cases made : draft.toMessage with
  | error error =>
      have failed : leave decoder [] rest { state, draft } = .error error { state, draft } := by
        simp only [leave, Step.bind_apply, deliver, made]
      rw [failed]
      refine iff_of_false not_returns_of_error ?_
      rintro ⟨⟨⟩, _⟩
  | ok found =>
      rw [leave_outermost made]
      constructor
      · rintro ⟨_, same⟩
        cases same
        exact ⟨rfl, rfl⟩
      · rintro ⟨same, rfl⟩
        cases same
        exact ⟨_, rfl⟩

/-- **One message**: a fresh machine returns the message that the descent reads. -/
theorem run_element_returns_iff {octets : Bytes}
    (found : Descent.split octets = some (tlv, value, [])) :
    Returns message left (run decoder (octets ++ rest) {}) ↔
      Descent.message decoder octets = some message ∧ left = rest := by
  have parts := Descent.splits_of_split found
  rw [run_of_split rfl rfl found, List.nil_append]
  by_cases large : decoder.limits.maxPduSize < tlv.total
  · have charges : charge decoder.limits tlv {}
        = .error (.limitExceeded .pduSize decoder.limits.maxPduSize tlv.total) {} := if_pos large
    have failed : beginElement decoder tlv {} = .error _ {} := Step.bind_of_error _ charges
    refine iff_of_false (not_returns_of_failed failed) ?_
    rintro ⟨read, _⟩
    obtain ⟨_, _, _, _, held, fits, _⟩ := Descent.message_eq_some_iff.1 read
    cases found.symm.trans held
    exact large.not_ge fits
  · have nested : ∀ transition, State.start.transition? tlv.tag = some transition →
        transition.close = none → ([] : List Frame) ≠ [] := by
      intro transition accepted plain
      cases plain.symm.trans (transition?_start accepted).2
    rw [begin_returns_iff parts.unread parts.length (charge_outermost (Nat.not_lt.1 large))
      nested (readsSlice decoder value)]
    simp only [leave_returns_iff]
    constructor
    · rintro ⟨next, draft, read, made, same⟩
      exact ⟨Descent.message_eq_some_iff.2
        ⟨tlv, value, next, draft, found, Nat.not_lt.1 large, read, made⟩, same⟩
    · rintro ⟨read, same⟩
      obtain ⟨_, _, next, draft, held, _, reads, made⟩ := Descent.message_eq_some_iff.1 read
      cases found.symm.trans held
      exact ⟨next, draft, reads, made, same⟩

/-- **A fresh machine** returns a message where the descent reads the octets up to
there as the message. -/
theorem run_returns_iff {octets : Bytes} :
    Returns message left (run decoder octets {}) ↔
      ∃ taken, octets = taken ++ left ∧ Descent.message decoder taken = some message := by
  constructor
  · rintro ⟨after, ran⟩
    obtain ⟨taken, rfl, ⟨length, content, read, size⟩, _⟩ := accounted_of_run accounts_fresh ran
    have found : Descent.split taken = some (_, content, []) :=
      Descent.split_eq_some_iff.2 ⟨_, _, content, read, Nat.le_of_eq size.symm, rfl,
        by rw [← size, List.take_length], by rw [← size, List.drop_length]⟩
    exact ⟨taken, rfl, ((run_element_returns_iff found).1 ⟨after, ran⟩).1⟩
  · rintro ⟨taken, rfl, read⟩
    obtain ⟨tlv, value, _, _, found, _⟩ := Descent.message_eq_some_iff.1 read
    exact (run_element_returns_iff found).2 ⟨read, rfl⟩

end Machine

/-- **The machine reads as the descent does**: a fresh session returns a message with
the first `count` octets of a chunk if and only if the descent reads these as the
message. -/
theorem Session.feed_ready_iff (decoder : Decoder) (octets : Bytes) (message : Message)
    (count : Nat) :
    (∃ after, Session.feed decoder octets {} = .ok (some message) after
        ∧ count ≤ octets.length ∧ after.pending = octets.drop count) ↔
      count ≤ octets.length ∧ Descent.message decoder (octets.take count) = some message := by
  rw [Session.feed_fresh]
  constructor
  · rintro ⟨after, ready, within, left⟩
    split at ready
    · rename_i ran
      cases ready
      obtain ⟨taken, split, read⟩ := Machine.run_returns_iff.1 ⟨_, ran⟩
      dsimp only at left
      rw [left] at split
      have same : octets.take count = taken :=
        List.append_cancel_right ((List.take_append_drop count octets).trans split)
      rw [same]
      exact ⟨within, read⟩
    · cases ready
  · rintro ⟨within, read⟩
    have parts := (List.take_append_drop count octets).symm
    obtain ⟨machine, ran⟩ := Machine.run_returns_iff.2 ⟨_, parts, read⟩
    rw [ran]
    exact ⟨_, rfl, within, rfl⟩

end LdapWire
