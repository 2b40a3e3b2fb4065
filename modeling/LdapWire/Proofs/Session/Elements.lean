import LdapWire.Proofs.Reading.Basic
import LdapWire.Proofs.Session.Octet

/-!
# Single elements

What a machine does with one element is told by a few equations: the element is
charged to the one around it, its tag is looked up, and then the actions of the
grammar are all that may fail. Where no element is under way, the open ones that
are complete end before more input is read (`Machine.settle`).
-/

set_option autoImplicit false

namespace LdapWire

open Ber
open Grammar (Action Close State Transition)

theorem Ber.Tlv.value_fill (tlv : Tlv) (content : Bytes) :
    (tlv.fill content).value = tlv.value ++ content := by
  simp [Tlv.fill, Tlv.value, Tlv.advance, List.reverseAux_eq]

/-! ## Frames -/

/-- A frame that has been charged with more octets. -/
def Frame.advance (frame : Frame) (count : Nat) : Frame :=
  { frame with tlv := frame.tlv.advance count }

namespace Frame

@[simp] theorem advance_zero (frame : Frame) : frame.advance 0 = frame := rfl

theorem advance_advance (frame : Frame) (first second : Nat) :
    (frame.advance first).advance second = frame.advance (first + second) := by
  simp [advance, Tlv.advance, Nat.add_assoc]

theorem remaining_advance (frame : Frame) (count : Nat) :
    (frame.advance count).tlv.remaining = frame.tlv.remaining - count := by
  simp only [advance, Tlv.advance, Tlv.remaining]
  omega

/-- The frame of an element that has just begun. -/
def opened (tlv : Tlv) (close : Close) : Frame :=
  { tlv, resume := close.resume, atEnd := close.action }

end Frame

namespace Machine

variable {decoder : Decoder} {frame : Frame} {outer frames : List Frame} {state : State}
  {draft : Draft} {tlv : Tlv} {transition : Transition} {close : Close}

/-- Goes on after the elements that are complete have been ended. -/
def settle (decoder : Decoder) (frames : List Frame) (rest : Bytes) :
    Step Machine (Option Message × Bytes) := do
  let message ← closeFrames decoder.registry frames
  resume decoder (message, rest)

/-- An action changes the draft only. -/
theorem perform_eq (registry : Registry) (action : Option Action) (tlv : Tlv) (machine : Machine) :
    perform registry action tlv machine =
      match Draft.perform registry action tlv machine.draft with
      | .ok () draft => .ok () { machine with draft }
      | .error error draft => .error error { machine with draft } := by
  cases action <;> rfl

/-- What comes after an action, if it does not fail. -/
theorem perform_bind {α : Type} (registry : Registry) (action : Option Action) (tlv : Tlv)
    (next : Unit → Step Machine α) (machine : Machine) :
    (perform registry action tlv >>= next) machine =
      match Draft.perform registry action tlv machine.draft with
      | .ok () draft => next () { machine with draft }
      | .error error draft => .error error { machine with draft } := by
  rw [Step.bind_apply, perform_eq]
  cases Draft.perform registry action tlv machine.draft <;> rfl

/-! ## Beginning an element -/

/-- The end of a primitive element. -/
theorem finishPrimitive_eq (decoder : Decoder) (pending : Pending) (frames : List Frame)
    (state : State) (draft : Draft) (rest : Bytes) :
    (do let message ← finishPrimitive decoder.registry pending
        resume decoder (message, rest)) { frames, state, draft } =
      match Draft.perform decoder.registry pending.transition.action pending.tlv draft with
      | .ok () draft =>
          settle decoder frames rest { frames, state := pending.transition.next, draft }
      | .error error draft => .error error { frames, state, draft } := by
  rw [Step.bind_apply, finishPrimitive, Step.modify_bind, perform_bind]
  cases Draft.perform decoder.registry pending.transition.action pending.tlv draft with
  | error error after => rfl
  | ok _ after => exact (Step.bind_apply _ _ _).symm

/-- An element that would run past the end of the one around it. -/
theorem beginElement_of_overflow {machine : Machine} (stack : machine.frames = frame :: outer)
    (overflow : frame.tlv.remaining < tlv.total) :
    beginElement decoder tlv machine
      = .error (.corrupt (.overflow tlv.tag tlv.total frame.tlv.tag frame.tlv.remaining))
          machine := by
  have charged : charge decoder.limits tlv machine
      = .error (.corrupt (.overflow tlv.tag tlv.total frame.tlv.tag frame.tlv.remaining))
          machine := by
    rw [charge, stack]
    exact if_pos overflow
  exact Step.bind_of_error _ charged

/-- An element that fits is charged to the one around it. -/
theorem charge_of_le (fits : tlv.total ≤ frame.tlv.remaining) (limits : Limits) :
    charge limits tlv { frames := frame :: outer, state, draft }
      = .ok () { frames := frame.advance tlv.total :: outer, state, draft } :=
  if_neg (Nat.not_lt.2 fits)

theorem charge_outermost {limits : Limits} (fits : tlv.total ≤ limits.maxPduSize) :
    charge limits tlv { state, draft } = .ok () { state, draft } :=
  if_neg (Nat.not_lt.2 fits)

/-- An element whose tag the state knows, once it has been charged. -/
theorem beginElement_of_charged {machine charged : Machine}
    (charges : charge decoder.limits tlv machine = .ok () charged)
    (accepted : charged.state.transition? tlv.tag = some transition) :
    beginElement decoder tlv machine =
      match transition.close with
      | some close => openFrame decoder tlv transition close charged
      | none =>
          if tlv.isComplete then finishPrimitive decoder.registry { tlv, transition } charged
          else .ok none (charged.withCurrent { tlv, transition }) := by
  rw [beginElement, Step.bind_of_ok _ charges, Step.get_bind]
  simp only [accepted]
  cases transition.close with
  | some close => rfl
  | none => cases complete : tlv.isComplete <;> rfl

theorem beginElement_of_unexpected {machine charged : Machine}
    (charges : charge decoder.limits tlv machine = .ok () charged)
    (unexpected : charged.state.transition? tlv.tag = none) :
    beginElement decoder tlv machine
      = .error (.unexpectedTag charged.state tlv.tag) charged := by
  rw [beginElement, Step.bind_of_ok _ charges, Step.get_bind]
  simp only [unexpected]
  rfl

/-- **A primitive element** that the state accepts, from its header on. -/
theorem beginElement_primitive {machine : Machine} {content : Bytes} (unread : tlv.consumed = 0)
    (size : content.length = tlv.length)
    (charges : charge decoder.limits tlv machine = .ok () { frames, state, draft })
    (accepted : state.transition? tlv.tag = some transition) (plain : transition.close = none)
    (rest : Bytes) :
    (do let message ← beginElement decoder tlv
        resume decoder (message, content ++ rest)) machine =
      match Draft.perform decoder.registry transition.action (tlv.fill content) draft with
      | .ok () draft =>
          settle decoder frames rest { frames, state := transition.next, draft }
      | .error error draft => .error error { frames, state, draft } := by
  have begun := beginElement_of_charged charges accepted
  simp only [plain] at begun
  by_cases empty : tlv.length = 0
  · have nothing : content = [] := List.length_eq_zero_iff.1 (size.trans empty)
    have complete : tlv.isComplete = true := Tlv.isComplete_iff.2 (unread.trans empty.symm)
    rw [if_pos complete] at begun
    rw [Step.bind_apply, begun, ← Step.bind_apply, nothing, List.nil_append,
      finishPrimitive_eq, Tlv.fill_nil]
  · have incomplete : ¬ tlv.isComplete = true := fun complete =>
      empty ((Tlv.isComplete_iff.1 complete).symm.trans unread)
    rw [if_neg incomplete] at begun
    have nonempty : content ≠ [] := by
      rintro rfl
      exact empty size.symm
    have enough : tlv.consumed + content.length = tlv.length := by
      rw [unread, size, Nat.zero_add]
    rw [Step.bind_of_ok _ begun]
    change run decoder (content ++ rest)
      (withCurrent { frames, state, draft } { tlv, transition }) = _
    rw [run_of_enough decoder rest nonempty enough rfl, Step.bind_apply,
      finishPrimitive_withCurrent, ← Step.bind_apply, finishPrimitive_eq]
    rfl

/-- **A constructed element** that the state accepts, from its header on. -/
theorem beginElement_constructed {machine : Machine}
    (charges : charge decoder.limits tlv machine = .ok () { frames, state, draft })
    (accepted : state.transition? tlv.tag = some transition)
    (closing : transition.close = some close)
    (shallow : frames.length < decoder.limits.maxDepth) (rest : Bytes) :
    (do let message ← beginElement decoder tlv
        resume decoder (message, rest)) machine =
      match Draft.perform decoder.registry transition.action tlv draft with
      | .ok () draft =>
          settle decoder (.opened tlv close :: frames) rest
            { frames := .opened tlv close :: frames, state := transition.next, draft }
      | .error error draft => .error error { frames, state, draft } := by
  have room : ¬ decoder.limits.maxDepth ≤ ({ frames, state, draft } : Machine).depth :=
    Nat.not_le.2 shallow
  have begun := beginElement_of_charged charges accepted
  simp only [closing, openFrame, Step.get_bind, if_neg room] at begun
  rw [Step.bind_apply, begun, perform_bind]
  cases Draft.perform decoder.registry transition.action tlv draft with
  | error error after => rfl
  | ok _ after => exact (Step.bind_apply _ _ _).symm

theorem beginElement_of_deep {machine : Machine}
    (charges : charge decoder.limits tlv machine = .ok () { frames, state, draft })
    (accepted : state.transition? tlv.tag = some transition)
    (closing : transition.close = some close)
    (deep : decoder.limits.maxDepth ≤ frames.length) :
    ∃ error, beginElement decoder tlv machine = .error error { frames, state, draft } := by
  have begun := beginElement_of_charged charges accepted
  have full : decoder.limits.maxDepth ≤ ({ frames, state, draft } : Machine).depth := deep
  simp only [closing, openFrame, Step.get_bind, if_pos full] at begun
  exact ⟨_, begun⟩

/-! ## Ending elements -/

theorem closeFrames_of_incomplete (registry : Registry) {machine : Machine} (outer : List Frame)
    (incomplete : frame.tlv.isComplete = false) :
    closeFrames registry (frame :: outer) machine = .ok none machine := by
  unfold closeFrames
  simp only [incomplete, Bool.not_false, if_true]
  rfl

theorem closeFrames_of_complete (registry : Registry) {machine : Machine} (outer : List Frame)
    (complete : frame.tlv.isComplete = true) :
    closeFrames registry (frame :: outer) machine
      = (do closeFrame registry frame
            match outer with
            | [] => return some (← deliver)
            | _ :: _ => closeFrames registry outer) { machine with frames := outer } := by
  have ended : ¬ (!frame.tlv.isComplete) = true := by simp [complete]
  rw [closeFrames.eq_def]
  exact congrFun (if_neg ended) machine

/-- An element that lacks content does not end. -/
theorem settle_of_lacking (lacking : 0 < frame.tlv.remaining) (rest : Bytes) (machine : Machine) :
    settle decoder (frame :: outer) rest machine = run decoder rest machine := by
  have incomplete : frame.tlv.isComplete = false := by
    unfold Tlv.remaining at lacking
    exact Tlv.isComplete_eq_false_iff.2 (by omega)
  rw [settle, Step.bind_of_ok _ (closeFrames_of_incomplete decoder.registry outer incomplete)]
  rfl

/-- Goes on behind an element that has ended: with the elements around it, or with
the message if there are none. -/
def leave (decoder : Decoder) (outer : List Frame) (rest : Bytes) :
    Step Machine (Option Message × Bytes) :=
  match outer with
  | [] => do return (some (← deliver), rest)
  | _ :: _ => settle decoder outer rest

/-- **A complete element** ends where the state allows it. -/
theorem settle_of_complete (complete : frame.tlv.isComplete = true) (rest : Bytes) :
    settle decoder (frame :: outer) rest { frames := frame :: outer, state, draft } =
      if state.canEnd then
        match Draft.perform decoder.registry frame.atEnd frame.tlv draft with
        | .ok () draft =>
            leave decoder outer rest { frames := outer, state := frame.resume, draft }
        | .error error draft => .error error { frames := outer, state, draft }
      else .error (.violation (.endedEarly frame.tlv.tag state))
        { frames := outer, state, draft } := by
  rw [settle, Step.bind_apply, closeFrames_of_complete decoder.registry outer complete,
    Step.bind_apply, closeFrame, Step.get_bind]
  cases canEnd : state.canEnd with
  | false => rfl
  | true =>
      simp only [Bool.not_true, Bool.false_eq_true, if_false, if_true, perform_bind]
      cases Draft.perform decoder.registry frame.atEnd frame.tlv draft with
      | error error after => rfl
      | ok _ after =>
          cases outer with
          | nil =>
              simp only [leave, Step.modify_apply, Step.bind_apply, deliver]
              cases Draft.toMessage after <;> rfl
          | cons next outer =>
              simp only [leave, settle, Step.modify_apply, Step.bind_apply]

theorem settle_of_ended {after : Draft} (complete : frame.tlv.isComplete = true)
    (canEnd : state.canEnd = true)
    (ends : Draft.perform decoder.registry frame.atEnd frame.tlv draft = .ok () after)
    (rest : Bytes) :
    settle decoder (frame :: outer) rest { frames := frame :: outer, state, draft }
      = leave decoder outer rest { frames := outer, state := frame.resume, draft := after } := by
  rw [settle_of_complete complete, if_pos canEnd, ends]

theorem settle_of_failed {error : CodecError} {after : Draft}
    (complete : frame.tlv.isComplete = true) (canEnd : state.canEnd = true)
    (fails : Draft.perform decoder.registry frame.atEnd frame.tlv draft = .error error after)
    (rest : Bytes) :
    settle decoder (frame :: outer) rest { frames := frame :: outer, state, draft }
      = .error error { frames := outer, state, draft := after } := by
  rw [settle_of_complete complete, if_pos canEnd, fails]

/-- Behind the outermost element there is the message. -/
theorem leave_outermost {message : Message} (made : draft.toMessage = .ok message)
    (rest : Bytes) :
    leave decoder [] rest { state, draft } = .ok (some message, rest) { state } := by
  simp only [leave, Step.bind_apply, deliver, made]
  rfl

end Machine

end LdapWire
