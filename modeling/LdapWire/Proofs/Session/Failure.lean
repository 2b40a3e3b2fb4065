import LdapWire.Proofs.Draft.Plain
import LdapWire.Proofs.Session.Elements

/-!
# Errors of a machine

A machine that carries out the actions of the grammar refuses a value or a control, or
passes on what a registered reader has returned (`Registry.Refuses`). Where elements
begin there are the errors of headers, of nesting and of the limits as well, so a
machine that reads octets finds fault with its input, unless a reader does otherwise
(`Machine.run_failsAs`).
-/

set_option autoImplicit false

namespace LdapWire

open Ber (Header Tlv)
open CodecError (FaultsValue)
open Grammar (Action Transition)

variable {registry : Registry} {decoder : Decoder}

/-! ## Actions -/

/-- Every action refuses a value or a control, or passes on what a reader returns. -/
theorem Draft.act_refuses (registry : Registry) (action : Action) (tlv : Tlv) :
    (act registry action tlv).FailsAs registry.Refuses := by
  by_cases last : action = .finishControl
  · subst last
    intro draft error after failed
    change finishControl registry draft = _ at failed
    unfold finishControl at failed
    split at failed
    · cases failed
      exact .inl trivial
    · dsimp only at failed
      split at failed <;> cases failed
      rename_i refused
      exact registry.readControl_failsAs _ _ _ _ refused
  · exact (act_failsAs registry last tlv).mono fun _ => Registry.refuses_of_faultsValue

/-! ## Elements -/

namespace Machine

theorem perform_failsAs (registry : Registry) (action : Option Action) (tlv : Tlv) :
    (perform registry action tlv).FailsAs registry.Refuses := by
  cases action with
  | none => exact .pure ()
  | some action =>
      intro machine error after failed
      simp only [perform] at failed
      split at failed <;> cases failed
      rename_i refused
      exact Draft.act_refuses registry action tlv _ _ _ refused

theorem deliver_failsAs : deliver.FailsAs FaultsValue := by
  intro machine error after failed
  unfold deliver at failed
  split at failed <;> cases failed
  rename_i unmade
  unfold Draft.toMessage at unmade
  split at unmade <;> cases unmade <;> trivial

theorem closeFrame_failsAs (registry : Registry) (frame : Frame) :
    (closeFrame registry frame).FailsAs registry.Refuses := by
  refine .bind .get fun machine => ?_
  have ends := Step.FailsAs.bind (perform_failsAs registry frame.atEnd frame.tlv)
    fun _ => .modify fun machine => { machine with state := frame.resume }
  dsimp only
  split
  · exact .bind (.throw (.inl trivial)) fun _ => ends
  · exact ends

theorem closeFrames_failsAs (registry : Registry) (frames : List Frame) :
    (closeFrames registry frames).FailsAs registry.Refuses := by
  induction frames with
  | nil => exact .pure none
  | cons frame outer further =>
      rw [closeFrames.eq_def]
      dsimp only
      split
      · exact .pure none
      · refine .bind (.modify _) fun _ => .bind (closeFrame_failsAs registry frame) fun _ => ?_
        cases outer with
        | nil =>
            exact .bind (deliver_failsAs.mono fun _ => Registry.refuses_of_faultsValue)
              fun _ => .pure _
        | cons next outer => exact further

theorem finishPrimitive_failsAs (registry : Registry) (pending : Pending) :
    (finishPrimitive registry pending).FailsAs registry.Refuses :=
  .bind (.modify _) fun _ => .bind (perform_failsAs _ _ _) fun _ =>
    .bind (.modify _) fun _ => .bind .get fun _ => closeFrames_failsAs _ _

/-! ## The beginning of an element -/

/-- Why a machine refuses an element of which the header is known: for one of the limits,
for its tag, or for something else that it has found by then. -/
inductive Refusal (decoder : Decoder) (machine : Machine) (tlv : Tlv) : CodecError → Prop where
  | large (outermost : machine.frames = []) (large : decoder.limits.maxPduSize < tlv.total) :
      Refusal decoder machine tlv (.limitExceeded .pduSize decoder.limits.maxPduSize tlv.total)
  | deep {transition : Transition} (accepted : machine.state.transition? tlv.tag = some transition)
      (constructed : transition.close.isSome = true)
      (deep : decoder.limits.maxDepth ≤ machine.depth) :
      Refusal decoder machine tlv
        (.limitExceeded .nestingDepth decoder.limits.maxDepth (machine.depth + 1))
  | unexpected : Refusal decoder machine tlv (.unexpectedTag machine.state tlv.tag)
  | refused {error : CodecError} (refuses : decoder.registry.Refuses error) :
      Refusal decoder machine tlv error

variable {machine after : Machine} {tlv : Tlv} {transition : Transition} {error : CodecError}

theorem Refusal.rejects (refusal : Refusal decoder machine tlv error) :
    decoder.registry.Rejects error := by
  cases refusal with
  | large => exact .inl trivial
  | deep => exact .inl trivial
  | unexpected => exact .inl trivial
  | refused refuses => exact refuses.rejects

/-- An element is not charged if it does not fit. -/
theorem refusal_of_charge (failed : charge decoder.limits tlv machine = .error error after) :
    Refusal decoder machine tlv error := by
  unfold charge at failed
  split at failed
  · rename_i outermost
    split at failed <;> cases failed
    rename_i large
    exact .large outermost large
  · split at failed <;> cases failed
    exact .refused (.inl trivial)

theorem deep_or_refuses_of_openFrame {close : Grammar.Close}
    (failed : openFrame decoder tlv transition close machine = .error error after) :
    decoder.limits.maxDepth ≤ machine.depth
        ∧ error = .limitExceeded .nestingDepth decoder.limits.maxDepth (machine.depth + 1)
      ∨ decoder.registry.Refuses error := by
  have opens : Step.FailsAs decoder.registry.Refuses (do
      perform decoder.registry transition.action tlv
      modify fun machine : Machine =>
        { machine with
          state := transition.next
          frames := { tlv, resume := close.resume, atEnd := close.action } :: machine.frames }
      closeFrames decoder.registry (← get).frames) :=
    .bind (perform_failsAs _ _ _) fun _ => .bind (.modify _) fun _ => .bind .get
      fun _ => closeFrames_failsAs _ _
  rw [openFrame, Step.get_bind] at failed
  dsimp only at failed
  split at failed
  · rename_i deep
    cases failed
    exact .inl ⟨deep, rfl⟩
  · exact .inr (opens _ _ _ failed)

/-- **An element** is refused for one of these reasons. -/
theorem refusal_of_beginElement (failed : beginElement decoder tlv machine = .error error after) :
    Refusal decoder machine tlv error := by
  cases charged : charge decoder.limits tlv machine with
  | error fault middle =>
      rw [beginElement, Step.bind_of_error _ charged] at failed
      cases failed
      exact refusal_of_charge charged
  | ok _ middle =>
      obtain ⟨frames, rfl, same⟩ := exists_frames_of_charge charged
      have depth : ({ machine with frames } : Machine).depth = machine.depth := same
      cases found : machine.state.transition? tlv.tag with
      | none =>
          rw [beginElement_of_unexpected charged found] at failed
          cases failed
          exact .unexpected
      | some transition =>
          rw [beginElement_of_charged charged found] at failed
          split at failed
          · rename_i close closing
            rcases deep_or_refuses_of_openFrame failed with ⟨deep, rfl⟩ | refuses
            · rw [depth] at deep ⊢
              exact .deep found (by rw [closing]; rfl) deep
            · exact .refused refuses
          · split at failed
            · exact .refused (finishPrimitive_failsAs _ _ _ _ _ failed)
            · cases failed

/-! ## Octets -/

theorem pushHeader_failsAs (octet : UInt8) : (pushHeader octet).FailsAs FaultsValue := by
  intro machine error after failed
  unfold pushHeader at failed
  split at failed <;> cases failed
  rename_i refused
  obtain ⟨corruption, rfl⟩ := (Header.refused_of_push refused).1
  trivial

/-- **An octet** is refused for a fault of the input, or for what a reader returns. -/
theorem push_failsAs (octet : UInt8) :
    (push decoder octet).FailsAs decoder.registry.Rejects := by
  have header : (takeHeaderOctet decoder octet).FailsAs decoder.registry.Rejects := by
    refine .bind ((pushHeader_failsAs octet).mono fun _ faults =>
      (Registry.refuses_of_faultsValue faults).rejects) fun announced => ?_
    cases announced with
    | none => exact .pure none
    | some tlv => exact fun _ _ _ failed => (refusal_of_beginElement failed).rejects
  intro machine error after failed
  unfold push at failed
  split at failed
  · exact header _ _ _ failed
  · dsimp only at failed
    split at failed
    · exact (finishPrimitive_failsAs _ _ _ _ _ failed).rejects
    · cases failed

/-- **Octets one after another** are refused for a fault of the input, or for what a
reader returns. -/
theorem run_failsAs (input : Bytes) : (run decoder input).FailsAs decoder.registry.Rejects := by
  induction input with
  | nil => exact .pure _
  | cons octet rest further =>
      refine .bind (push_failsAs octet) fun message => ?_
      cases message with
      | none => exact further
      | some message => exact .pure _

end Machine

end LdapWire
