import LdapWire.Proofs.Draft.Plain
import LdapWire.Proofs.Session.Octet

/-!
# Reading with another registry

The empty registry keeps the octets of controls and refuses those that are critical. So a
message that has been read with it still tells what any other registry makes of its
controls, or which of them is refused first (`Registry.rereadMessage`). A machine with the
other registry that reads the octets of the message comes to just that
(`Machine.outcome_of_run_empty`): only the end of a control asks the registry, and no step
looks at the controls that are finished.
-/

set_option autoImplicit false

namespace LdapWire

open Ber (Header Tlv)
open Grammar (Action Transition)

/-! ## Controls of another registry -/

namespace Registry

/-- What a registry makes of controls one after another. -/
def rereadAll (registry : Registry) (controls : List Control) : Codec (List Control) :=
  controls.mapM registry.reread

/-- What a registry makes of a message that is sent to it. -/
def rereadMessage (registry : Registry) (message : Message) : Codec Message := do
  return { message with controls := ← registry.rereadAll message.controls }

theorem rereadAll_append (registry : Registry) (controls : List Control) (control : Control) :
    registry.rereadAll (controls ++ [control]) = (do
      let finished ← registry.rereadAll controls
      return finished ++ [← registry.reread control]) := by
  simp [rereadAll, List.mapM_append]

/-- The empty registry makes controls that tell all that was received. -/
theorem reread_of_empty {oid : String} {critical : Bool} {value : Option Bytes} {control : Control}
    (kept : empty.readControl oid critical value = .ok control) (registry : Registry) :
    registry.reread control = registry.readControl oid critical value := by
  change (if critical then _ else _) = _ at kept
  split at kept <;> cases kept
  cases value <;> rfl

end Registry

/-! ## Machines with another registry -/

namespace Machine

variable {registry : Registry} {α β : Type}

/-- The machine with other finished controls. -/
def withControls (machine : Machine) (controls : List Control) : Machine :=
  { machine with draft := { machine.draft with controls } }

/-- The machine with what a registry makes of the finished controls. -/
def reread (registry : Registry) (machine : Machine) : Codec Machine := do
  return machine.withControls (← registry.rereadAll machine.draft.controls)

/-- Whether a step comes to what a registry makes of the result of another step, which
has been taken with the empty registry. The controls in the result itself are made anew as
`view` says. -/
def Rereads (registry : Registry) (view : α → Codec α) (first second : Step Machine α) : Prop :=
  ∀ before value after, first before = .ok value after →
    (do second.outcome (← before.reread registry)) =
      (do return (← view value, ← after.reread registry))

namespace Rereads

variable {view : α → Codec α} {first second : Step Machine α}

theorem throw (error : CodecError) : Rereads registry view (MonadExcept.throw error) second :=
  fun _ _ _ ran => by cases ran

theorem throw_bind (error : CodecError) (next : β → Step Machine α) :
    Rereads registry view (MonadExcept.throw error >>= next) second :=
  fun _ _ _ ran => by cases ran

/-- One step after another. The second one may go on from a result with controls. -/
theorem chain {next other : α → Step Machine β} {later : β → Codec β}
    (start : Rereads registry view first second)
    (further : ∀ value middle result after, next value middle = .ok result after →
      (do (other (← view value)).outcome (← middle.reread registry)) =
        (do return (← later result, ← after.reread registry))) :
    Rereads registry later (first >>= next) (second >>= other) := by
  intro before result after ran
  obtain ⟨value, middle, begun, ended⟩ := Step.exists_of_bind_eq_ok ran
  calc (do (second >>= other).outcome (← before.reread registry))
    _ = (do
          let reached ← (do second.outcome (← before.reread registry))
          (other reached.1).outcome reached.2) := by
      simp only [Step.outcome_bind, bind_assoc]
    _ = (do (other (← view value)).outcome (← middle.reread registry)) := by
      rw [start _ _ _ begun]
      simp only [bind_assoc, pure_bind]
    _ = (do return (← later result, ← after.reread registry)) := further _ _ _ _ ended

theorem bind {next other : α → Step Machine β} {later : β → Codec β}
    (start : Rereads registry pure first second)
    (further : ∀ value, Rereads registry later (next value) (other value)) :
    Rereads registry later (first >>= next) (second >>= other) :=
  start.chain fun value middle result after ended => by
    simpa only [pure_bind] using further value middle result after ended

/-- The state is looked at, but not its finished controls. Where these cannot be read again there
is no other machine, and it does not matter which one the rest would be told of. -/
theorem get_bind {next other : Machine → Step Machine α}
    (further : ∀ machine controls,
      Rereads registry view (next machine) (other (machine.withControls controls))) :
    Rereads registry view (get >>= next) (get >>= other) := by
  intro before value after ran
  cases made : registry.rereadAll before.draft.controls with
  | error error =>
      have same := further before [] before value after ran
      rw [reread, made] at same ⊢
      exact same
  | ok controls =>
      have same := further before controls before value after ran
      rw [reread, made] at same ⊢
      exact same

/-- A step that does not look at the finished controls leaves them alone. -/
theorem of_commutes (commutes : ∀ controls, first.Commutes (withControls · controls)) :
    Rereads registry pure first first := by
  intro before value after ran
  have same : after = after.withControls before.draft.controls := by
    have again := commutes before.draft.controls before
    rw [ran] at again
    exact (EStateM.Result.ok.inj (ran.symm.trans again)).2
  have controls : after.draft.controls = before.draft.controls := congrArg (·.draft.controls) same
  rw [reread, reread, controls]
  cases registry.rereadAll before.draft.controls with
  | error error => rfl
  | ok made =>
      have alike := commutes made before
      rw [ran] at alike
      change first.outcome (before.withControls made) = _
      rw [Step.outcome, alike]
      rfl

theorem modify (change : Machine → Machine)
    (blind : ∀ machine controls,
      change (machine.withControls controls) = (change machine).withControls controls) :
    Rereads registry pure (modify change) (modify change) :=
  of_commutes fun controls machine => congrArg (EStateM.Result.ok ()) (blind machine controls)

end Rereads

/-! ## Actions -/

/-- The end of a control asks the registry. -/
theorem rereads_finishControl (registry : Registry) (tlv : Tlv) :
    Rereads registry pure (perform .empty (some .finishControl) tlv)
      (perform registry (some .finishControl) tlv) := by
  intro before _ after ran
  cases underWay : before.draft.openControl with
  | none =>
      simp only [perform, Draft.act, Draft.finishControl, underWay] at ran
      cases ran
  | some fields =>
      have ends (registry : Registry) (finished : List Control) :
          (perform registry (some .finishControl) tlv).outcome (before.withControls finished) = (do
            let control ← registry.readControl fields.oid fields.critical fields.value
            return ((), { before with
              draft := { before.draft with
                controls := finished ++ [control]
                openControl := none } })) := by
        simp only [Step.outcome, perform, Draft.act, Draft.finishControl, withControls, underWay]
        cases registry.readControl fields.oid fields.critical fields.value <;> rfl
      have asked := ends .empty before.draft.controls
      change Step.outcome _ before = _ at asked
      rw [Step.outcome, ran] at asked
      cases kept : Registry.empty.readControl fields.oid fields.critical fields.value with
      | error error =>
          rw [kept] at asked
          cases asked
      | ok control =>
          rw [kept] at asked
          cases asked
          simp only [reread, Registry.rereadAll_append, Registry.reread_of_empty kept, bind_assoc,
            pure_bind, ends]
          rfl

theorem rereads_perform (registry : Registry) (action : Option Action) (tlv : Tlv) :
    Rereads registry pure (perform .empty action tlv) (perform registry action tlv) := by
  cases action with
  | none => exact .of_commutes fun _ => .pure ()
  | some action =>
      by_cases last : action = .finishControl
      · subst last
        exact rereads_finishControl registry tlv
      · have same : perform registry (some action) tlv = perform .empty (some action) tlv := by
          simp only [perform, Draft.act_registry registry .empty last]
          rfl
        rw [same]
        refine .of_commutes fun controls machine => ?_
        have alike := Draft.blind_act .empty last tlv (fun _ => controls) machine.draft
        change Draft.act .empty action tlv (machine.withControls controls).draft = _ at alike
        simp only [perform, alike]
        cases Draft.act .empty action tlv machine.draft <;> rfl

/-! ## Elements -/

theorem rereads_closeFrame (registry : Registry) (frame : Frame) :
    Rereads registry pure (closeFrame .empty frame) (closeFrame registry frame) := by
  refine .get_bind fun machine controls => ?_
  change Rereads registry pure _ (if !machine.state.canEnd then _ else _)
  dsimp only
  split
  · exact .throw_bind _ _
  · exact .bind (rereads_perform registry frame.atEnd frame.tlv)
      fun _ => .modify _ fun _ _ => rfl

/-- A finished message tells what another registry makes of it. -/
theorem rereads_deliver (registry : Registry) :
    Rereads registry registry.rereadMessage deliver deliver := by
  intro before message after delivered
  obtain ⟨header, current, frames, state, draft⟩ := before
  obtain ⟨id, operation, controls, openControl, openAttribute, changeKind, filter⟩ := draft
  cases id with
  | none => cases delivered
  | some id =>
      cases operation with
      | none => cases delivered
      | some operation =>
          cases delivered
          simp only [reread, Registry.rereadMessage]
          cases registry.rereadAll controls <;> rfl

theorem rereads_waiting (registry : Registry) :
    Rereads registry (Option.mapM registry.rereadMessage) (pure none) (pure none) := by
  intro before _ after ran
  cases ran
  exact (Rereads.of_commutes fun _ => .pure (none : Option Message)) _ _ _ rfl

theorem rereads_closeFrames (registry : Registry) (frames : List Frame) :
    Rereads registry (Option.mapM registry.rereadMessage) (closeFrames .empty frames)
      (closeFrames registry frames) := by
  induction frames with
  | nil => exact rereads_waiting registry
  | cons frame outer further =>
      rw [closeFrames.eq_def, closeFrames.eq_def]
      dsimp only
      split
      · exact rereads_waiting registry
      · refine .bind (.modify _ fun _ _ => rfl) fun _ =>
          .bind (rereads_closeFrame registry frame) fun _ => ?_
        cases outer with
        | nil =>
            refine (rereads_deliver registry).chain fun message middle ready after returned => ?_
            cases returned
            simp
        | cons next outer => exact further

theorem rereads_finishPrimitive (registry : Registry) (pending : Pending) :
    Rereads registry (Option.mapM registry.rereadMessage) (finishPrimitive .empty pending)
      (finishPrimitive registry pending) :=
  .bind (.modify _ fun _ _ => rfl) fun _ =>
    .bind (rereads_perform registry _ _) fun _ =>
      .bind (.modify _ fun _ _ => rfl) fun _ =>
        .get_bind fun machine _ => rereads_closeFrames registry machine.frames

/-! ## Beginnings of elements -/

theorem rereads_charge (registry : Registry) (limits : Limits) (tlv : Tlv) :
    Rereads registry pure (charge limits tlv) (charge limits tlv) := by
  refine .of_commutes fun controls machine => ?_
  obtain ⟨header, current, frames, state, draft⟩ := machine
  cases frames with
  | nil | cons =>
      simp only [charge, withControls]
      split <;> rfl

theorem rereads_openFrame (registry : Registry) (limits : Limits) (tlv : Tlv)
    (transition : Transition) (close : Grammar.Close) :
    Rereads registry (Option.mapM registry.rereadMessage)
      (openFrame { registry := .empty, limits } tlv transition close)
      (openFrame { registry, limits } tlv transition close) := by
  refine .get_bind fun machine controls => ?_
  change Rereads registry _ _ (if limits.maxDepth ≤ machine.depth then _ else _)
  dsimp only
  split
  · exact .throw_bind _ _
  · exact .bind (rereads_perform registry _ _) fun _ =>
      .bind (.modify _ fun _ _ => rfl) fun _ =>
        .get_bind fun machine _ => rereads_closeFrames registry machine.frames

theorem rereads_beginElement (registry : Registry) (limits : Limits) (tlv : Tlv) :
    Rereads registry (Option.mapM registry.rereadMessage)
      (beginElement { registry := .empty, limits } tlv)
      (beginElement { registry, limits } tlv) := by
  refine .bind (rereads_charge registry limits tlv) fun _ => .get_bind fun machine controls => ?_
  have same : (machine.withControls controls).state = machine.state := rfl
  dsimp only
  rw [same]
  cases machine.state.transition? tlv.tag with
  | none => exact .throw _
  | some transition =>
      dsimp only
      cases transition.close with
      | some close => exact rereads_openFrame registry limits tlv transition close
      | none =>
          dsimp only
          split
          · exact rereads_finishPrimitive registry _
          · exact .bind (.modify _ fun _ _ => rfl) fun _ => rereads_waiting registry

/-! ## Octets -/

theorem rereads_takeHeaderOctet (registry : Registry) (limits : Limits) (octet : UInt8) :
    Rereads registry (Option.mapM registry.rereadMessage)
      (takeHeaderOctet { registry := .empty, limits } octet)
      (takeHeaderOctet { registry, limits } octet) := by
  have pushes : Rereads registry pure (pushHeader octet) (pushHeader octet) := by
    refine .of_commutes fun controls machine => ?_
    simp only [pushHeader, withControls]
    cases Header.push octet machine.header <;> rfl
  refine .bind pushes fun announced => ?_
  cases announced with
  | none => exact rereads_waiting registry
  | some tlv => exact rereads_beginElement registry limits tlv

/-- A machine that takes an octet looks at its element under way first. -/
theorem push_eq_get_bind (decoder : Decoder) (octet : UInt8) : push decoder octet = (do
    match (← get).current with
    | none => takeHeaderOctet decoder octet
    | some pending =>
        if (pending.fill [octet]).tlv.isComplete then
          finishPrimitive decoder.registry (pending.fill [octet])
        else
          modify (withCurrent · (pending.fill [octet]))
          return none) := by
  funext machine
  rw [Step.get_bind, push]
  cases machine.current with
  | none => rfl
  | some pending =>
      dsimp only
      split <;> rfl

theorem rereads_push (registry : Registry) (limits : Limits) (octet : UInt8) :
    Rereads registry (Option.mapM registry.rereadMessage)
      (push { registry := .empty, limits } octet) (push { registry, limits } octet) := by
  rw [push_eq_get_bind, push_eq_get_bind]
  refine .get_bind fun machine controls => ?_
  have same : (machine.withControls controls).current = machine.current := rfl
  rw [same]
  cases machine.current with
  | none => exact rereads_takeHeaderOctet registry limits octet
  | some pending =>
      dsimp only
      split
      · exact rereads_finishPrimitive registry _
      · exact .bind (.modify _ fun _ _ => rfl) fun _ => rereads_waiting registry

/-- **Octets that are read with the empty registry** are read with any other one up to the
same place, and it makes the controls of the message or refuses the first that it does not
accept. -/
theorem rereads_run (registry : Registry) (limits : Limits) (input : Bytes) :
    Rereads registry (fun result => do return (← result.1.mapM registry.rereadMessage, result.2))
      (run { registry := .empty, limits } input) (run { registry, limits } input) := by
  induction input with
  | nil =>
      intro before result after ran
      cases ran
      exact (Rereads.of_commutes fun _ => .pure (none, [])) _ _ _ rfl
  | cons octet rest further =>
      rw [run_cons, run_cons]
      refine (rereads_push registry limits octet).chain fun ready middle result after ended => ?_
      cases ready with
      | none => simpa [resume] using further _ _ _ ended
      | some message =>
          cases ended
          simp [resume]

/-- What a fresh machine with the empty registry returns tells what one with another
registry comes to. -/
theorem outcome_of_run_empty {limits : Limits} {octets left : Bytes} {message : Message}
    (ran : run { registry := .empty, limits } octets {} = .ok (some message, left) {})
    (registry : Registry) :
    (run { registry, limits } octets).outcome {}
      = (do return ((some (← registry.rereadMessage message), left), {})) := by
  have fresh : reread registry {} = pure {} := rfl
  have same := rereads_run registry limits octets _ _ _ ran
  simpa [fresh] using same

end Machine

end LdapWire
