import LdapWire.Proofs.Ber.Verdict
import LdapWire.Proofs.Session.Division
import LdapWire.Proofs.Session.Failure
import LdapWire.Proofs.Session.Trail

/-!
# Errors of registered readers

A registered reader may return any error whatever, and a session passes it on. What comes from a
reader is told from the session's own errors by a registry whose readers refuse the same values,
but only ever as those of unknown controls (`Registry.masked`). Two machines with the two
registries take the same steps, up to the end of a control whose reader returns an error for its
value (`Machine.mirrors_push`). The value is then the last thing that has been read
(`ReaderRefuses`), so an error of a session is one that it also returns with the masked registry,
or it comes from the reader of the control that ends there (`Session.Reads.refused`).

With the masked registry no error looks like a fault of the decoder. So one that does comes from
the reader of that control (`Session.Reachable.fits_and_blameless`).
-/

set_option autoImplicit false

namespace LdapWire

open Ber (Header Reader Tlv)
open Grammar (Action Close State Transition)

/-! ## Masked registries -/

namespace Registry

/-- The registry with the same readers, which refuse the same values as if their controls were
not known. -/
def masked (registry : Registry) : Registry where
  entries := registry.entries.map fun entry =>
    (entry.1, fun content =>
      (entry.2 content).mapError fun _ => .unsupportedCriticalControl entry.1)

theorem reader?_masked (registry : Registry) (oid : String) :
    registry.masked.reader? oid = (registry.reader? oid).map fun reader content =>
      (reader content).mapError fun _ => .unsupportedCriticalControl oid := by
  obtain ⟨entries⟩ := registry
  simp only [masked, reader?]
  induction entries with
  | nil => rfl
  | cons entry others further =>
      rw [List.map_cons, List.lookup_cons, List.lookup_cons]
      cases same : oid == entry.1 with
      | false => exact further
      | true =>
          rw [eq_of_beq same]
          rfl

/-- A reader of a masked registry returns no other error. -/
theorem Reports.masked {registry : Registry} {error : CodecError}
    (reports : registry.masked.Reports error) : ∃ oid, error = .unsupportedCriticalControl oid := by
  obtain ⟨oid, reader, content, registered, returned⟩ := reports
  rw [reader?_masked] at registered
  obtain ⟨reader, _, rfl⟩ := Option.map_eq_some_iff.1 registered
  dsimp only at returned
  cases read : reader content with
  | ok payload =>
      rw [read] at returned
      cases returned
  | error error =>
      rw [read] at returned
      cases returned
      exact ⟨oid, rfl⟩

/-- Whether the reader for the OID of a control returns an error for its value. -/
def RefusesValue (registry : Registry) (fields : ControlDraft) (error : CodecError) : Prop :=
  ∃ reader content, registry.reader? fields.oid = some reader ∧ fields.value = some content
    ∧ reader content = .error error

/-- A control is made as the masked registry makes it, unless its reader returns an error. -/
theorem readControl_masked (registry : Registry) (fields : ControlDraft) :
    registry.readControl fields.oid fields.critical fields.value
        = registry.masked.readControl fields.oid fields.critical fields.value
      ∨ ∃ error other, registry.RefusesValue fields error
        ∧ registry.readControl fields.oid fields.critical fields.value = .error error
        ∧ registry.masked.readControl fields.oid fields.critical fields.value = .error other := by
  obtain ⟨oid, critical, value⟩ := fields
  have found := registry.reader?_masked oid
  cases registered : registry.reader? oid with
  | none =>
      rw [registered] at found
      simp only [readControl, registered, found, Option.map_none, true_or]
  | some reader =>
      rw [registered] at found
      cases value with
      | none => simp only [readControl, registered, found, Option.map_some, true_or]
      | some content =>
          cases returned : reader content with
          | ok payload =>
              left
              simp only [readControl, registered, found, Option.map_some, returned]
              rfl
          | error error =>
              refine .inr ⟨error, .unsupportedCriticalControl oid,
                ⟨reader, content, registered, rfl, returned⟩, ?_, ?_⟩
              · simp only [readControl, registered, returned]
                rfl
              · simp only [readControl, found, Option.map_some, returned]
                rfl

end Registry

/-- The decoder with the masked registry. -/
def Decoder.masked (decoder : Decoder) : Decoder :=
  { decoder with registry := decoder.registry.masked }

@[simp] theorem Decoder.limits_masked (decoder : Decoder) :
    decoder.masked.limits = decoder.limits := rfl

@[simp] theorem Decoder.registry_masked (decoder : Decoder) :
    decoder.masked.registry = decoder.registry.masked := rfl

/-! ## Steps -/

namespace Step

variable {σ α β : Type}

/-- Whether a step does in some state what another one does, or both fail and the first one does
so with an error of a kind. -/
def Mirrors (kind : CodecError → Prop) (first second : Step σ α) (before : σ) : Prop :=
  first before = second before
    ∨ ∃ error after other left, first before = .error error after
      ∧ second before = .error other left ∧ kind error

namespace Mirrors

variable {kind : CodecError → Prop} {first second : Step σ α} {before : σ}

theorem refl (step : Step σ α) (before : σ) : Mirrors kind step step before := .inl rfl

theorem bind {next other : α → Step σ β} (mirrors : Mirrors kind first second before)
    (further : ∀ value middle, first before = .ok value middle →
      Mirrors kind (next value) (other value) middle) :
    Mirrors kind (first >>= next) (second >>= other) before := by
  rcases mirrors with same | ⟨error, after, masked, left, failed, refused, such⟩
  · cases ran : first before with
    | ok value middle =>
        rw [ran] at same
        rcases further value middle ran with alike | ⟨error, after, masked, left, failures⟩
        · left
          rw [bind_of_ok _ ran, bind_of_ok _ same.symm, alike]
        · right
          refine ⟨error, after, masked, left, ?_⟩
          rwa [bind_of_ok _ ran, bind_of_ok _ same.symm]
    | error error middle =>
        rw [ran] at same
        left
        rw [bind_of_error _ ran, bind_of_error _ same.symm]
  · exact .inr ⟨error, after, masked, left, bind_of_error _ failed, bind_of_error _ refused, such⟩

/-- Where one of them succeeds the other one does the same. -/
theorem ok_iff (mirrors : Mirrors kind first second before) {value : α} {after : σ} :
    first before = .ok value after ↔ second before = .ok value after := by
  rcases mirrors with same | ⟨_, _, _, _, failed, refused, _⟩
  · rw [same]
  · rw [failed, refused]
    exact iff_of_false (fun ran => by cases ran) (fun ran => by cases ran)

theorem error {error : CodecError} {after : σ} (mirrors : Mirrors kind first second before)
    (failed : first before = .error error after) :
    kind error ∨ second before = .error error after := by
  rcases mirrors with same | ⟨other, left, _, _, refused, _, such⟩
  · exact .inr (same.symm.trans failed)
  · cases refused.symm.trans failed
    exact .inl such

end Mirrors

end Step

/-! ## Controls in a draft -/

namespace Draft

variable {registry : Registry} {kind : CodecError → Prop} {action : Action} {tlv : Tlv}
  {draft after : Draft} {fields : ControlDraft}

/-- Whether the open control of a draft has no value yet, if there is one. -/
def Unvalued (draft : Draft) : Prop := ∀ fields ∈ draft.openControl, fields.value = none

/-- Whether every error that the reader of the open control returns for its value is of a
kind. -/
def ReportsAs (registry : Registry) (kind : CodecError → Prop) (draft : Draft) : Prop :=
  ∀ fields error, draft.openControl = some fields → registry.RefusesValue fields error → kind error

/-- Without a value there is nothing that a reader could return an error for. -/
theorem Unvalued.reportsAs (unvalued : draft.Unvalued) : draft.ReportsAs registry kind := by
  rintro fields error opened ⟨_, content, _, valued, _⟩
  cases (unvalued fields opened).symm.trans valued

theorem mirrors_finishControl (reports : draft.ReportsAs registry kind) :
    Step.Mirrors kind (finishControl registry) (finishControl registry.masked) draft := by
  cases opened : draft.openControl with
  | none =>
      left
      simp only [finishControl, opened]
  | some fields =>
      rcases registry.readControl_masked fields with same | ⟨error, other, refuses, failed, refused⟩
      · left
        simp only [finishControl, opened, same]
      · right
        simp only [finishControl, opened, failed, refused]
        exact ⟨_, _, _, _, rfl, rfl, reports fields error opened refuses⟩

theorem mirrors_perform {action : Option Action}
    (reports : action = some .finishControl → draft.ReportsAs registry kind) (tlv : Tlv) :
    Step.Mirrors kind (perform registry action tlv) (perform registry.masked action tlv) draft := by
  cases action with
  | none => exact .refl _ _
  | some action =>
      by_cases last : action = .finishControl
      · subst last
        exact mirrors_finishControl (reports rfl)
      · left
        exact congrFun (act_registry registry registry.masked last tlv) draft

/-- What an action makes of the open control, if it does not finish it: only one action sets a
value, and it sets the value that it has read. -/
theorem openControl_of_act (unfinished : action ≠ .finishControl) (unvalued : draft.Unvalued)
    (acted : act registry action tlv draft = .ok () after) :
    after.Unvalued ∨ action = .setControlValue ∧ ∃ fields, draft.openControl = some fields
      ∧ after.openControl = some { fields with value := some tlv.value } := by
  have updated {change : ControlDraft → ControlDraft}
      (ran : updateControl change draft = .ok () after)
      (keeps : ∀ fields, (change fields).value = fields.value) : after.Unvalued := by
    unfold updateControl at ran
    split at ran <;> cases ran
    rename_i fields opened
    rintro _ ⟨⟩
    exact (keeps fields).trans (unvalued fields opened)
  cases onControls : action.isOnControls with
  | false =>
      left
      have same := ((plain_act registry onControls tlv).sameControls acted).2
      rwa [Unvalued, same]
  | true =>
      cases action with
      | startControl =>
          cases acted
          left
          rintro _ ⟨⟩
          rfl
      | setControlType =>
          obtain ⟨oid, middle, read, ran⟩ := Step.exists_of_bind_eq_ok acted
          obtain ⟨_, rfl⟩ := Step.lift_eq_ok read
          exact .inl (updated ran fun _ => rfl)
      | setControlCriticality =>
          obtain ⟨critical, middle, read, ran⟩ := Step.exists_of_bind_eq_ok acted
          obtain ⟨_, rfl⟩ := Step.lift_eq_ok read
          exact .inl (updated ran fun _ => rfl)
      | setControlValue =>
          change updateControl _ draft = _ at acted
          unfold updateControl at acted
          split at acted <;> cases acted
          rename_i fields opened
          exact .inr ⟨rfl, fields, opened, rfl⟩
      | finishControl => exact absurd rfl unfinished
      | _ => cases onControls

/-- After an action that does not finish the control, a reader has something to return an error
for only if it is the value that has just been read. -/
theorem reportsAs_of_perform {action : Option Action} (unfinished : action ≠ some .finishControl)
    (unvalued : draft.Unvalued)
    (last : action = some .setControlValue → ∀ fields error, draft.openControl = some fields →
      registry.RefusesValue { fields with value := some tlv.value } error → kind error)
    (performed : perform registry action tlv draft = .ok () after) :
    after.ReportsAs registry kind := by
  cases action with
  | none =>
      cases performed
      exact unvalued.reportsAs
  | some action =>
      have other : action ≠ .finishControl := fun same => unfinished (congrArg some same)
      rcases openControl_of_act other unvalued performed with
        unvalued | ⟨rfl, fields, opened, changed⟩
      · exact unvalued.reportsAs
      · intro valued error found refuses
        obtain rfl := Option.some.inj (changed.symm.trans found)
        exact last rfl fields error opened refuses

end Draft

/-! ## Rules about controls -/

namespace Grammar.State

/-- The actions on controls and where they stand: a control is started where its element begins
and finished where it ends, and the rest is done by primitive elements, of which an octet string
holds the value. -/
theorem rules_onControls (state : State) :
    (state.rules.all fun rule =>
      (rule.transition.action != some .finishControl)
        && (rule.transition.action != some .setControlValue || rule.tag == Ber.Tag.octetString
          && rule.transition.close.isNone)
        && rule.transition.close.all fun close =>
          close.action.all fun action =>
            !action.isOnControls || action == .finishControl) = true := by
  cases state <;> first | rfl | (rename_i flavor; cases flavor <;> rfl)

variable {state : State} {tag : UInt8} {transition : Transition}

theorem unfinished_of_transition? (accepted : state.transition? tag = some transition) :
    transition.action ≠ some .finishControl := by
  obtain ⟨rule, listed, _, rfl⟩ := exists_rule_of_transition? accepted
  have checked := List.all_eq_true.1 state.rules_onControls rule listed
  simp only [Bool.and_eq_true, bne_iff_ne] at checked
  exact checked.1.1

theorem octetString_of_transition? (accepted : state.transition? tag = some transition)
    (sets : transition.action = some .setControlValue) :
    tag = Ber.Tag.octetString ∧ transition.close = none := by
  obtain ⟨rule, listed, rfl, rfl⟩ := exists_rule_of_transition? accepted
  have checked := List.all_eq_true.1 state.rules_onControls rule listed
  simp only [Bool.and_eq_true, Bool.or_eq_true, bne_iff_ne, beq_iff_eq,
    Option.isNone_iff_eq_none] at checked
  exact checked.1.2.resolve_left (not_not_intro sets)

end Grammar.State

/-- An element that a rule ends has no action at its end that is on controls, unless that
finishes one. -/
theorem Grammar.Close.Listed.offControls {close : Close} (listed : close.Listed) :
    ∀ action ∈ close.action, action.isOnControls = false ∨ action = .finishControl := by
  obtain ⟨state, rule, listed, closing⟩ := listed
  have checked := List.all_eq_true.1 state.rules_onControls rule listed
  intro action found
  have found : close.action = some action := found
  have placed := (Bool.and_eq_true_iff.1 checked).2
  rw [closing, Option.all_some, found, Option.all_some] at placed
  simpa using placed

/-! ## The machine -/

theorem Tracks.listed {decoder : Decoder} {octets charged read : Nat} {frames : List Frame}
    {elements : List OpenElement} (tracks : Tracks decoder octets charged read frames elements) :
    ∀ frame ∈ frames, frame.close.Listed := by
  induction tracks with
  | outermost => exact fun _ among => absurd among List.not_mem_nil
  | inside holds _ _ others => exact List.forall_mem_cons.2 ⟨holds.listed, others⟩

namespace Machine

variable {registry : Registry} {decoder : Decoder} {kind : CodecError → Prop}
  {machine after : Machine} {octet : UInt8} {octets : Bytes}

theorem mirrors_perform {action : Option Action}
    (reports : action = some .finishControl → machine.draft.ReportsAs registry kind) (tlv : Tlv) :
    Step.Mirrors kind (perform registry action tlv) (perform registry.masked action tlv)
      machine := by
  rcases Draft.mirrors_perform reports tlv with
    same | ⟨error, left, other, _, failed, refused, such⟩
  · left
    rw [perform_eq, perform_eq, same]
  · right
    rw [perform_eq, perform_eq, failed, refused]
    exact ⟨_, _, _, _, rfl, rfl, such⟩

theorem mirrors_closeFrame (frame : Frame) (reports : machine.draft.ReportsAs registry kind) :
    Step.Mirrors kind (closeFrame registry frame) (closeFrame registry.masked frame) machine := by
  rw [closeFrame, closeFrame]
  apply Step.Mirrors.bind (.refl _ _)
  intro _ _ got
  cases got
  dsimp only
  split
  · exact .refl _ _
  · exact .bind (mirrors_perform (fun _ => reports) frame.tlv) fun _ _ _ => .refl _ _

/-- The end of an element sets no field of a control. -/
theorem openControl_of_closeFrame {frame : Frame} (listed : frame.close.Listed)
    (closed : closeFrame registry frame machine = .ok () after) :
    after.draft.openControl = machine.draft.openControl ∨ after.draft.openControl = none := by
  rw [closeFrame, Step.get_bind] at closed
  split at closed
  · cases closed
  · obtain ⟨_, middle, performed, resumed⟩ := Step.exists_of_bind_eq_ok closed
    cases resumed
    rw [perform_eq] at performed
    split at performed <;> cases performed
    rename_i draft acted
    have harmless := listed.offControls
    cases ends : frame.atEnd with
    | none =>
        rw [ends] at acted
        cases acted
        exact .inl rfl
    | some action =>
        rw [ends] at acted
        rcases harmless action ends with other | rfl
        · exact .inl ((Draft.plain_act registry other frame.tlv).sameControls acted).2
        · right
          change Draft.finishControl registry _ = _ at acted
          unfold Draft.finishControl at acted
          split at acted
          · cases acted
          · dsimp only at acted
            split at acted <;> cases acted
            rfl

/-- Ending elements may finish the open control, and no other one. -/
theorem mirrors_closeFrames {frames : List Frame} (listed : ∀ frame ∈ frames, frame.close.Listed)
    (reports : (∃ frame ∈ frames.head?, frame.tlv.isComplete = true) →
      machine.draft.ReportsAs registry kind) :
    Step.Mirrors kind (closeFrames registry frames) (closeFrames registry.masked frames)
      machine := by
  induction frames generalizing machine with
  | nil => exact .refl _ _
  | cons frame outer further =>
      obtain ⟨first, others⟩ := List.forall_mem_cons.1 listed
      cases complete : frame.tlv.isComplete with
      | false =>
          left
          rw [closeFrames_of_incomplete registry outer complete,
            closeFrames_of_incomplete registry.masked outer complete]
      | true =>
          specialize reports ⟨frame, rfl, complete⟩
          rw [Step.Mirrors, closeFrames_of_complete registry outer complete,
            closeFrames_of_complete registry.masked outer complete, ← Step.Mirrors]
          refine .bind (mirrors_closeFrame frame reports) ?_
          intro _ middle closed
          cases outer with
          | nil => exact .refl _ _
          | cons next outer =>
              apply further others
              intro _ fields error opened
              rcases openControl_of_closeFrame first closed with same | none
              · exact reports fields error (same.symm.trans opened)
              · cases none.symm.trans opened

/-- A primitive element is ended alike, unless it holds the value of a control for which the
reader returns an error. -/
theorem mirrors_finishPrimitive {pending : Pending}
    (listed : ∀ frame ∈ machine.frames, frame.close.Listed)
    (unfinished : pending.transition.action ≠ some .finishControl)
    (unvalued : machine.draft.Unvalued)
    (last : (∃ frame ∈ machine.frames.head?, frame.tlv.isComplete = true) →
      pending.transition.action = some .setControlValue → ∀ fields error,
        machine.draft.openControl = some fields →
          registry.RefusesValue { fields with value := some pending.tlv.value } error →
            kind error) :
    Step.Mirrors kind (finishPrimitive registry pending) (finishPrimitive registry.masked pending)
      machine := by
  rw [finishPrimitive, finishPrimitive]
  apply Step.Mirrors.bind (.refl _ _)
  intro _ _ freed
  cases freed
  refine .bind (mirrors_perform (fun ends => absurd ends unfinished) pending.tlv) ?_
  intro _ middle performed
  rw [perform_eq] at performed
  split at performed <;> cases performed
  rename_i draft acted
  apply Step.Mirrors.bind (.refl _ _)
  intro _ _ moved
  cases moved
  apply Step.Mirrors.bind (.refl _ _)
  intro _ _ got
  cases got
  exact mirrors_closeFrames listed fun ends =>
    Draft.reportsAs_of_perform unfinished unvalued (last ends) acted

/-- A constructed element begins alike: no value has been read. -/
theorem mirrors_openFrame {tlv : Tlv} {transition : Transition} {close : Close}
    (listed : ∀ frame ∈ machine.frames, frame.close.Listed) (closes : close.Listed)
    (unfinished : transition.action ≠ some .finishControl)
    (valueless : transition.action ≠ some .setControlValue) (unvalued : machine.draft.Unvalued) :
    Step.Mirrors kind (openFrame decoder tlv transition close)
      (openFrame decoder.masked tlv transition close) machine := by
  rw [openFrame, openFrame, Decoder.limits_masked, Decoder.registry_masked]
  apply Step.Mirrors.bind (.refl _ _)
  intro _ _ got
  cases got
  by_cases deep : decoder.limits.maxDepth ≤ machine.depth
  · simp only [if_pos deep]
    exact .inl rfl
  · simp only [if_neg deep]
    refine .bind (mirrors_perform (fun ends => absurd ends unfinished) tlv) ?_
    intro _ _ performed
    rw [perform_eq] at performed
    split at performed <;> cases performed
    rename_i draft acted
    apply Step.Mirrors.bind (.refl _ _)
    intro _ _ moved
    cases moved
    apply Step.Mirrors.bind (.refl _ _)
    intro _ _ got
    cases got
    exact mirrors_closeFrames (List.forall_mem_cons.2 ⟨closes, listed⟩) fun _ =>
      Draft.reportsAs_of_perform unfinished unvalued (fun sets => absurd sets valueless) acted

end Machine

/-! ## The value of a control -/

/-- Whether some octets end with the value of a control, the control ends with it, and the
reader for the OID of the control returns an error for this value. -/
inductive ReaderRefuses (decoder : Decoder) : Bytes → CodecError → Prop where
  | value {outer header content : Bytes} {frame : Frame} {others : List Frame} {state : State}
      {draft : Draft} {fields : ControlDraft} {reader : Bytes → Codec Payload} {error : CodecError}
      (outside : Session.feed decoder outer {}
        = .ok none { machine := { frames := frame :: others, state, draft } })
      (opened : draft.openControl = some fields)
      (expected : (state.transition? Ber.Tag.octetString).bind Transition.action
        = some .setControlValue)
      (announced : Reader.header header = .ok (Ber.Tag.octetString, content.length) [])
      (last : frame.tlv.remaining = header.length + content.length)
      (registered : decoder.registry.reader? fields.oid = some reader)
      (returned : reader content = .error error) :
      ReaderRefuses decoder (outer ++ (header ++ content)) error

namespace Machine

variable {decoder : Decoder} {machine middle after : Machine} {frames : List Frame} {tlv : Tlv}
  {transition : Transition} {octet : UInt8} {octets outer header content : Bytes}
  {error : CodecError}

/-- An element with which the one around it ends is all that this one lacked. -/
theorem remaining_of_charge {limits : Limits}
    (charged : charge limits tlv machine = .ok () after)
    (ends : ∃ frame ∈ after.frames.head?, frame.tlv.isComplete = true) :
    ∃ frame others, machine.frames = frame :: others ∧ frame.tlv.remaining = tlv.total := by
  obtain ⟨top, first, complete⟩ := ends
  unfold charge at charged
  split at charged
  · rename_i outermost
    split at charged <;> cases charged
    rw [outermost] at first
    cases first
  · rename_i parent others stack
    split at charged <;> cases charged
    cases first
    have full : parent.tlv.consumed + tlv.total = parent.tlv.length := Tlv.isComplete_iff.1 complete
    refine ⟨parent, others, stack, ?_⟩
    unfold Tlv.remaining
    omega

/-- A value that a reader refuses, from what is known of the element that holds it. -/
theorem Begins.readerRefuses (begins : Begins decoder outer header tlv transition frames machine)
    (sets : transition.action = some .setControlValue) (size : content.length = tlv.length)
    (ends : ∃ frame ∈ machine.frames.head?, frame.tlv.isComplete = true) {fields : ControlDraft}
    (opened : machine.draft.openControl = some fields)
    (refuses : decoder.registry.RefusesValue { fields with value := some content } error) :
    ReaderRefuses decoder (outer ++ (header ++ content)) error := by
  obtain ⟨outside, whole, charged, accepted⟩ := begins
  obtain ⟨reader, _, registered, ⟨⟩, returned⟩ := refuses
  have string := (State.octetString_of_transition? accepted sets).1
  have announced := Header.header_of_take whole
  rw [string, ← size] at announced
  obtain ⟨frame, others, rfl, lacking⟩ := remaining_of_charge charged ends
  rw [Header.total_of_take whole, ← size] at lacking
  refine .value (by rw [Session.feed_fresh, outside]) opened ?_ announced lacking registered
    returned
  rw [← string, accepted]
  exact sets

/-! ## Elements and octets -/

theorem Consistent.listed {count : Nat} (consistent : machine.Consistent decoder count) :
    ∀ frame ∈ machine.frames, frame.close.Listed := by
  obtain ⟨_, _, _, _, tracks, _⟩ := consistent
  exact tracks.listed

/-- Where an element may begin the open control has no value yet. -/
theorem Consistent.unvalued {count : Nat} {tag : UInt8}
    (consistent : machine.Consistent decoder count)
    (accepted : machine.state.transition? tag = some transition) : machine.draft.Unvalued := by
  intro fields opened
  have checked := consistent.fits.value
  rw [Option.mem_def.1 opened, Option.all_some, Bool.or_eq_true, beq_iff_eq,
    Option.isNone_iff_eq_none] at checked
  apply checked.resolve_right
  intro finished
  rw [finished] at accepted
  cases accepted

/-- **An element** begins alike with the two registries, unless it is an empty value that a
reader refuses. -/
theorem mirrors_beginElement {frames : List Frame} {state : State} {draft : Draft}
    (outside : run decoder outer {} = .ok (none, []) { frames, state, draft })
    (whole : Header.take header {} = .ok (some tlv, []) {}) :
    Step.Mirrors (ReaderRefuses decoder (outer ++ header)) (beginElement decoder tlv)
      (beginElement decoder.masked tlv) { frames, state, draft } := by
  have consistent := consistent_of_run outside
  obtain ⟨_, _, _, _, tracks, underWay⟩ := id consistent
  cases underWay with
  | content takes => cases takes.current
  | header =>
      rw [beginElement, beginElement, Decoder.limits_masked]
      apply Step.Mirrors.bind (.refl _ _)
      intro _ middle charged
      obtain ⟨reached, rfl, charges⟩ := (charge_meets tracks).ok charged
      apply Step.Mirrors.bind (.refl _ _)
      intro _ _ got
      cases got
      dsimp only
      cases accepted : state.transition? tlv.tag with
      | none => exact .refl _ _
      | some transition =>
          have unfinished := State.unfinished_of_transition? accepted
          have unvalued := consistent.unvalued accepted
          cases closing : transition.close with
          | some close =>
              simp only [closing]
              obtain ⟨rule, among, _, same⟩ := State.exists_rule_of_transition? accepted
              refine mirrors_openFrame charges.listed ⟨state, rule, among, same ▸ closing⟩
                unfinished (fun sets => ?_) unvalued
              cases (State.octetString_of_transition? accepted sets).2.symm.trans closing
          | none =>
              simp only [closing]
              obtain ⟨_, _, consumed, received, _⟩ := Header.announced_iff_header.1 whole
              by_cases complete : tlv.isComplete = true
              · have empty : ([] : Bytes).length = tlv.length :=
                  consumed.symm.trans (Tlv.isComplete_iff.1 complete)
                have begins : Begins decoder outer header tlv transition frames
                    { frames := reached, state, draft } :=
                  ⟨outside, whole, charged, accepted⟩
                simp only [if_pos complete]
                refine mirrors_finishPrimitive charges.listed unfinished unvalued ?_
                intro ends sets fields error opened refuses
                rw [Tlv.value, received] at refuses
                have refused := begins.readerRefuses sets empty ends opened refuses
                rwa [List.append_nil] at refused
              · simp only [if_neg complete]
                exact .refl _ _

/-- **An octet** leads to the same with the two registries, unless it is the last one of a value
that a reader refuses. -/
theorem mirrors_push (ran : run decoder octets {} = .ok (none, []) machine) (octet : UInt8) :
    Step.Mirrors (ReaderRefuses decoder (octets ++ [octet])) (push decoder octet)
      (push decoder.masked octet) machine := by
  cases current : machine.current with
  | none =>
      cases took : Header.push octet machine.header with
      | error fault header =>
          left
          rw [push_of_refused current took, push_of_refused current took]
      | ok announced header =>
          cases announced with
          | none =>
              left
              rw [push_of_header current took, push_of_header current took]
          | some tlv =>
              obtain ⟨rfl, _⟩ := Header.announced_of_push took
              obtain ⟨outer, begun, rfl, outside, whole, pushes⟩ :=
                exists_header_of_announced ran current took
              rw [Step.Mirrors, push_of_announced current took, push_of_announced current took,
                current, List.append_assoc]
              exact mirrors_beginElement outside whole
  | some pending =>
      have consistent := consistent_of_run ran
      have lacking := consistent.waiting pending current
      by_cases last : pending.tlv.consumed + 1 = pending.tlv.length
      · obtain ⟨outer, header, content, tlv, frames, rfl, filled, begins⟩ :=
          endsWithContent_of_run ran current
        obtain ⟨_, _, consumed, received, _⟩ := Header.announced_iff_header.1 begins.whole
        rw [Step.Mirrors, push_of_complete decoder octet last current,
          push_of_complete decoder.masked octet last current]
        refine mirrors_finishPrimitive consistent.listed
          (State.unfinished_of_transition? begins.accepted)
          (consistent.unvalued begins.accepted) ?_
        intro ends sets fields error opened refuses
        have value : (pending.fill [octet]).tlv.value = content ++ [octet] := by
          rw [Pending.fill, Tlv.value_fill, filled, Tlv.value_fill, Tlv.value, received]
          rfl
        have size : (content ++ [octet]).length = tlv.length := by
          rw [filled, Tlv.consumed_fill, Tlv.length_fill, consumed, Nat.zero_add] at last
          rw [List.length_append]
          exact last
        rw [value] at refuses
        rw [List.append_assoc, List.append_assoc]
        exact begins.readerRefuses sets size ends opened refuses
      · left
        have shorter : pending.tlv.consumed + 1 < pending.tlv.length := by omega
        rw [push_of_incomplete decoder octet shorter current,
          push_of_incomplete decoder.masked octet shorter current]

/-- **Octets** that lead to no message and to no error do so with either registry. -/
theorem run_masked : run decoder octets {} = .ok (none, []) after
    ↔ run decoder.masked octets {} = .ok (none, []) after := by
  induction octets using List.reverseRecOn generalizing after with
  | nil => exact Iff.rfl
  | append_singleton octets octet further =>
      constructor
      · intro ran
        obtain ⟨middle, before, pushed⟩ := exists_last_of_run ran
        exact run_concat (further.1 before) ((mirrors_push before octet).ok_iff.1 pushed)
      · intro ran
        obtain ⟨middle, before, pushed⟩ := exists_last_of_run ran
        have before := further.2 before
        exact run_concat before ((mirrors_push before octet).ok_iff.2 pushed)

end Machine

/-! ## Sessions -/

theorem ReaderRefuses.reports {decoder : Decoder} {octets : Bytes} {error : CodecError}
    (refuses : ReaderRefuses decoder octets error) : decoder.registry.Reports error := by
  cases refuses with
  | value _ _ _ _ _ registered returned => exact ⟨_, _, _, registered, returned⟩

namespace Session

variable {decoder : Decoder} {session after : Session} {octets read chunk : Bytes}
  {machine : Machine} {error : CodecError}

theorem feed_masked : feed decoder octets {} = .ok none { machine }
    ↔ feed decoder.masked octets {} = .ok none { machine } := by
  have waits (decoder : Decoder) : feed decoder octets {} = .ok none { machine }
      ↔ Machine.run decoder octets {} = .ok (none, []) machine := by
    rw [feed_fresh]
    cases Machine.run decoder octets {} <;> simp [Prod.ext_iff, and_assoc, and_comm]
  rw [waits, waits, Machine.run_masked]

/-- **A call that fails** has read up to an octet that is refused with the masked registry as
well, or that is the last one of a value which a reader refuses. -/
theorem Reads.refused (reads : Reads decoder session read) (alive : session.poisoned = false)
    (failed : feed decoder chunk session = .error error after) :
    ∃ taken octet left middle, session.pending ++ chunk = taken ++ [octet] ++ left
      ∧ Machine.run decoder.masked (read ++ taken) {} = .ok (none, []) middle
      ∧ (ReaderRefuses decoder (read ++ (taken ++ [octet])) error
        ∨ Machine.push decoder.masked octet middle = .error error after.machine) := by
  have ran := run_of_failed alive reads.machine_accounts.waiting failed
  obtain ⟨taken, octet, left, middle, split, before, refused⟩ := Machine.exists_refused_of_run ran
  have reached : Machine.run decoder (read ++ taken) {} = .ok (none, []) middle := by
    rw [Machine.run_append, reads.run]
    exact before
  refine ⟨taken, octet, left, middle, ?_, Machine.run_masked.1 reached, ?_⟩
  · rw [split, List.append_assoc]
    rfl
  · have ways := (Machine.mirrors_push reached octet).error refused
    rwa [List.append_assoc] at ways

/-- **No fault of the decoder**: up to the first error the draft has the shape that the state
and the open elements demand, and no error looks like a fault of the decoder, unless the reader
of a control has returned it for the value that has just been read. -/
theorem Reachable.fits_and_blameless (reachable : Reachable decoder session) :
    (session.poisoned = false →
      session.machine.draft.Fits session.machine.state
        (session.machine.frames.map Frame.close))
    ∧ ∀ chunk error after, feed decoder chunk session = .error error after →
        error.isInternal = false
          ∨ ∃ read taken left, Reads decoder session read
            ∧ session.pending ++ chunk = taken ++ left
            ∧ ReaderRefuses decoder (read ++ taken) error := by
  refine ⟨fun alive => ?_, fun chunk error after failed => ?_⟩
  · obtain ⟨octets, consistent⟩ := reachable.consistent alive
    exact consistent.fits
  · cases alive : session.poisoned with
    | true =>
        rw [feed_of_poisoned decoder chunk alive] at failed
        cases failed
        exact .inl rfl
    | false =>
        obtain ⟨read, reads⟩ := reachable.exists_reads alive
        obtain ⟨taken, octet, left, middle, split, ran, refuses | refused⟩ :=
          reads.refused alive failed
        · exact .inr ⟨read, _, left, reads, split, refuses⟩
        · left
          by_contra internal
          have blameless := (Machine.push_meets octet (Machine.consistent_of_run ran)).error refused
          obtain ⟨oid, rfl⟩ := Registry.Reports.masked (blameless (eq_true_of_ne_false internal))
          exact internal rfl

/-- A decoder with a reader that returns an error of its own for every value. -/
def reporting : Decoder where
  registry := { entries := [("1.2.3", fun _ => .error (.structuralViolation .operationMissing))] }

/-- An unbind request with a control that this reader is for. -/
def valuedUnbind : Bytes :=
  [0x30, 0x13, 0x02, 0x01, 0x01, 0x42, 0x00, 0xA0, 0x0C, 0x30, 0x0A,
    0x04, 0x05, 0x31, 0x2E, 0x32, 0x2E, 0x33, 0x04, 0x01, 0x00]

theorem feed_valuedUnbind :
    (match feed reporting valuedUnbind {} with
      | .error error _ => error == .structuralViolation .operationMissing
      | .ok .. => false) = true := by
  rw [feed_fresh]
  decide +kernel

/-- In the midst of a bind request there is an operation of that kind and nothing else. An error
that looks like one of the decoder comes from a reader that has refused the value of its control,
and here is one. -/
theorem Reachable.fits_and_blameless_bindRequest :
    (∃ after, Reachable {} after ∧ after.machine.state = .bindVersion
      ∧ after.machine.draft.Fits .bindVersion
        [.afterOperation, { action := none, resume := .start }])
    ∧ ∃ after,
      feed reporting valuedUnbind {} = .error (.structuralViolation .operationMissing) after
      ∧ ∃ read taken left, valuedUnbind = taken ++ left
        ∧ ReaderRefuses reporting (read ++ taken) (.structuralViolation .operationMissing) := by
  constructor
  · have begun := feed_bindHalf
    cases fed : feed {} bindHalf {} with
    | error error after => simp [fed] at begun
    | ok message after =>
        cases message with
        | some message => simp [fed] at begun
        | none =>
            simp only [fed, Bool.and_eq_true, Bool.not_eq_true', beq_iff_eq] at begun
            obtain ⟨⟨alive, state⟩, closes⟩ := begun
            have reachable : Reachable {} after := .fed .fresh fed
            have shaped := (Reachable.fits_and_blameless reachable).1 alive
            rw [state, closes] at shaped
            exact ⟨after, reachable, state, shaped⟩
  · have refused := feed_valuedUnbind
    cases failed : feed reporting valuedUnbind {} with
    | ok message after => simp [failed] at refused
    | error error after =>
        simp only [failed, beq_iff_eq] at refused
        subst refused
        refine ⟨after, rfl, ?_⟩
        rcases (Reachable.fits_and_blameless .fresh).2 _ _ _ failed with external | refuses
        · cases external
        · obtain ⟨read, taken, left, _, split, refuses⟩ := refuses
          exact ⟨read, taken, left, split, refuses⟩

end Session

end LdapWire
