import LdapWire.Proofs.Descent.Derivation
import LdapWire.Proofs.Draft.Plain
import LdapWire.Proofs.Session.Division

/-!
# The controls of a message

The controls of a message that a session returns are those in the octets of the message:
one for each sequence among the controls there, in the same order, each with the OID, the
criticality and the value of its own sequence (`Message.Carries`). What the registry makes
of each is told by `Registry.Makes`: a control that is critical is a known one, octets are
kept as they are if nobody reads them, and a payload is what the registered reader has
returned for them. Both are put together in `Session.Reachable.carries_controls`.

The proof follows a derivation of the message. Inside the operation no action touches the
controls, and the fields of a control are collected in an open control that has been
started afresh, so nothing of one control is left for the next.
-/

set_option autoImplicit false

namespace LdapWire

open Ber
open Grammar (Action Close Rule State Transition)

/-! ## Controls in octets -/

/-- Whether octets are those of a criticality, which is false if it is left out. -/
def IsCriticality (octets : Bytes) (critical : Bool) : Prop :=
  octets = [] ∧ critical = false
    ∨ ∃ octet, Spells octets Tag.boolean [octet] ∧ critical = (octet != 0)

/-- Whether octets are those of the value of a control, if it has one. -/
def IsControlValue (octets : Bytes) (value : Option Bytes) : Prop :=
  octets = [] ∧ value = none
    ∨ ∃ content, Spells octets Tag.octetString content ∧ value = some content

/-- Whether octets are a control with some fields: a sequence of its OID, its criticality and
its value. -/
inductive ControlDraft.Spelled : Bytes → ControlDraft → Prop where
  | control {octets name flag value : Bytes} {fields : ControlDraft}
      (sequence : Spells octets Tag.sequence (name ++ (flag ++ value)))
      (oid : Spells name Tag.octetString (Utf8.bytes fields.oid))
      (critical : IsCriticality flag fields.critical)
      (value : IsControlValue value fields.value) :
      Spelled octets fields

/-- Whether octets are a message with controls that have some fields: a sequence of an
identifier, of an operation and of the controls, if there are any. -/
inductive Message.Carries : Bytes → List ControlDraft → Prop where
  | none {octets identifier operation id content : Bytes} {tag : UInt8}
      (sequence : Spells octets Tag.sequence (identifier ++ operation))
      (identified : Spells identifier Tag.integer id) (operates : Spells operation tag content) :
      Carries octets []
  | controls {octets identifier operation controls id content : Bytes} {tag : UInt8}
      {parts : List Bytes} {fields : List ControlDraft}
      (sequence : Spells octets Tag.sequence (identifier ++ (operation ++ controls)))
      (identified : Spells identifier Tag.integer id) (operates : Spells operation tag content)
      (listed : Spells controls 0xA0 parts.flatten)
      (each : List.Forall₂ ControlDraft.Spelled parts fields) :
      Carries octets fields

/-! ### Octets carry no other fields -/

namespace Ber

theorem Spells.ne_nil {octets content : Bytes} {tag : UInt8} (spelled : Spells octets tag content) :
    octets ≠ [] := by
  rintro rfl
  cases spelled

/-- Octets begin with one element at most. -/
theorem Spells.unique {front behind other rest content content' : Bytes} {tag tag' : UInt8}
    (first : Spells front tag content) (second : Spells other tag' content')
    (same : front ++ behind = other ++ rest) :
    front = other ∧ tag = tag' ∧ content = content' ∧ behind = rest := by
  have read := Header.header_append first behind
  rw [same, Header.header_append second rest] at read
  obtain ⟨header, body⟩ := EStateM.Result.ok.inj read
  obtain ⟨rfl, size⟩ := Prod.mk.inj header
  obtain ⟨rfl, rfl⟩ := List.append_inj body size
  exact ⟨List.append_cancel_right same, rfl, rfl, rfl⟩

theorem Spells.unique_whole {octets content content' : Bytes} {tag tag' : UInt8}
    (first : Spells octets tag content) (second : Spells octets tag' content') :
    content = content' :=
  (first.unique second (rfl : octets ++ [] = octets ++ [])).2.2.1

theorem Utf8.bytes_injective {text other : String} (same : bytes text = bytes other) :
    text = other := by
  have read := decode_bytes text ""
  rw [same, decode_bytes] at read
  exact (Except.ok.inj read).symm

end Ber

theorem IsControlValue.unique {octets : Bytes} {value value' : Option Bytes}
    (first : IsControlValue octets value) (second : IsControlValue octets value') :
    value = value' := by
  rcases first with ⟨rfl, rfl⟩ | ⟨content, spelled, rfl⟩
  · rcases second with ⟨_, rfl⟩ | ⟨_, spelled, _⟩
    · rfl
    · exact absurd rfl spelled.ne_nil
  · rcases second with ⟨rfl, _⟩ | ⟨_, spelled', rfl⟩
    · exact absurd rfl spelled.ne_nil
    · rw [spelled.unique_whole spelled']

/-- A value is not taken for a criticality. -/
theorem IsControlValue.not_boolean {octets flag rest content : Bytes} {value : Option Bytes}
    (isValue : IsControlValue octets value) (spelled : Spells flag Tag.boolean content) :
    octets ≠ flag ++ rest := by
  intro same
  rcases isValue with ⟨rfl, _⟩ | ⟨_, spelled', _⟩
  · exact spelled.ne_nil (List.append_eq_nil_iff.1 same.symm).1
  · rw [← List.append_nil octets] at same
    cases (spelled'.unique spelled same).2.1

theorem IsCriticality.unique {flag flag' octets octets' : Bytes} {critical critical' : Bool}
    {value value' : Option Bytes} (first : IsCriticality flag critical)
    (isValue : IsControlValue octets value) (second : IsCriticality flag' critical')
    (isValue' : IsControlValue octets' value') (same : flag ++ octets = flag' ++ octets') :
    critical = critical' ∧ octets = octets' := by
  rcases first with ⟨rfl, rfl⟩ | ⟨octet, spelled, rfl⟩
  · rcases second with ⟨rfl, rfl⟩ | ⟨_, spelled', _⟩
    · exact ⟨rfl, same⟩
    · exact absurd same (isValue.not_boolean spelled')
  · rcases second with ⟨rfl, _⟩ | ⟨_, spelled', rfl⟩
    · exact absurd same.symm (isValue'.not_boolean spelled)
    · obtain ⟨_, _, single, rest⟩ := spelled.unique spelled' same
      rw [(List.cons.inj single).1]
      exact ⟨rfl, rest⟩

theorem ControlDraft.Spelled.unique {front behind other rest : Bytes}
    {fields fields' : ControlDraft} (first : Spelled front fields) (second : Spelled other fields')
    (same : front ++ behind = other ++ rest) : fields = fields' ∧ behind = rest := by
  cases first with
  | control sequence oid critical value =>
      cases second with
      | control sequence' oid' critical' value' =>
          obtain ⟨_, _, inside, behind⟩ := sequence.unique sequence' same
          obtain ⟨_, _, name, rest⟩ := oid.unique oid' inside
          obtain ⟨sameFlag, octets⟩ := critical.unique value critical' value' rest
          subst octets
          have sameValue := value.unique value'
          have sameName := Utf8.bytes_injective name
          refine ⟨?_, behind⟩
          obtain ⟨_, _, _⟩ := fields
          obtain ⟨_, _, _⟩ := fields'
          cases sameName
          cases sameFlag
          cases sameValue
          rfl

theorem ControlDraft.Spelled.unique_all {parts parts' : List Bytes}
    {fields fields' : List ControlDraft} (first : List.Forall₂ Spelled parts fields)
    (second : List.Forall₂ Spelled parts' fields') (same : parts.flatten = parts'.flatten) :
    fields = fields' := by
  induction first generalizing parts' fields' with
  | nil =>
      cases second with
      | nil => rfl
      | cons spelled others =>
          cases spelled with
          | control sequence =>
              exact absurd (List.append_eq_nil_iff.1 same.symm).1 sequence.ne_nil
  | cons spelled others further =>
      cases second with
      | nil =>
          cases spelled with
          | control sequence =>
              exact absurd (List.append_eq_nil_iff.1 same).1 sequence.ne_nil
      | cons spelled' others' =>
          obtain ⟨rfl, rest⟩ := spelled.unique spelled' same
          rw [further others' rest]

/-- **Octets carry the controls of one message.** -/
theorem Message.Carries.unique {octets : Bytes} {fields fields' : List ControlDraft}
    (first : Carries octets fields) (second : Carries octets fields') : fields = fields' := by
  cases first with
  | none sequence identified operates =>
      cases second with
      | none => rfl
      | controls sequence' identified' operates' listed =>
          have inside := sequence.unique_whole sequence'
          obtain ⟨_, _, _, rest⟩ := identified.unique identified' inside
          have nothing := (operates.unique operates' ((List.append_nil _).trans rest)).2.2.2
          exact absurd nothing.symm listed.ne_nil
  | controls sequence identified operates listed each =>
      cases second with
      | none sequence' identified' operates' =>
          have inside := sequence.unique_whole sequence'
          obtain ⟨_, _, _, rest⟩ := identified.unique identified' inside
          have nothing := (operates.unique operates' (rest.trans (List.append_nil _).symm)).2.2.2
          exact absurd nothing listed.ne_nil
      | controls sequence' identified' operates' listed' each' =>
          have inside := sequence.unique_whole sequence'
          obtain ⟨_, _, _, rest⟩ := identified.unique identified' inside
          obtain ⟨_, _, _, rfl⟩ := operates.unique operates' rest
          exact ControlDraft.Spelled.unique_all each each' (listed.unique_whole listed')

/-! ### What becomes of the fields -/

/-- What a control is that a registry has made of some fields. -/
structure Registry.Makes (registry : Registry) (fields : ControlDraft) (control : Control) :
    Prop where
  oid : control.oid = fields.oid
  critical : control.critical = fields.critical
  known : control.critical = true → registry.isRegistered control.oid = true
  absent : control.value = .absent ↔ fields.value = none
  raw : ∀ content, control.value = .raw content →
    registry.isRegistered control.oid = false ∧ fields.value = some content
  decoded : ∀ payload, control.value = .decoded payload →
    ∃ reader content, registry.reader? control.oid = some reader
      ∧ fields.value = some content ∧ reader content = .ok payload

theorem Registry.makes_of_readControl {registry : Registry} {fields : ControlDraft}
    {control : Control}
    (made : registry.readControl fields.oid fields.critical fields.value = .ok control) :
    registry.Makes fields control := by
  obtain ⟨oid, critical, value⟩ := fields
  cases known : registry.reader? oid with
  | some reader =>
      have registered : registry.isRegistered oid = true := by
        rw [isRegistered, known]
        rfl
      cases value with
      | none =>
          simp only [readControl, known] at made
          cases made
          exact ⟨rfl, rfl, fun _ => registered, by simp, by simp, by simp⟩
      | some content =>
          simp only [readControl, known] at made
          obtain ⟨payload, parsed, returned⟩ := Content.checked_ok made
          cases returned
          refine ⟨rfl, rfl, fun _ => registered, by simp, by simp, ?_⟩
          rintro _ ⟨⟩
          exact ⟨reader, content, known, rfl, parsed⟩
  | none =>
      have unregistered : registry.isRegistered oid = false := by
        rw [isRegistered, known]
        rfl
      cases critical with
      | true =>
          simp only [readControl, known] at made
          cases made
      | false =>
          cases value with
          | none =>
              simp only [readControl, known] at made
              cases made
              exact ⟨rfl, rfl, by simp, by simp, by simp, by simp⟩
          | some content =>
              simp only [readControl, known] at made
              cases made
              refine ⟨rfl, rfl, by simp, by simp, ?_, by simp⟩
              rintro _ ⟨⟩
              exact ⟨unregistered, rfl⟩

/-! ## Inside the operation -/

/-- Whether a state is one inside the operation of a message. -/
def Grammar.State.withinOperation : State → Bool
  | .start | .messageId | .protocolOp | .afterOp | .afterControls
  | .controlsStart | .controlType | .controlCriticality | .controlValue | .controlEnd => false
  | _ => true

/-- Inside the operation no rule is about controls, and none leads out of it. -/
theorem Grammar.State.rules_withinOperation (state : State) (within : state.withinOperation) :
    (state.rules.all fun rule =>
      rule.transition.actions.all (!·.isOnControls)
        && rule.transition.next.withinOperation
        && rule.transition.close.all (·.resume.withinOperation)) = true := by
  cases state <;> first | rfl | (cases within; done) | (rename_i flavor; cases flavor <;> rfl)

/-- The operation itself is not about controls either, and there is none behind it. -/
theorem Grammar.State.rules_protocolOp :
    (State.protocolOp.rules.all fun rule =>
      rule.transition.actions.all (!·.isOnControls)
        && match rule.transition.close with
          | none => rule.transition.next == .afterOp
          | some close =>
              rule.transition.next.withinOperation && close.resume == .afterOp) = true :=
  rfl

namespace Draft

variable {registry : Registry} {draft after : Draft} {tlv : Tlv}

theorem perform_sameControls {action : Option Action}
    (other : ∀ action' ∈ action, action'.isOnControls = false)
    (performed : perform registry action tlv draft = .ok () after) : draft.SameControls after := by
  cases action with
  | none =>
      cases performed
      exact ⟨rfl, rfl⟩
  | some action => exact (plain_act registry (other action rfl) tlv).sameControls performed

end Draft

theorem Draft.bytes_of_nonEmptyText {content : Bytes} {what text : String}
    (read : nonEmptyText content what = .ok text) : Utf8.bytes text = content := by
  obtain ⟨decoded, read, returned⟩ := Content.checked_ok read
  split at returned <;> cases returned
  exact Utf8.bytes_of_decode read

theorem Ber.Boolean.exists_of_decode {content : Bytes} {value : Bool}
    (decoded : decode content = .ok value) : ∃ octet, content = [octet] ∧ value = (octet != 0) := by
  unfold decode at decoded
  split at decoded
  · cases decoded
    exact ⟨_, rfl, rfl⟩
  · cases decoded

namespace Descent

variable {decoder : Decoder} {depth : Nat} {slice : Bytes} {state : State} {draft after : Draft}

/-- **Inside the operation** the controls are left alone. -/
theorem Derives.sameControls (derives : Derives decoder depth slice state draft after)
    (within : state.withinOperation = true) : draft.SameControls after := by
  induction derives with
  | done => exact ⟨rfl, rfl⟩
  | primitive element accepted plain acts _ further =>
      obtain ⟨rule, listed, _, rfl⟩ := State.exists_rule_of_transition? accepted
      have checked := List.all_eq_true.1 (State.rules_withinOperation _ within) rule listed
      simp only [Bool.and_eq_true, List.all_eq_true, Bool.not_eq_true', Transition.actions,
        List.mem_append, Option.mem_toList] at checked
      obtain ⟨⟨others, next⟩, _⟩ := checked
      exact (Draft.perform_sameControls (fun action listed => others action (.inl listed))
        acts).trans (further next)
  | constructed element accepted closing opens _ ends _ inside further =>
      obtain ⟨rule, listed, _, rfl⟩ := State.exists_rule_of_transition? accepted
      have checked := List.all_eq_true.1 (State.rules_withinOperation _ within) rule listed
      simp only [Bool.and_eq_true, List.all_eq_true, Bool.not_eq_true', Transition.actions, closing,
        List.mem_append, Option.mem_toList, Option.bind_some, Option.all_some] at checked
      obtain ⟨⟨others, next⟩, resume⟩ := checked
      have opened := Draft.perform_sameControls (fun action listed => others action (.inl listed))
        opens
      have ended := Draft.perform_sameControls (fun action listed => others action (.inr listed))
        ends
      exact ((opened.trans (inside next)).trans ended).trans (further resume)

/-! ## The fields of a control -/

/-- A state with a single rule accepts nothing else. -/
theorem eq_of_single {rule : Rule} {tag : UInt8} {transition : Transition}
    (single : state.rules = [rule]) (accepted : state.transition? tag = some transition) :
    tag = rule.tag ∧ transition = rule.transition := by
  obtain ⟨found, listed, rfl, rfl⟩ := State.exists_rule_of_transition? accepted
  rw [single] at listed
  obtain rfl := List.mem_singleton.1 listed
  exact ⟨rfl, rfl⟩

/-- A state without rules accepts nothing. -/
theorem Derives.eq_of_rules_nil (derives : Derives decoder depth slice state draft after)
    (nothing : state.rules = []) : slice = [] ∧ after = draft := by
  cases derives with
  | done => exact ⟨rfl, rfl⟩
  | primitive _ accepted =>
      obtain ⟨rule, listed, _⟩ := State.exists_rule_of_transition? accepted
      rw [nothing] at listed
      cases listed
  | constructed _ accepted =>
      obtain ⟨rule, listed, _⟩ := State.exists_rule_of_transition? accepted
      rw [nothing] at listed
      cases listed

variable {fields : ControlDraft}

/-- The value of a control that has been read up to there. -/
theorem Derives.controlValue (derives : Derives decoder depth slice .controlValue
      { draft with openControl := some fields } after) (unset : fields.value = none) :
    ∃ value, IsControlValue slice value
      ∧ after = { draft with openControl := some { fields with value } } := by
  cases derives with
  | done => exact ⟨none, .inl ⟨rfl, rfl⟩, by rw [← unset]⟩
  | primitive element accepted plain acts further =>
      obtain ⟨tag, rfl⟩ := eq_of_single rfl accepted
      obtain ⟨rfl, rfl⟩ := further.eq_of_rules_nil rfl
      cases acts
      rw [tag] at element
      rw [List.append_nil]
      exact ⟨_, .inr ⟨_, element, rfl⟩, rfl⟩
  | constructed _ accepted closing =>
      obtain ⟨_, rfl⟩ := eq_of_single rfl accepted
      cases closing

/-- The fields behind the OID. -/
theorem Derives.controlCriticality (derives : Derives decoder depth slice .controlCriticality
      { draft with openControl := some fields } after)
    (uncritical : fields.critical = false) (unset : fields.value = none) :
    ∃ flag octets critical value, slice = flag ++ octets ∧ IsCriticality flag critical
      ∧ IsControlValue octets value
      ∧ after = { draft with openControl := some { fields with critical, value } } := by
  cases derives with
  | done =>
      refine ⟨[], [], false, none, rfl, .inl ⟨rfl, rfl⟩, .inl ⟨rfl, rfl⟩, ?_⟩
      rw [← uncritical, ← unset]
  | primitive element accepted plain acts further =>
      obtain ⟨rule, listed, tag, rfl⟩ := State.exists_rule_of_transition? accepted
      rw [← tag] at element
      rcases List.mem_cons.1 listed with rfl | listed
      · obtain ⟨critical, _, lifted, updated⟩ := Step.exists_of_bind_eq_ok acts
        obtain ⟨decoded, rfl⟩ := Step.lift_eq_ok lifted
        cases updated
        obtain ⟨octet, single, rfl⟩ := Boolean.exists_of_decode decoded
        have rest : Derives decoder depth _ .controlValue
          { draft with openControl := some { fields with critical := octet != 0 } } after := further
        obtain ⟨value, spelled, rfl⟩ := rest.controlValue unset
        rw [single] at element
        exact ⟨_, _, _, value, rfl, .inr ⟨octet, element, rfl⟩, spelled, rfl⟩
      · obtain rfl := List.mem_singleton.1 listed
        obtain ⟨rfl, rfl⟩ := further.eq_of_rules_nil rfl
        cases acts
        rw [List.append_nil]
        refine ⟨[], _, false, _, rfl, .inl ⟨rfl, rfl⟩, .inr ⟨_, element, rfl⟩, ?_⟩
        rw [← uncritical]
  | constructed _ accepted closing =>
      obtain ⟨rule, listed, _, rfl⟩ := State.exists_rule_of_transition? accepted
      rcases List.mem_cons.1 listed with rfl | listed
      · cases closing
      · obtain rfl := List.mem_singleton.1 listed
        cases closing

/-- **The fields of a control** are those of its sequence. -/
theorem Derives.controlType
    (derives : Derives decoder depth slice .controlType
      { draft with openControl := some {} } after) :
    ∃ name flag octets fields, slice = name ++ (flag ++ octets)
      ∧ Spells name Tag.octetString (Utf8.bytes fields.oid)
      ∧ IsCriticality flag fields.critical ∧ IsControlValue octets fields.value
      ∧ after = { draft with openControl := some fields } := by
  cases derives with
  | done canEnd => cases canEnd
  | primitive element accepted plain acts further =>
      obtain ⟨tag, rfl⟩ := eq_of_single rfl accepted
      rw [tag] at element
      obtain ⟨oid, _, lifted, updated⟩ := Step.exists_of_bind_eq_ok acts
      obtain ⟨read, rfl⟩ := Step.lift_eq_ok lifted
      cases updated
      have rest : Derives decoder depth _ .controlCriticality
        { draft with openControl := some { oid } } after := further
      obtain ⟨flag, octets, critical, value, rfl, isFlag, isValue, rfl⟩ :=
        rest.controlCriticality rfl rfl
      rw [← Draft.bytes_of_nonEmptyText read] at element
      exact ⟨_, flag, octets, { oid, critical, value }, rfl, element, isFlag, isValue, rfl⟩
  | constructed _ accepted closing =>
      obtain ⟨_, rfl⟩ := eq_of_single rfl accepted
      cases closing

/-! ## The controls of a message -/

/-- **Controls one after another** are those of their sequences, as the registry makes them. -/
theorem Derives.controls (derives : Derives decoder depth slice state draft after)
    (start : state = .controlsStart) :
    ∃ parts fields controls, slice = parts.flatten
      ∧ List.Forall₂ ControlDraft.Spelled parts fields
      ∧ List.Forall₂ decoder.registry.Makes fields controls
      ∧ after.controls = draft.controls ++ controls := by
  induction derives with
  | done => exact ⟨[], [], [], rfl, .nil, .nil, (List.append_nil _).symm⟩
  | primitive _ accepted plain =>
      subst start
      obtain ⟨_, rfl⟩ := eq_of_single rfl accepted
      cases plain
  | @constructed depth front value behind state draft opened inside middle after tlv transition
      close element accepted closing opens content ends _ _ further =>
      subst start
      obtain ⟨tag, rfl⟩ := eq_of_single rfl accepted
      cases closing
      rw [tag] at element
      cases opens
      obtain ⟨name, flag, octets, fields, rfl, oid, isFlag, isValue, rfl⟩ := content.controlType
      have finished : Draft.finishControl decoder.registry
          { draft with openControl := some fields } = .ok () middle := ends
      simp only [Draft.finishControl] at finished
      split at finished
      · rename_i control made
        cases finished
        obtain ⟨parts, others, controls, rfl, spelled, makes, whole⟩ := further rfl
        refine ⟨front :: parts, fields :: others, control :: controls, rfl,
          .cons (.control element oid isFlag isValue) spelled,
          .cons (Registry.makes_of_readControl made) makes, ?_⟩
        rw [whole, List.append_assoc]
        rfl
      · cases finished

/-- The identifier of a message, which comes first. -/
theorem Derives.messageId (derives : Derives decoder depth slice .messageId draft after) :
    ∃ identifier id behind middle, slice = identifier ++ behind
      ∧ Spells identifier Tag.integer id ∧ draft.SameControls middle
      ∧ Derives decoder depth behind .protocolOp middle after := by
  cases derives with
  | done canEnd => cases canEnd
  | primitive element accepted plain acts further =>
      obtain ⟨tag, rfl⟩ := eq_of_single rfl accepted
      rw [tag] at element
      refine ⟨_, _, _, _, rfl, element, Draft.perform_sameControls ?_ acts, further⟩
      rintro _ ⟨⟩
      rfl
  | constructed _ accepted closing =>
      obtain ⟨_, rfl⟩ := eq_of_single rfl accepted
      cases closing

/-- The operation of a message, which leaves the controls alone. -/
theorem Derives.protocolOp (derives : Derives decoder depth slice .protocolOp draft after) :
    ∃ operation tag content behind middle, slice = operation ++ behind
      ∧ Spells operation tag content ∧ draft.SameControls middle
      ∧ Derives decoder depth behind .afterOp middle after := by
  cases derives with
  | done canEnd => cases canEnd
  | primitive element accepted plain acts further =>
      obtain ⟨rule, listed, _, rfl⟩ := State.exists_rule_of_transition? accepted
      have checked := List.all_eq_true.1 State.rules_protocolOp rule listed
      simp only [plain, Transition.actions, Bool.and_eq_true, List.all_eq_true,
        Bool.not_eq_true', List.mem_append, Option.mem_toList, beq_iff_eq] at checked
      obtain ⟨others, next⟩ := checked
      rw [next] at further
      exact ⟨_, _, _, _, _, rfl, element,
        Draft.perform_sameControls (fun action listed => others action (.inl listed)) acts,
        further⟩
  | constructed element accepted closing opens content ends further =>
      obtain ⟨rule, listed, _, rfl⟩ := State.exists_rule_of_transition? accepted
      have checked := List.all_eq_true.1 State.rules_protocolOp rule listed
      simp only [closing, Transition.actions, Bool.and_eq_true, List.all_eq_true,
        Bool.not_eq_true', List.mem_append, Option.mem_toList, Option.bind_some,
        beq_iff_eq] at checked
      obtain ⟨others, within, resume⟩ := checked
      rw [resume] at further
      have opened := Draft.perform_sameControls
        (fun action listed => others action (.inl listed)) opens
      have ended := Draft.perform_sameControls
        (fun action listed => others action (.inr listed)) ends
      exact ⟨_, _, _, _, _, rfl, element,
        (opened.trans (content.sameControls within)).trans ended, further⟩

/-- What follows the operation is nothing, or the controls and nothing else. -/
theorem Derives.afterOp (derives : Derives decoder depth slice .afterOp draft after) :
    slice = [] ∧ after = draft
    ∨ ∃ parts fields controls, Spells slice 0xA0 parts.flatten
        ∧ List.Forall₂ ControlDraft.Spelled parts fields
        ∧ List.Forall₂ decoder.registry.Makes fields controls
        ∧ after.controls = draft.controls ++ controls := by
  cases derives with
  | done => exact .inl ⟨rfl, rfl⟩
  | primitive _ accepted plain =>
      obtain ⟨_, rfl⟩ := eq_of_single rfl accepted
      cases plain
  | constructed element accepted closing opens content ends further =>
      obtain ⟨tag, rfl⟩ := eq_of_single rfl accepted
      cases closing
      cases opens
      cases ends
      obtain ⟨rfl, rfl⟩ := further.eq_of_rules_nil rfl
      obtain ⟨parts, fields, controls, rfl, spelled, makes, whole⟩ := content.controls rfl
      rw [tag] at element
      rw [List.append_nil]
      exact .inr ⟨parts, fields, controls, element, spelled, makes, whole⟩

/-- What a derivation of a message carries is what its draft holds in the end. -/
theorem Derives.carries {octets : Bytes} (sequence : Spells octets Tag.sequence slice)
    (derives : Derives decoder depth slice .messageId {} after) :
    ∃ fields, Message.Carries octets fields
      ∧ List.Forall₂ decoder.registry.Makes fields after.controls := by
  obtain ⟨identifier, id, behind, middle, rfl, identified, first, further⟩ := derives.messageId
  obtain ⟨operation, tag, content, rest, last, rfl, operates, second, ending⟩ := further.protocolOp
  have none : last.controls = [] := (first.trans second).1
  rcases ending.afterOp with ⟨rfl, rfl⟩ | ⟨parts, fields, controls, listed, spelled, makes, whole⟩
  · rw [List.append_nil] at sequence
    refine ⟨[], .none sequence identified operates, ?_⟩
    rw [none]
    exact .nil
  · refine ⟨fields, .controls sequence identified operates listed spelled, ?_⟩
    rw [whole, none, List.nil_append]
    exact makes

/-- The controls of a message that is read are those that its octets carry. -/
theorem carries_of_message {octets : Bytes} {found : Message}
    (read : message decoder octets = some found) :
    ∃ fields, Message.Carries octets fields
      ∧ List.Forall₂ decoder.registry.Makes fields found.controls := by
  obtain ⟨tlv, value, next, draft, held, _, reads, made⟩ := message_eq_some_iff.1 read
  obtain ⟨front, whole, sequence⟩ := exists_front_of_split held
  rw [List.append_nil] at whole
  subst whole
  obtain ⟨transition, accepted, ⟨plain, _⟩ | ⟨close, opened, closed, closing, _, opens, inner,
    ends⟩⟩ := element_cases reads
  · obtain ⟨_, rfl⟩ := eq_of_single rfl accepted
    cases plain
  · obtain ⟨tag, rfl⟩ := eq_of_single rfl accepted
    cases closing
    cases opens
    cases ends
    rw [tag] at sequence
    have same : found.controls = draft.controls := by
      unfold Draft.toMessage at made
      split at made <;> cases made
      rfl
    rw [same]
    exact (derives_of_content inner).carries sequence

end Descent

namespace Session

variable {decoder : Decoder} {session after : Session} {chunk : Bytes} {message : Message}

/-- **The controls of a message** are those that its octets carry, in order, and nothing else
is carried by them. Each is what the registry makes of its own fields. -/
theorem Reachable.carries_controls (reachable : Reachable decoder session)
    (fed : feed decoder chunk session = .ok (some message) after) :
    (∃ read, Reads decoder session read)
    ∧ ∀ read, Reads decoder session read →
        ∃ taken fields, session.pending ++ chunk = taken ++ after.pending
          ∧ Message.Carries (read ++ taken) fields
          ∧ (∀ others, Message.Carries (read ++ taken) others → others = fields)
          ∧ List.Forall₂ decoder.registry.Makes fields message.controls := by
  refine ⟨reachable.exists_reads (poisoned_feed fed).1, fun read reads => ?_⟩
  obtain ⟨octets, same, found⟩ := Machine.run_returns_iff.1 ⟨_, reads.run_of_feed fed⟩
  obtain ⟨taken, split, _⟩ := accounted_of_feed reads.machine_accounts fed
  rw [split, ← List.append_assoc] at same
  obtain rfl : read ++ taken = octets := List.append_cancel_right same
  obtain ⟨fields, carries, makes⟩ := Descent.carries_of_message found
  exact ⟨taken, fields, split, carries, fun others other => other.unique carries, makes⟩

/-- An unbind request with two controls that nobody knows, of which only the first one has a
value, and one that asks for pages. -/
def unbindWithControls : Bytes :=
  [0x30, 0x3E, 0x02, 0x01, 0x01, 0x42, 0x00, 0xA0, 0x37,
    0x30, 0x08, 0x04, 0x03, 0x31, 0x2E, 0x32, 0x04, 0x01, 0xAA,
    0x30, 0x05, 0x04, 0x03, 0x31, 0x2E, 0x33,
    0x30, 0x24, 0x04, 0x16, 0x31, 0x2E, 0x32, 0x2E, 0x38, 0x34, 0x30, 0x2E, 0x31, 0x31, 0x33,
      0x35, 0x35, 0x36, 0x2E, 0x31, 0x2E, 0x34, 0x2E, 0x33, 0x31, 0x39, 0x01, 0x01, 0xFF,
      0x04, 0x07, 0x30, 0x05, 0x02, 0x01, 0x0A, 0x04, 0x00]

/-- Its controls: the second one has no value, for there is none in its own sequence, and the
value of the third one has been read. -/
def unbindControls : List Control :=
  [{ oid := "1.2", value := .raw [0xAA] }, { oid := "1.3" },
    .ofPayload true (.paged { size := 10 })]

theorem feed_unbindWithControls :
    (match feed {} unbindWithControls {} with
      | .ok (some message) after => message.controls == unbindControls && after.pending.isEmpty
      | _ => false) = true := by
  rw [feed_fresh]
  decide +kernel

/-- Each of the three controls is made of the fields of its own sequence. -/
theorem Reachable.carries_controls_unbind :
    ∃ fields, Message.Carries unbindWithControls fields
      ∧ List.Forall₂ Registry.builtin.Makes fields unbindControls := by
  have received := feed_unbindWithControls
  split at received
  · rename_i message after fed
    simp only [Bool.and_eq_true, beq_iff_eq, List.isEmpty_iff] at received
    obtain ⟨controls, nothing⟩ := received
    obtain ⟨_, carries⟩ := Reachable.carries_controls .fresh fed
    obtain ⟨taken, fields, split, carried, _, makes⟩ := carries [] .fresh
    rw [nothing, List.append_nil] at split
    obtain rfl : _ = taken := split
    rw [controls] at makes
    exact ⟨fields, carried, makes⟩
  · cases received

end Session

end LdapWire
