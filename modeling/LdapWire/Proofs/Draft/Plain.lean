import LdapWire.Proofs.Failure

/-!
# Actions that have nothing to do with controls

Every action but those on controls fails only where it finds fault with the value of
its element, and it neither reads nor writes the controls of the draft
(`Draft.plain_act`). The first four actions on a control set the fields of the open one,
and leave those alone that are finished (`Draft.blind_act`); only the last one asks the
registry.
-/

set_option autoImplicit false

namespace LdapWire

open Ber (Tlv)
open CodecError (FaultsValue)
open Grammar (Action)

/-! ## Filters -/

namespace FilterBuilder

theorem attach_failsAs (kind : NodeKind) : (attach kind).FailsAs FaultsValue := by
  intro builder error after failed
  unfold attach at failed
  dsimp only at failed
  split at failed
  · cases failed
    trivial
  · split at failed <;> cases failed

theorem openConnective_failsAs (connective : Connective) :
    (openConnective connective).FailsAs FaultsValue :=
  .bind (attach_failsAs _) fun _ => .modify _

theorem addLeaf_failsAs (filter : Filter) : (addLeaf filter).FailsAs FaultsValue :=
  .bind (attach_failsAs _) fun _ => .modify _

theorem closeConnective_failsAs : closeConnective.FailsAs FaultsValue := by
  intro builder error after failed
  unfold closeConnective at failed
  split at failed
  · cases failed
    trivial
  · dsimp only at failed
    split at failed <;> cases failed
    trivial

theorem currentLeaf_failsAs : currentLeaf.FailsAs FaultsValue := by
  intro builder error after failed
  unfold currentLeaf at failed
  split at failed <;> cases failed
  trivial

theorem replaceLeaf_failsAs (filter : Filter) : (replaceLeaf filter).FailsAs FaultsValue := by
  intro builder error after failed
  unfold replaceLeaf at failed
  split at failed <;> cases failed
  trivial

theorem takeAll_failsAs (children : List Nat) : (takeAll children).FailsAs FaultsValue := by
  induction children with
  | nil => exact .pure _
  | cons child rest further =>
      refine .bind (fun _ _ _ failed => by cases failed) fun slots => ?_
      split
      · exact .throw trivial
      · exact .bind (.modify _) fun _ => .bind further fun _ => .pure _

theorem toFilter_failsAs (kind : NodeKind) (children : List Filter) :
    (kind.toFilter children).FailsAs FaultsValue := by
  unfold NodeKind.toFilter
  split
  · exact .ok _
  · exact .ok _
  · exact .ok _
  · split
    · exact .error trivial
    · exact .ok _

theorem assemble_failsAs (nodes : List (Node × Nat)) : (assemble nodes).FailsAs FaultsValue := by
  induction nodes with
  | nil => exact .pure _
  | cons node rest further =>
      exact .bind (takeAll_failsAs _) fun children =>
        .bind (.lift (toFilter_failsAs _ children)) fun _ => .bind (.modify _) fun _ => further

theorem tree_failsAs (nodes : Array Node) (root : Nat) : (tree nodes root).FailsAs FaultsValue := by
  intro error failed
  unfold tree at failed
  dsimp only at failed
  split at failed
  · rename_i unmade
    cases failed
    exact assemble_failsAs _ _ _ _ unmade
  · split at failed <;> cases failed
    trivial

theorem finish_failsAs : finish.FailsAs FaultsValue := by
  intro builder error after failed
  unfold finish at failed
  split at failed
  · cases failed
    trivial
  · split at failed
    · cases failed
      trivial
    · split at failed <;> cases failed
      rename_i unmade
      exact tree_failsAs _ _ _ unmade

end FilterBuilder

/-! ## Plain steps -/

namespace Draft

/-- The draft with other controls. -/
def mapControls (finished : List Control → List Control)
    (fields : Option ControlDraft → Option ControlDraft) (draft : Draft) : Draft :=
  { draft with
    controls := finished draft.controls
    openControl := fields draft.openControl }

/-- Whether a step on a draft fails only where it finds fault with a value, and has
nothing to do with controls. -/
structure Plain {α : Type} (step : Step Draft α) : Prop where
  fails : step.FailsAs FaultsValue
  blind : ∀ finished fields, step.Commutes (mapControls finished fields)

namespace Plain

variable {α β : Type}

theorem throw (violation : Violation) :
    Plain (MonadExcept.throw (.violation violation) : Step Draft α) :=
  ⟨.throw trivial, fun _ _ => .throw _⟩

theorem lift {result : Codec α} (fails : result.FailsAs FaultsValue) : Plain (Step.lift result) :=
  ⟨.lift fails, fun _ _ => .lift result⟩

theorem bind {first : Step Draft α} {next : α → Step Draft β} (plain : Plain first)
    (further : ∀ value, Plain (next value)) : Plain (first >>= next) :=
  ⟨.bind plain.fails fun value => (further value).fails,
    fun finished fields => .bind (plain.blind finished fields)
      fun value => (further value).blind finished fields⟩

end Plain

section SameControls

variable {draft after : Draft}

/-- The part of a draft that controls are collected in. -/
def SameControls (draft after : Draft) : Prop :=
  after.controls = draft.controls ∧ after.openControl = draft.openControl

theorem SameControls.trans {middle : Draft} (first : draft.SameControls middle)
    (second : middle.SameControls after) : draft.SameControls after :=
  ⟨second.1.trans first.1, second.2.trans first.2⟩

/-- What has nothing to do with controls leaves them alone. -/
theorem Plain.sameControls {α : Type} {step : Step Draft α} {value : α} (plain : Plain step)
    (ran : step draft = .ok value after) : draft.SameControls after := by
  have blind := plain.blind (fun _ => draft.controls) (fun _ => draft.openControl) draft
  have unchanged : mapControls (fun _ => draft.controls) (fun _ => draft.openControl) draft
      = draft := rfl
  rw [unchanged, ran] at blind
  obtain ⟨_, same⟩ := EStateM.Result.ok.inj blind
  rw [same]
  exact ⟨rfl, rfl⟩

end SameControls

/-! ### Single changes -/

theorem plain_start (operation : Operation) : Plain (start operation) where
  fails draft error after failed := by
    unfold start at failed
    split at failed <;> cases failed
    trivial
  blind finished fields draft := by
    obtain ⟨id, present, controls, openControl, openAttribute, changeKind, filter⟩ := draft
    cases present <;> rfl

theorem plain_update (kind : OperationKind) (change : Operation → Option Operation) :
    Plain (update kind change) where
  fails draft error after failed := by
    unfold update at failed
    split at failed <;> cases failed
    trivial
  blind finished fields draft := by
    simp only [update, mapControls]
    cases draft.operation.bind change <;> rfl

theorem plain_updateResult (change : LdapResult → LdapResult) : Plain (updateResult change) where
  fails draft error after failed := by
    unfold updateResult at failed
    split at failed <;> cases failed
    trivial
  blind finished fields draft := by
    simp only [updateResult, mapControls]
    cases draft.operation.bind (Operation.modifyResult? change) <;> rfl

theorem plain_updateAttribute (change : Attribute → Attribute) :
    Plain (updateAttribute change) where
  fails draft error after failed := by
    unfold updateAttribute at failed
    split at failed <;> cases failed
    trivial
  blind finished fields draft := by
    obtain ⟨id, operation, controls, openControl, openAttribute, changeKind, filter⟩ := draft
    cases openAttribute <;> rfl

theorem plain_onFilter {α : Type} {step : Step FilterBuilder α}
    (fails : step.FailsAs FaultsValue) : Plain (onFilter step) where
  fails draft error after failed := by
    unfold onFilter at failed
    split at failed <;> cases failed
    rename_i stuck
    exact fails _ _ _ stuck
  blind finished fields draft := by
    simp only [onFilter, mapControls]
    cases step draft.filter <;> rfl

theorem plain_updateLeaf (mismatch : Violation) (change : Filter → Option Filter) :
    Plain (updateLeaf mismatch change) := by
  refine plain_onFilter (.bind FilterBuilder.currentLeaf_failsAs fun filter => ?_)
  split
  · exact FilterBuilder.replaceLeaf_failsAs _
  · exact .throw trivial

theorem plain_checkExtensible : Plain checkExtensible := by
  refine plain_onFilter (.bind FilterBuilder.currentLeaf_failsAs fun filter => ?_)
  split
  · split
    · exact .throw trivial
    · exact .pure _
  · exact .throw trivial

theorem plain_updateAssertion (change : Assertion → Assertion) :
    Plain (updateAssertion change) where
  fails draft error after failed := by
    unfold updateAssertion at failed
    split at failed
    · cases failed
    · exact (plain_updateLeaf _ _).fails _ _ _ failed
  blind finished fields draft := by
    obtain ⟨id, operation, controls, openControl, openAttribute, changeKind, filter⟩ := draft
    cases operation with
    | none => exact (plain_updateLeaf _ _).blind finished fields _
    | some operation =>
        cases operation with
        | compareRequest request => rfl
        | _ => exact (plain_updateLeaf _ _).blind finished fields _

theorem plain_setEntryName (name : String) : Plain (setEntryName name) where
  fails draft error after failed := by
    unfold setEntryName at failed
    split at failed <;> cases failed
    trivial
  blind finished fields draft := by
    obtain ⟨id, operation, controls, openControl, openAttribute, changeKind, filter⟩ := draft
    cases operation with
    | none => rfl
    | some operation => cases operation <;> rfl

theorem addAttribute_failsAs (addition : Attribute) (kind : Option ChangeKind)
    (operation : Option Operation) :
    (addAttribute addition kind operation).FailsAs FaultsValue := by
  unfold addAttribute
  repeat' split
  all_goals first | exact .ok _ | exact .error trivial

theorem plain_finishAttribute : Plain finishAttribute where
  fails draft error after failed := by
    unfold finishAttribute at failed
    split at failed
    · cases failed
      trivial
    · dsimp only at failed
      split at failed <;> cases failed
      rename_i refused
      exact addAttribute_failsAs _ _ _ _ refused
  blind finished fields draft := by
    obtain ⟨id, operation, controls, openControl, openAttribute, changeKind, filter⟩ := draft
    cases openAttribute with
    | none => rfl
    | some addition =>
        simp only [finishAttribute, mapControls]
        cases addAttribute addition changeKind operation <;> rfl

end Draft

/-! ## Actions -/

/-- Whether an action is one of those on controls. -/
def Grammar.Action.isOnControls : Action → Bool
  | .startControl | .setControlType | .setControlCriticality | .setControlValue
  | .finishControl => true
  | _ => false

namespace Draft

/-- **An action that is not on controls** has nothing to do with them. -/
theorem plain_act (registry : Registry) {action : Action} (other : action.isOnControls = false)
    (tlv : Tlv) : Plain (act registry action tlv) := by
  have text (what : String) : Plain (Step.lift (Ber.Utf8.decode tlv.value what)) :=
    .lift (Ber.Utf8.decode_failsAs _ what)
  have nonEmpty (what : String) : Plain (Step.lift (nonEmptyText tlv.value what)) :=
    .lift (nonEmptyText_failsAs _ what)
  have truth : Plain (Step.lift (Ber.Boolean.decode tlv.value)) :=
    .lift (Ber.Boolean.decode_failsAs _)
  have integer : Plain (Step.lift (Ber.Integer.decodeBounded tlv.value)) :=
    .lift (Ber.Integer.decodeBounded_failsAs _)
  have limit (what : String) : Plain (Step.lift (nonNegative tlv.value what)) :=
    .lift (nonNegative_failsAs _ what)
  have assign (change : Draft → Draft) (blind : ∀ finished fields draft,
      change (mapControls finished fields draft) = mapControls finished fields (change draft)) :
      Plain (modify change) :=
    ⟨.modify _, fun finished fields draft =>
      congrArg (EStateM.Result.ok ()) (blind finished fields draft)⟩
  cases action with
  | startControl | setControlType | setControlCriticality | setControlValue | finishControl =>
      cases other
  | setMessageId => exact .bind integer fun _ => assign _ fun _ _ _ => rfl
  | openOperation kind => exact plain_start _
  | setUnbindRequest =>
      rw [act]
      split
      · exact .throw _
      · exact plain_start _
  | setDelRequest => exact .bind (text _) fun _ => plain_start _
  | setAbandonRequest => exact .bind integer fun _ => plain_start _
  | setSimpleAuth | openSaslAuth | setSaslCredentials | setServerSaslCreds
  | setExtendedResponseValue | setExtendedRequestValue | setIntermediateValue =>
      exact plain_update _ _
  | setBindName | setSaslMechanism | setSearchBase | addSelectedAttribute | setModifyObject
  | setModDnEntry | setModDnNewSuperior | setCompareEntry =>
      exact .bind (text _) fun _ => plain_update _ _
  | setExtendedResponseName | setModDnNewRdn | addReferenceUri | setExtendedRequestName
  | setIntermediateName =>
      exact .bind (nonEmpty _) fun _ => plain_update _ _
  | setSearchTypesOnly | setModDnDeleteOld => exact .bind truth fun _ => plain_update _ _
  | setSearchSizeLimit | setSearchTimeLimit => exact .bind (limit _) fun _ => plain_update _ _
  | setBindVersion => exact .bind (.lift (bindVersion_failsAs _)) fun _ => plain_update _ _
  | setSearchScope =>
      exact .bind (.lift (enumerated_failsAs SearchScope.ofCode_failsAs _))
        fun _ => plain_update _ _
  | setSearchDeref =>
      exact .bind (.lift (enumerated_failsAs AliasPolicy.ofCode_failsAs _))
        fun _ => plain_update _ _
  | setResultCode => exact .bind (.lift (resultCode_failsAs _)) fun _ => plain_updateResult _
  | setMatchedDn | setDiagnosticMessage => exact .bind (text _) fun _ => plain_updateResult _
  | addReferral => exact .bind (nonEmpty _) fun _ => plain_updateResult _
  | storeSearchFilter =>
      exact .bind (plain_onFilter FilterBuilder.finish_failsAs) fun _ => plain_update _ _
  | openConnective connective =>
      rw [act]
      split
      · exact .throw _
      · exact plain_onFilter (FilterBuilder.openConnective_failsAs _)
  | closeConnective => exact plain_onFilter FilterBuilder.closeConnective_failsAs
  | openComparison | openSubstrings | openExtensible =>
      exact plain_onFilter (FilterBuilder.addLeaf_failsAs _)
  | closeExtensible => exact plain_checkExtensible
  | addPresent =>
      exact .bind (nonEmpty _) fun _ => plain_onFilter (FilterBuilder.addLeaf_failsAs _)
  | setAvaDesc => exact .bind (nonEmpty _) fun _ => plain_updateAssertion _
  | setAvaValue =>
      exact plain_updateAssertion fun assertion => { assertion with value := tlv.value }
  | setSubstringsType | setMatchingRule | setExtensibleType =>
      exact .bind (nonEmpty _) fun _ => plain_updateLeaf _ _
  | setSubstringInitial | addSubstringAny | setSubstringFinal | setMatchValue =>
      exact plain_updateLeaf _ _
  | setDnAttributes => exact .bind truth fun _ => plain_updateLeaf _ _
  | setEntryName => exact .bind (text _) fun _ => plain_setEntryName _
  | startAttribute => exact assign _ fun _ _ _ => rfl
  | setAttributeType => exact .bind (nonEmpty _) fun _ => plain_updateAttribute _
  | addAttributeValue => exact plain_updateAttribute _
  | finishAttribute => exact plain_finishAttribute
  | setChangeOperation =>
      exact .bind (.lift (enumerated_failsAs ChangeKind.ofCode_failsAs _))
        fun _ => assign _ fun _ _ _ => rfl

theorem updateControl_failsAs (change : ControlDraft → ControlDraft) :
    (updateControl change).FailsAs FaultsValue := by
  intro draft error after failed
  unfold updateControl at failed
  split at failed <;> cases failed
  trivial

theorem blind_updateControl (change : ControlDraft → ControlDraft)
    (finished : List Control → List Control) :
    (updateControl change).Commutes (mapControls finished fun fields => fields) := by
  intro draft
  obtain ⟨id, operation, controls, openControl, openAttribute, changeKind, filter⟩ := draft
  cases openControl <;> rfl

variable {action : Action}

/-- **Before a control is finished** only values are refused. -/
theorem act_failsAs (registry : Registry) (unfinished : action ≠ .finishControl) (tlv : Tlv) :
    (act registry action tlv).FailsAs FaultsValue := by
  cases onControls : action.isOnControls with
  | false => exact (plain_act registry onControls tlv).fails
  | true =>
      cases action with
      | startControl => exact .modify _
      | setControlType =>
          exact .bind (.lift (nonEmptyText_failsAs _ _)) fun _ => updateControl_failsAs _
      | setControlCriticality =>
          exact .bind (.lift (Ber.Boolean.decode_failsAs _)) fun _ => updateControl_failsAs _
      | setControlValue => exact updateControl_failsAs _
      | finishControl => exact absurd rfl unfinished
      | _ => cases onControls

/-- **Before a control is finished** those that are finished do not matter. -/
theorem blind_act (registry : Registry) (unfinished : action ≠ .finishControl) (tlv : Tlv)
    (finished : List Control → List Control) :
    (act registry action tlv).Commutes (mapControls finished fun fields => fields) := by
  cases onControls : action.isOnControls with
  | false => exact (plain_act registry onControls tlv).blind finished _
  | true =>
      cases action with
      | startControl => exact fun _ => rfl
      | setControlType => exact .bind (.lift _) fun _ => blind_updateControl _ finished
      | setControlCriticality => exact .bind (.lift _) fun _ => blind_updateControl _ finished
      | setControlValue => exact blind_updateControl _ finished
      | finishControl => exact absurd rfl unfinished
      | _ => cases onControls

/-- Only the end of a control asks the registry. -/
theorem act_registry (registry other : Registry) (unfinished : action ≠ .finishControl)
    (tlv : Tlv) : act registry action tlv = act other action tlv := by
  cases action with
  | finishControl => exact absurd rfl unfinished
  | _ => rfl

end Draft

end LdapWire
