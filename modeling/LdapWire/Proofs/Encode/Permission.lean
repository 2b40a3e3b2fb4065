import LdapWire.Proofs.Encode.Bytes
import LdapWire.Proofs.WellFormed

/-!
# What the encoder refuses

The encoder refuses a message where the layout of one of its fields is a refusal.
Field by field these are the rules of `WellFormed`, apart from the code of a result,
which may be negative (`Operation.wellFormed_iff`). Only controls carry payloads
(`Message.mem_payloads_iff`).
-/

set_option autoImplicit false

namespace LdapWire

open Ber

namespace Layout

/-! ## Single elements -/

@[simp] theorem permitted_primitive (tag : UInt8) (content : Bytes) :
    (primitive tag content).Permitted := by
  rw [Permitted]
  trivial

@[simp] theorem permitted_payload (value : Payload) : (payload value).Permitted := by
  rw [Permitted]
  trivial

@[simp] theorem permitted_constructed (tag : UInt8) (parts : List Layout) :
    (constructed tag parts).Permitted ↔ AllPermitted parts := by
  rw [Permitted]

@[simp] theorem not_permitted_refusal (violation : Violation) :
    ¬ (refusal violation).Permitted := by
  rw [Permitted]
  exact id

@[simp] theorem permitted_text (tag : UInt8) (value : String) : (text tag value).Permitted :=
  permitted_primitive _ _

@[simp] theorem permitted_integer (tag : UInt8) (value : Int) : (integer tag value).Permitted :=
  permitted_primitive _ _

@[simp] theorem permitted_boolean (tag : UInt8) (value : Bool) : (boolean tag value).Permitted :=
  permitted_primitive _ _

@[simp] theorem permitted_nonEmptyText (tag : UInt8) (value what : String) :
    (nonEmptyText tag value what).Permitted ↔ value ≠ "" := by
  unfold nonEmptyText
  split
  · rename_i empty
    simp [String.isEmpty_iff.1 empty]
  · rename_i nonempty
    simp only [permitted_text, true_iff]
    intro empty
    exact nonempty (String.isEmpty_iff.2 empty)

@[simp] theorem permitted_attributeName (tag : UInt8) (value : String) :
    (attributeName tag value).Permitted ↔ value ≠ "" :=
  permitted_nonEmptyText _ _ _

/-! ## Neighbours -/

@[simp] theorem allPermitted_nil : AllPermitted [] := by
  rw [AllPermitted]
  trivial

@[simp] theorem allPermitted_cons (part : Layout) (rest : List Layout) :
    AllPermitted (part :: rest) ↔ part.Permitted ∧ AllPermitted rest := by
  rw [AllPermitted]

@[simp] theorem allPermitted_append (front back : List Layout) :
    AllPermitted (front ++ back) ↔ AllPermitted front ∧ AllPermitted back := by
  induction front with
  | nil => simp
  | cons part rest further => simp [further, and_assoc]

@[simp] theorem allPermitted_map {α : Type} (layout : α → Layout) (values : List α) :
    AllPermitted (values.map layout) ↔ ∀ value ∈ values, (layout value).Permitted := by
  induction values with
  | nil => simp
  | cons value rest further => simp [further]

@[simp] theorem allPermitted_optional {α : Type} (field : α → Layout) (value : Option α) :
    AllPermitted (optional field value)
      ↔ ∀ present, value = some present → (field present).Permitted := by
  cases value <;> simp [optional]

@[simp] theorem allPermitted_checked (broken : Option Violation) (parts : List Layout) :
    AllPermitted (checked broken parts) ↔ broken = none ∧ AllPermitted parts := by
  cases broken <;> simp [checked]

end Layout

/-! ## Filters -/

theorem Substrings.permitted_layout_iff {pattern : Substrings} :
    pattern.layout.Permitted ↔ pattern.description ≠ ""
      ∧ (pattern.initial.isSome ∨ pattern.any ≠ [] ∨ pattern.final.isSome) := by
  rw [Substrings.layout]
  cases pattern.initial <;> cases pattern.any <;> cases pattern.final <;> simp

theorem ExtensibleMatch.permitted_layout_iff {condition : ExtensibleMatch} :
    condition.layout.Permitted ↔ (condition.rule.isSome ∨ condition.description.isSome)
      ∧ condition.rule ≠ some "" ∧ condition.description ≠ some "" := by
  rw [ExtensibleMatch.layout]
  cases condition.rule <;> cases condition.description <;> cases condition.dnAttributes <;> simp

namespace Filter

mutual

theorem permitted_layout_iff : ∀ {filter : Filter}, filter.layout.Permitted ↔ filter.WellFormed
  | .and [] => by simp [layout, WellFormed]
  | .or [] => by simp [layout, WellFormed]
  | .and (first :: rest) => by
      rw [layout, ← layouts, Layout.permitted_constructed, permitted_layouts_iff, WellFormed]
      simp
  | .or (first :: rest) => by
      rw [layout, ← layouts, Layout.permitted_constructed, permitted_layouts_iff, WellFormed]
      simp
  | .not child => by
      rw [layout, WellFormed, ← permitted_layout_iff]
      simp
  | .compare comparison assertion => by simp [layout, WellFormed, Assertion.layouts]
  | .substrings pattern => by
      rw [layout, WellFormed]
      exact Substrings.permitted_layout_iff
  | .present description => by simp [layout, WellFormed]
  | .extensible condition => by
      rw [layout, WellFormed]
      exact ExtensibleMatch.permitted_layout_iff

theorem permitted_layouts_iff : ∀ {filters : List Filter},
    Layout.AllPermitted (layouts filters) ↔ AllWellFormed filters
  | [] => by simp [layouts, AllWellFormed]
  | filter :: rest => by
      rw [layouts, Layout.allPermitted_cons, permitted_layout_iff, permitted_layouts_iff,
        AllWellFormed]

end

end Filter

/-! ## Operations -/

theorem LdapResult.wellFormed_iff {result : LdapResult} :
    result.WellFormed ↔ Layout.AllPermitted result.layouts ∧ 0 ≤ result.code := by
  have listed : Layout.AllPermitted result.layouts ↔ "" ∉ result.referrals := by
    rw [LdapResult.layouts, ← List.forall_mem_ne']
    cases result.referrals <;> simp
  rw [listed]
  exact ⟨fun valid => ⟨valid.referrals, valid.code⟩, fun ⟨referrals, code⟩ => ⟨code, referrals⟩⟩

@[simp] theorem Attribute.permitted_layout {listed : Attribute} :
    listed.layout.Permitted ↔ listed.description ≠ "" := by
  simp [Attribute.layout]

@[simp] theorem Attribute.permitted_layoutAll {attributes : List Attribute} :
    (Attribute.layoutAll attributes).Permitted
      ↔ ∀ listed ∈ attributes, listed.description ≠ "" := by
  simp [Attribute.layoutAll]

@[simp] theorem Assertion.permitted_layouts {assertion : Assertion} :
    Layout.AllPermitted assertion.layouts ↔ assertion.description ≠ "" := by
  simp [Assertion.layouts]

theorem BindRequest.permitted_layouts_iff {request : BindRequest} :
    Layout.AllPermitted request.layouts ↔ 1 ≤ request.version ∧ request.version ≤ 127 := by
  rw [BindRequest.layouts]
  cases request.authentication <;> simp [Authentication.layout]

theorem SearchRequest.negativeLimit?_eq_none_iff {request : SearchRequest} :
    request.negativeLimit? = none ↔ 0 ≤ request.sizeLimit ∧ 0 ≤ request.timeLimit := by
  unfold negativeLimit?
  by_cases size : request.sizeLimit < 0
  · simp [size]
  · by_cases time : request.timeLimit < 0
    · simp [size, time]
    · simp [Int32.not_lt.1 size, Int32.not_lt.1 time, size, time]

theorem SearchRequest.wellFormed_iff {request : SearchRequest} :
    request.WellFormed ↔ Layout.AllPermitted request.layouts := by
  rw [SearchRequest.layouts]
  simp only [Layout.allPermitted_checked, negativeLimit?_eq_none_iff, Layout.allPermitted_cons,
    Layout.permitted_text, Layout.permitted_integer, Layout.permitted_boolean,
    Layout.permitted_constructed, Layout.allPermitted_map, Layout.allPermitted_nil,
    Filter.permitted_layout_iff, implies_true, and_true, true_and]
  exact ⟨fun valid => ⟨⟨valid.sizeLimit, valid.timeLimit⟩, valid.filter⟩,
    fun ⟨⟨sizeLimit, timeLimit⟩, filter⟩ => ⟨sizeLimit, timeLimit, filter⟩⟩

theorem AddRequest.valueless?_eq_none_iff {request : AddRequest} :
    request.valueless? = none ↔ ∀ listed ∈ request.attributes, listed.values ≠ [] := by
  simp [AddRequest.valueless?]

namespace Operation

variable {operation : Operation}

/-- **The rules of the encoder** are those of the decoder, but for the code of a result. -/
theorem wellFormed_iff : operation.WellFormed ↔ operation.layout.Permitted
    ∧ ∀ result, operation.result? = some result → 0 ≤ result.code := by
  cases operation with
  | bindRequest request =>
      simp [WellFormed, layout, parts, result?, BindRequest.permitted_layouts_iff]
  | bindResponse response => simp [WellFormed, layout, parts, result?, LdapResult.wellFormed_iff]
  | unbindRequest => simp [WellFormed, layout, result?]
  | searchRequest request =>
      simp [WellFormed, layout, parts, result?, SearchRequest.wellFormed_iff]
  | searchResultEntry entry => simp [WellFormed, layout, parts, result?]
  | searchResultReference uris =>
      rw [WellFormed, ← List.forall_mem_ne']
      simp [layout, parts, result?]
  | modifyRequest request => simp [WellFormed, layout, parts, result?, Change.layout]
  | addRequest request =>
      simp [WellFormed, layout, parts, result?, AddRequest.valueless?_eq_none_iff, forall₂_and,
        and_comm]
  | delRequest entry => simp [WellFormed, layout, result?]
  | modifyDnRequest request => simp [WellFormed, layout, parts, result?, ModifyDnRequest.layouts]
  | compareRequest request => simp [WellFormed, layout, parts, result?]
  | abandonRequest id => simp [WellFormed, layout, result?]
  | extendedRequest request => simp [WellFormed, layout, parts, result?]
  | extendedResponse response =>
      obtain ⟨result, name, value⟩ := response
      cases name <;>
        simp [WellFormed, layout, parts, result?, ExtendedResponse.layouts,
          LdapResult.wellFormed_iff, and_right_comm]
  | intermediateResponse response =>
      obtain ⟨name, value⟩ := response
      cases name <;> simp [WellFormed, layout, parts, result?]
  | plain response result => simp [WellFormed, layout, parts, result?, LdapResult.wellFormed_iff]

end Operation

/-! ## Payloads -/

namespace Layout

@[simp] theorem payloads_primitive (tag : UInt8) (content : Bytes) :
    (primitive tag content).payloads = [] := by
  rw [payloads]

@[simp] theorem payloads_payload (value : Payload) : (payload value).payloads = [value] := by
  rw [payloads]

@[simp] theorem payloads_constructed (tag : UInt8) (parts : List Layout) :
    (constructed tag parts).payloads = payloadsAll parts := by
  rw [payloads]

@[simp] theorem payloads_refusal (violation : Violation) : (refusal violation).payloads = [] := by
  rw [payloads]

@[simp] theorem payloads_text (tag : UInt8) (value : String) : (text tag value).payloads = [] :=
  payloads_primitive _ _

@[simp] theorem payloads_integer (tag : UInt8) (value : Int) : (integer tag value).payloads = [] :=
  payloads_primitive _ _

@[simp] theorem payloads_boolean (tag : UInt8) (value : Bool) :
    (boolean tag value).payloads = [] :=
  payloads_primitive _ _

@[simp] theorem payloads_nonEmptyText (tag : UInt8) (value what : String) :
    (nonEmptyText tag value what).payloads = [] := by
  unfold nonEmptyText
  split <;> simp

@[simp] theorem payloads_attributeName (tag : UInt8) (value : String) :
    (attributeName tag value).payloads = [] :=
  payloads_nonEmptyText _ _ _

@[simp] theorem payloadsAll_nil : payloadsAll [] = [] := by rw [payloadsAll]

@[simp] theorem payloadsAll_cons (part : Layout) (rest : List Layout) :
    payloadsAll (part :: rest) = part.payloads ++ payloadsAll rest := by
  rw [payloadsAll]

@[simp] theorem payloadsAll_append (front back : List Layout) :
    payloadsAll (front ++ back) = payloadsAll front ++ payloadsAll back := by
  induction front with
  | nil => simp
  | cons part rest further => simp [further]

@[simp] theorem payloadsAll_map {α : Type} (layout : α → Layout) (values : List α) :
    payloadsAll (values.map layout) = values.flatMap fun value => (layout value).payloads := by
  induction values with
  | nil => simp
  | cons value rest further => simp [further]

@[simp] theorem payloadsAll_optional {α : Type} (field : α → Layout) (value : Option α) :
    payloadsAll (optional field value)
      = value.toList.flatMap fun present => (field present).payloads :=
  (payloadsAll_map field value.toList).symm ▸ by cases value <;> rfl

theorem payloadsAll_checked {broken : Option Violation} {parts : List Layout}
    (plain : payloadsAll parts = []) : payloadsAll (checked broken parts) = [] := by
  cases broken <;> simp [checked, plain]

end Layout

namespace Filter

mutual

@[simp] theorem payloads_layout : ∀ filter : Filter, filter.layout.payloads = []
  | .and [] | .or [] => by simp [layout]
  | .and (first :: rest) | .or (first :: rest) => by
      simp [layout, payloads_layout first, payloadsAll_layouts rest]
  | .not child => by simp [layout, payloads_layout child]
  | .compare comparison assertion => by simp [layout, Assertion.layouts]
  | .substrings pattern => by
      rw [layout, Substrings.layout, Layout.payloads_constructed]
      exact Layout.payloadsAll_checked (by simp)
  | .present description => by simp [layout]
  | .extensible condition => by
      rw [layout, ExtensibleMatch.layout, Layout.payloads_constructed]
      refine Layout.payloadsAll_checked ?_
      cases condition.dnAttributes <;> simp

theorem payloadsAll_layouts : ∀ filters : List Filter, Layout.payloadsAll (layouts filters) = []
  | [] => by simp [layouts]
  | filter :: rest => by simp [layouts, payloads_layout filter, payloadsAll_layouts rest]

end

end Filter

@[simp] theorem LdapResult.payloadsAll_layouts (result : LdapResult) :
    Layout.payloadsAll result.layouts = [] := by
  rw [LdapResult.layouts]
  cases result.referrals <;> simp

@[simp] theorem Attribute.payloads_layout (listed : Attribute) : listed.layout.payloads = [] := by
  simp [Attribute.layout]

@[simp] theorem Attribute.payloads_layoutAll (attributes : List Attribute) :
    (Attribute.layoutAll attributes).payloads = [] := by
  simp [Attribute.layoutAll]

/-- No operation carries a payload. -/
theorem Operation.payloads_layout (operation : Operation) : operation.layout.payloads = [] := by
  cases operation with
  | unbindRequest | delRequest | abandonRequest => simp [layout]
  | bindRequest request =>
      refine Layout.payloadsAll_checked ?_
      cases request.authentication <;> simp [Authentication.layout]
  | searchRequest request => exact Layout.payloadsAll_checked (by simp)
  | searchResultReference uris => exact Layout.payloadsAll_checked (by simp)
  | addRequest request => exact Layout.payloadsAll_checked (by simp)
  | _ =>
      simp [layout, parts, Change.layout, Assertion.layouts, ModifyDnRequest.layouts,
        ExtendedResponse.layouts]

/-! ## Messages -/

theorem ControlValue.mem_payloads_iff {carried : ControlValue} {value : Payload} :
    value ∈ Layout.payloadsAll carried.layouts ↔ carried = .decoded value := by
  cases carried <;> simp [ControlValue.layouts, eq_comm]

namespace Control

variable {control : Control}

theorem permitted_layout_iff :
    control.layout.Permitted ↔ control.oid ≠ "" ∧ control.mismatch? = none := by
  have carried : Layout.AllPermitted control.value.layouts := by
    cases control.value <;> simp [ControlValue.layouts]
  rw [Control.layout]
  cases control.mismatch? with
  | some violation => simp
  | none => cases control.critical <;> simp [carried]

theorem mem_payloads_iff (permitted : control.layout.Permitted) {value : Payload} :
    value ∈ control.layout.payloads ↔ control.value = .decoded value := by
  rw [Control.layout, (permitted_layout_iff.1 permitted).2, ← ControlValue.mem_payloads_iff]
  cases control.critical <;> simp

end Control

namespace Message

variable {message : Message}

theorem permitted_layout_iff : message.layout.Permitted ↔ message.operation.layout.Permitted
    ∧ ∀ control ∈ message.controls, control.layout.Permitted := by
  rw [Message.layout, Control.layoutAll]
  cases message.controls <;> simp

/-- The payloads of a message are those of its controls. -/
theorem mem_payloads_iff (permitted : message.layout.Permitted) {value : Payload} :
    value ∈ message.layout.payloads ↔
      ∃ control ∈ message.controls, control.value = .decoded value := by
  have inside : message.layout.payloads
      = message.controls.flatMap fun control => control.layout.payloads := by
    rw [Message.layout, Control.layoutAll]
    cases message.controls <;> simp [Operation.payloads_layout]
  rw [inside, List.mem_flatMap]
  refine exists_congr fun control => and_congr_right fun listed => ?_
  exact Control.mem_payloads_iff ((permitted_layout_iff.1 permitted).2 control listed)

end Message

end LdapWire
