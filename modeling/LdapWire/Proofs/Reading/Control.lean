import LdapWire.Proofs.Reading.Basic

/-!
# Controls that have been read

A control is made by the registry from the fields that were received. It takes no
more octets than they do (`Control.adds_layout`), and a registry that refuses it
says why.
-/

set_option autoImplicit false

namespace LdapWire

open Ber

/-- Whether a registry has made a control from what was received. -/
structure Control.Received (registry : Registry) (control : Control) : Prop where
  oid : control.oid ≠ ""
  read : ∃ value, registry.readControl control.oid control.critical value = .ok control

/-- A control is made as the registry says, which may refuse it. -/
theorem Registry.readControl_eq_ok {registry : Registry} {oid : String} {critical : Bool}
    {value : Option Bytes} {control : Control}
    (read : registry.readControl oid critical value = .ok control) :
    control.oid = oid ∧ control.critical = critical
      ∧ (control.value = value.elim .absent .raw
        ∨ ∃ reader content payload, registry.reader? oid = some reader ∧ value = some content
            ∧ reader content = .ok payload ∧ control.value = .decoded payload) := by
  unfold Registry.readControl at read
  split at read
  · rename_i reader content known
    obtain ⟨payload, parsed, returned⟩ := Content.checked_ok read
    cases returned
    exact ⟨rfl, rfl, .inr ⟨reader, content, payload, known, rfl, parsed, rfl⟩⟩
  · cases read
    exact ⟨rfl, rfl, .inl rfl⟩
  · split at read
    · cases read
    · cases read
      exact ⟨rfl, rfl, .inl rfl⟩

/-- What a registry refuses is no fault of the decoder, unless a reader says so. -/
theorem Registry.blameless_of_readControl {registry : Registry} {oid : String} {critical : Bool}
    {value : Option Bytes} {error : CodecError}
    (refused : registry.readControl oid critical value = .error error) :
    error.Blameless registry := by
  unfold Registry.readControl at refused
  split at refused
  · rename_i reader content known
    rcases Content.checked refused with unreadable | ⟨_, _, returned⟩
    · exact fun _ => ⟨_, reader, content, known, unreadable⟩
    · cases returned
  · cases refused
  · split at refused <;> cases refused
    exact CodecError.blameless_of_eq_false rfl

/-- The layouts of the fields of a control that have been read. -/
def ControlDraft.layouts (fields : ControlDraft) : List Layout :=
  Layout.text Tag.octetString fields.oid
    :: (if fields.critical then [Layout.boolean Tag.boolean true] else [])
    ++ Layout.optional (Layout.primitive Tag.octetString) fields.value

theorem ControlDraft.layouts_value (oid : String) (critical : Bool) (content : Bytes) :
    layouts { oid, critical, value := some content }
      = layouts { oid, critical } ++ [Layout.primitive Tag.octetString content] := by
  simp [layouts, Layout.optional]

theorem ControlDraft.layouts_critical (oid : String) (critical : Bool) :
    layouts { oid, critical }
      = layouts { oid } ++ if critical then [Layout.boolean Tag.boolean true] else [] := by
  simp [layouts, Layout.optional]

theorem ControlValue.heightAll_layouts (value : ControlValue) :
    Layout.heightAll value.layouts = 0 := by
  cases value <;> simp [layouts]

theorem Layout.heightAll_flag (tag : UInt8) (value : Bool) :
    Layout.heightAll (if value then [Layout.boolean tag true] else []) = 0 := by
  cases value <;> simp [Layout.boolean]

/-- The value of a control takes no more octets than it was made from. -/
theorem ControlValue.sizeAll_layouts_le {registry : Registry} (compact : registry.Compact)
    {received : Option Bytes} {value : ControlValue} {oid : String}
    (made : value = received.elim .absent .raw
      ∨ ∃ reader content payload, registry.reader? oid = some reader ∧ received = some content
          ∧ reader content = .ok payload ∧ value = .decoded payload) :
    Layout.sizeAll value.layouts
      ≤ Layout.sizeAll (Layout.optional (Layout.primitive Tag.octetString) received) := by
  rcases made with rfl | ⟨reader, content, payload, known, rfl, parsed, rfl⟩
  · cases received <;> simp [layouts, Layout.optional]
  · have shorter := Plan.elementLength_mono (compact oid reader content payload known parsed)
    simpa [layouts, Layout.optional] using shorter

/-- The layout of a control, unless its payload belongs to another one. -/
theorem Control.layout_eq {control : Control} (nonempty : control.oid ≠ "")
    (matching : control.mismatch? = none) :
    control.layout = .constructed Tag.sequence
      (Layout.text Tag.octetString control.oid
        :: (if control.critical then [Layout.boolean Tag.boolean true] else [])
        ++ control.value.layouts) := by
  simp only [layout, matching, Layout.nonEmptyText_eq nonempty]

/-- A control takes no more octets than the fields it was made from. -/
theorem Control.adds_layout {registry : Registry} {elements : List OpenElement}
    {fields : ControlDraft} {control : Control} (nonempty : fields.oid ≠ "")
    (read : registry.readControl fields.oid fields.critical fields.value = .ok control) :
    Layout.Adds registry elements [control.layout] (Layout.sizeAll fields.layouts)
      (Layout.heightAll fields.layouts + 1) := by
  obtain ⟨oid, critical, value⟩ := Registry.readControl_eq_ok read
  cases mismatch : control.mismatch? with
  | some violation =>
      have refused : control.layout = .refusal violation := by simp only [layout, mismatch]
      rw [refused]
      exact ⟨fun _ => by simp, by simp, fun _ => List.cons_ne_nil _ _⟩
  | none =>
      rw [Control.layout_eq (oid ▸ nonempty) mismatch, oid, critical]
      refine ⟨fun compact => ?_, ?_, fun _ => List.cons_ne_nil _ _⟩
      · have shorter := ControlValue.sizeAll_layouts_le compact value
        rw [Layout.sizeAll_cons, Layout.sizeAll_nil, Nat.add_zero, Layout.size_constructed]
        refine Plan.elementLength_mono ?_
        simp only [ControlDraft.layouts, List.cons_append, Layout.sizeAll_cons,
          Layout.sizeAll_append]
        omega
      · simp [Layout.text, Layout.heightAll_flag, ControlValue.heightAll_layouts]

/-- Controls are left out altogether if there are none. -/
theorem Control.adds_layoutAll {registry : Registry} {elements : List OpenElement}
    (controls : List Control) (outside : ¬ OpenElement.IsConnective elements) :
    Layout.Adds registry elements (Control.layoutAll controls)
      (Layout.sizeAll (controls.map Control.layout))
      (Layout.heightAll (controls.map Control.layout) + 1) := by
  cases controls with
  | nil => exact ⟨fun _ => Nat.zero_le _, Nat.zero_le _, fun inside => absurd inside outside⟩
  | cons first rest => exact Situation.adds_constructed _

end LdapWire
