import LdapWire.Proofs.Descent.Refinement

/-!
# Derivations

A derivation of the content of an element says which elements it is made of, by which
rules of the grammar they are accepted and what their actions make of the draft. Every
content that the descent reads has one (`Descent.derives_of_content`), so what holds of
all derivations can be proved by induction on them.

The elements of a derivation are given by their own octets (`Ber.Spells`), which follow
one another in the content.
-/

set_option autoImplicit false

namespace LdapWire

open Ber
open Grammar (Close Rule State Transition)

/-! ## The octets of an element -/

namespace Ber

/-- Whether octets are an element with a tag and a content, and nothing else. -/
def Spells (octets : Bytes) (tag : UInt8) (content : Bytes) : Prop :=
  Reader.header octets = .ok (tag, content.length) content

/-- The octets of a header are at the front of those that it is found in. -/
theorem Header.exists_front_of_take {input left : Bytes} {header after : Header} {tlv : Tlv}
    (taken : take input header = .ok (some tlv, left) after) :
    ∃ front, input = front ++ left ∧ take front header = .ok (some tlv, []) after := by
  obtain ⟨front, octet, middle, rfl, before, pushed⟩ := take_eq_some_iff.1 taken
  exact ⟨front ++ [octet], by rw [List.append_assoc, List.singleton_append],
    take_eq_some_iff.2 ⟨front, octet, middle, rfl, before, pushed⟩⟩

end Ber

namespace Descent

variable {decoder : Decoder} {depth : Nat} {slice value behind : Bytes} {state next : State}
  {draft after : Draft} {tlv : Tlv} {inside : State → Draft → Option Draft}

/-- The element at the front of a slice is spelled by the octets there. -/
theorem exists_front_of_split (found : split slice = some (tlv, value, behind)) :
    ∃ front, slice = front ++ behind ∧ Spells front tlv.tag value := by
  obtain ⟨tag, length, body, read, fits, rfl, rfl, rfl⟩ := split_eq_some_iff.1 found
  obtain ⟨head, split, alone⟩ := Header.exists_front_of_take (Header.header_eq_ok_iff.1 read)
  have size : (body.take length).length = length := by
    rw [List.length_take]
    exact Nat.min_eq_left fits
  refine ⟨head ++ body.take length, ?_, ?_⟩
  · rw [List.append_assoc, List.take_append_drop]
    exact split
  · have whole := Header.header_append (Header.header_of_take alone) (body.take length)
    rw [List.nil_append] at whole
    rw [Spells, size]
    exact whole

/-! ## Derivations of contents -/

/-- How the content of an element is read: nothing is left of it and the state allows it to
end, or an element that the state accepts is read, and then what is behind it. -/
inductive Derives (decoder : Decoder) : (depth : Nat) → Bytes → State → Draft → Draft → Prop where
  | done {depth : Nat} {state : State} {draft : Draft} (canEnd : state.canEnd = true) :
      Derives decoder depth [] state draft draft
  | primitive {depth : Nat} {front behind : Bytes} {state : State} {draft middle after : Draft}
      {tlv : Tlv} {transition : Transition} (element : Spells front tlv.tag tlv.value)
      (accepted : state.transition? tlv.tag = some transition)
      (plain : transition.close = none)
      (acts : Draft.perform decoder.registry transition.action tlv draft = .ok () middle)
      (further : Derives decoder depth behind transition.next middle after) :
      Derives decoder depth (front ++ behind) state draft after
  | constructed {depth : Nat} {front value behind : Bytes} {state : State}
      {draft opened inside middle after : Draft} {tlv : Tlv} {transition : Transition}
      {close : Close} (element : Spells front tlv.tag value)
      (accepted : state.transition? tlv.tag = some transition)
      (closing : transition.close = some close)
      (opens : Draft.perform decoder.registry transition.action tlv draft = .ok () opened)
      (content : Derives decoder (depth + 1) value transition.next opened inside)
      (ends : Draft.perform decoder.registry close.action tlv inside = .ok () middle)
      (further : Derives decoder depth behind close.resume middle after) :
      Derives decoder depth (front ++ behind) state draft after

/-- An element that is read is accepted by the state, and is primitive or has a content. -/
theorem element_cases (read : element decoder depth tlv value inside state draft
      = some (next, after)) :
    ∃ transition, state.transition? tlv.tag = some transition
      ∧ (transition.close = none ∧ next = transition.next
          ∧ Draft.perform decoder.registry transition.action (tlv.fill value) draft = .ok () after
        ∨ ∃ close opened closed, transition.close = some close ∧ next = close.resume
          ∧ Draft.perform decoder.registry transition.action tlv draft = .ok () opened
          ∧ inside transition.next opened = some closed
          ∧ Draft.perform decoder.registry close.action tlv closed = .ok () after) := by
  cases accepted : state.transition? tlv.tag with
  | none => simp [element, accepted] at read
  | some transition =>
      refine ⟨transition, rfl, ?_⟩
      cases closing : transition.close with
      | none =>
          obtain ⟨same, acted⟩ := (element_primitive_iff accepted closing).1 read
          exact .inl ⟨rfl, same, act_eq_some_iff.1 acted⟩
      | some close =>
          by_cases deep : decoder.limits.maxDepth ≤ depth
          · rw [element_of_deep accepted closing deep] at read
            cases read
          · obtain ⟨same, opened, closed, opens, reads, ends⟩ :=
              (element_constructed_iff accepted closing (Nat.not_le.1 deep)).1 read
            exact .inr ⟨close, opened, closed, rfl, same, act_eq_some_iff.1 opens, reads,
              act_eq_some_iff.1 ends⟩

/-- **Every content that is read** has a derivation. The content of its first element and the
octets behind that are shorter than the whole. -/
theorem derives_of_content (read : content decoder depth slice state draft = some after) :
    Derives decoder depth slice state draft after := by
  induction size : slice.length using Nat.strongRecOn
    generalizing depth slice state draft after with
  | ind count further =>
      by_cases empty : slice = []
      · subst empty
        rw [content_nil] at read
        split at read
        · rename_i canEnd
          cases read
          exact .done canEnd
        · cases read
      · obtain ⟨tlv, value, behind, next, middle, found, reads, rest⟩ :=
          (content_eq_some_iff empty).1 read
        have parts := splits_of_split found
        have whole := parts.total
        have wide := parts.wide
        have length := parts.length
        unfold Tlv.total at whole
        obtain ⟨front, rfl, spelled⟩ := exists_front_of_split found
        have last := further behind.length (by omega) rest rfl
        obtain ⟨transition, accepted, ⟨plain, rfl, acts⟩
          | ⟨close, opened, closed, closing, rfl, opens, inner, ends⟩⟩ := element_cases reads
        · have kept : (tlv.fill value).value = value := by
            obtain ⟨tag, length, body, _, _, rfl, _, _⟩ := split_eq_some_iff.1 found
            exact Tlv.value_fill _ value
          have element : Spells front (tlv.fill value).tag (tlv.fill value).value := by
            rw [kept]
            exact spelled
          exact .primitive element accepted plain acts last
        · exact .constructed spelled accepted closing opens
            (further value.length (by omega) inner rfl) ends last

end Descent

end LdapWire
