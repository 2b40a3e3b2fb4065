import LdapWire.Proofs.Ber.Agreement
import LdapWire.Proofs.Reading.Basic
import LdapWire.Proofs.Session.Octet

/-!
# Reading by recursive descent

A message that is there as a whole can be read without a machine: the content of an
element is a slice of the octets, and the elements in it are read one after another,
each with the slice of its own content. `Descent.content` and `Descent.message` read
so by the same grammar, the same actions and the same limits as the machine does.
-/

set_option autoImplicit false

namespace LdapWire.Descent

open Ber
open Grammar (Action State)

/-! ## Slices -/

/-- The element at the front of a slice, its content and the octets behind it, if the
slice holds all of the element. -/
def split (slice : Bytes) : Option (Tlv × Bytes × Bytes) :=
  match Reader.header slice with
  | .ok (tag, length) body =>
      if length ≤ body.length then
        some ({ tag, length, headerLength := slice.length - body.length },
          body.take length, body.drop length)
      else none
  | .error _ _ => none

variable {slice inner behind : Bytes} {tlv : Tlv}

theorem split_eq_some_iff : split slice = some (tlv, inner, behind) ↔
    ∃ tag length body, Reader.header slice = .ok (tag, length) body ∧ length ≤ body.length
      ∧ tlv = { tag, length, headerLength := slice.length - body.length }
      ∧ inner = body.take length ∧ behind = body.drop length := by
  unfold split
  constructor
  · intro found
    split at found
    · rename_i tag length body read
      split at found
      · rename_i fits
        cases found
        exact ⟨tag, length, body, read, fits, rfl, rfl, rfl⟩
      · cases found
    · cases found
  · rintro ⟨tag, length, body, read, fits, rfl, rfl, rfl⟩
    simp only [read, if_pos fits]

/-- What the parts of a slice are like: nothing has been read of the element yet. -/
structure Splits (slice : Bytes) (tlv : Tlv) (inner behind : Bytes) : Prop where
  unread : tlv.consumed = 0
  length : inner.length = tlv.length
  total : tlv.total + behind.length = slice.length
  wide : 0 < tlv.headerLength

theorem splits_of_split (found : split slice = some (tlv, inner, behind)) :
    Splits slice tlv inner behind := by
  obtain ⟨tag, length, body, read, fits, rfl, rfl, rfl⟩ := split_eq_some_iff.1 found
  obtain ⟨_, wide, whole⟩ := Header.announced_of_take (Header.header_eq_ok_iff.1 read)
  have shorter : body.length ≤ slice.length := by
    dsimp only at whole
    omega
  refine ⟨rfl, ?_, ?_, Nat.lt_of_le_of_lt (Nat.zero_le _) wide⟩
  · rw [List.length_take]
    exact Nat.min_eq_left fits
  · rw [List.length_drop, Tlv.total]
    dsimp only
    omega

/-! ## The reader -/

/-- The draft after an action, if there is one and it succeeds. -/
def act (registry : Registry) (action : Option Action) (tlv : Tlv) (draft : Draft) :
    Option Draft :=
  match Draft.perform registry action tlv draft with
  | .ok () after => some after
  | .error _ _ => none

/-- Reads an element inside `depth` others, where `inside` reads its content if it is
constructed. The result is the state after the element with the draft. -/
def element (decoder : Decoder) (depth : Nat) (tlv : Tlv) (value : Bytes)
    (inside : State → Draft → Option Draft) (state : State) (draft : Draft) :
    Option (State × Draft) := do
  let transition ← state.transition? tlv.tag
  match transition.close with
  | none =>
      let draft ← act decoder.registry transition.action (tlv.fill value) draft
      return (transition.next, draft)
  | some close =>
      if decoder.limits.maxDepth ≤ depth then none
      else
        let draft ← act decoder.registry transition.action tlv draft
        let draft ← inside transition.next draft
        let draft ← act decoder.registry close.action tlv draft
        return (close.resume, draft)

/-- Reads the content of an element that has `depth` elements around it, itself
included. -/
def content (decoder : Decoder) (depth : Nat) (slice : Bytes) (state : State) (draft : Draft) :
    Option Draft :=
  if slice = [] then if state.canEnd then some draft else none
  else
    match found : split slice with
    | none => none
    | some (tlv, inner, behind) => do
        have := splits_of_split found
        let (state, draft) ←
          element decoder depth tlv inner (content decoder (depth + 1) inner) state draft
        content decoder depth behind state draft
termination_by slice.length
decreasing_by
  all_goals
    have parts := splits_of_split found
    have whole := parts.total
    have size := parts.length
    have wide := parts.wide
    unfold Tlv.total at whole
    omega

/-- Reads a message that takes up all of the octets. -/
def message (decoder : Decoder) (octets : Bytes) : Option Message := do
  let (tlv, inner, behind) ← split octets
  if behind ≠ [] ∨ decoder.limits.maxPduSize < tlv.total then none
  else
    let (_, draft) ← element decoder 0 tlv inner (content decoder 1 inner) .start {}
    draft.toMessage.toOption

end LdapWire.Descent
