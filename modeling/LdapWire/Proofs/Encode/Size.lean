import LdapWire.Encode.Plan
import LdapWire.Proofs.Ber.Length

/-!
# Sizes and heights of layouts

`Layout.size` is the number of octets that a layout takes, `Layout.height` the
number of constructed elements that are open at once inside it.
-/

set_option autoImplicit false

namespace LdapWire

open Ber

namespace Plan

theorem elementLength_mono {less more : Nat} (le : less ≤ more) :
    elementLength less ≤ elementLength more := by
  have widths := Length.width_mono le
  unfold elementLength
  omega

theorem elementLength_pos (content : Nat) : 0 < elementLength content := by
  unfold elementLength
  omega

theorem le_elementLength (content : Nat) : content ≤ elementLength content := by
  unfold elementLength
  omega

end Plan

namespace Layout

mutual

/-- The number of octets of a layout. A payload is taken at its word. -/
def size : Layout → Nat
  | .primitive _ content => Plan.elementLength content.length
  | .constructed _ parts => Plan.elementLength (sizeAll parts)
  | .payload value => Plan.elementLength value.encodedLength
  | .refusal _ => 0

/-- The number of octets of layouts next to each other. -/
def sizeAll : List Layout → Nat
  | [] => 0
  | part :: rest => size part + sizeAll rest

end

mutual

/-- The number of constructed elements around the innermost part, at most. -/
def height : Layout → Nat
  | .constructed _ parts => heightAll parts + 1
  | .primitive .. | .payload _ | .refusal _ => 0

/-- The greatest height of some layouts. -/
def heightAll : List Layout → Nat
  | [] => 0
  | part :: rest => max (height part) (heightAll rest)

end

/-- The number of octets inside the outermost element of a layout. -/
def contentSize : Layout → Nat
  | .primitive _ content => content.length
  | .constructed _ parts => sizeAll parts
  | .payload value => value.encodedLength
  | .refusal _ => 0

@[simp] theorem sizeAll_nil : sizeAll [] = 0 := by rw [sizeAll]

@[simp] theorem sizeAll_cons (part : Layout) (rest : List Layout) :
    sizeAll (part :: rest) = size part + sizeAll rest := by
  rw [sizeAll]

@[simp] theorem sizeAll_append (front back : List Layout) :
    sizeAll (front ++ back) = sizeAll front + sizeAll back := by
  induction front with
  | nil => simp
  | cons part rest further => simp [further, Nat.add_assoc]

theorem size_le_sizeAll {part : Layout} {parts : List Layout} (listed : part ∈ parts) :
    size part ≤ sizeAll parts := by
  induction parts with
  | nil => cases listed
  | cons first rest further =>
      rw [sizeAll_cons]
      rcases List.mem_cons.1 listed with rfl | later
      · exact Nat.le_add_right _ _
      · exact Nat.le_add_left_of_le (further later)

@[simp] theorem heightAll_nil : heightAll [] = 0 := by rw [heightAll]

@[simp] theorem heightAll_cons (part : Layout) (rest : List Layout) :
    heightAll (part :: rest) = max (height part) (heightAll rest) := by
  rw [heightAll]

@[simp] theorem heightAll_append (front back : List Layout) :
    heightAll (front ++ back) = max (heightAll front) (heightAll back) := by
  induction front with
  | nil => simp
  | cons part rest further => simp [further, Nat.max_assoc]

@[simp] theorem size_primitive (tag : UInt8) (content : Bytes) :
    size (primitive tag content) = Plan.elementLength content.length := by
  rw [size]

@[simp] theorem size_constructed (tag : UInt8) (parts : List Layout) :
    size (constructed tag parts) = Plan.elementLength (sizeAll parts) := by
  rw [size]

@[simp] theorem size_payload (value : Payload) :
    size (payload value) = Plan.elementLength value.encodedLength := by
  rw [size]

@[simp] theorem size_refusal (violation : Violation) : size (refusal violation) = 0 := by
  rw [size]

@[simp] theorem height_primitive (tag : UInt8) (content : Bytes) :
    height (primitive tag content) = 0 := by
  rw [height]

@[simp] theorem height_constructed (tag : UInt8) (parts : List Layout) :
    height (constructed tag parts) = heightAll parts + 1 := by
  rw [height]

@[simp] theorem height_payload (value : Payload) : height (payload value) = 0 := by
  rw [height]

@[simp] theorem height_refusal (violation : Violation) : height (refusal violation) = 0 := by
  rw [height]

end Layout

end LdapWire
