import LdapWire.Ber.Tag

/-!
# Search filters

The filter tree of a search request. The four comparisons of an attribute with
a value share one constructor and are told apart by `Comparison`.

A filter holds lists of filters, so its decidable equality is written by
recursion on the tree (`Filter.decideEq`).
-/

set_option autoImplicit false

namespace LdapWire

/-- How an assertion compares an attribute with its value. -/
inductive Comparison where
  | equality
  | greaterOrEqual
  | lessOrEqual
  | approx
deriving DecidableEq

/-- The connectives that hold other filters. -/
inductive Connective where
  | and
  | or
  | not
deriving DecidableEq

/-- An attribute description with the value it is compared to. -/
structure Assertion where
  description : String := ""
  value : Bytes := []
deriving DecidableEq

/-- An attribute value described by its parts, in order. -/
structure Substrings where
  description : String := ""
  initial : Option Bytes := none
  any : List Bytes := []
  final : Option Bytes := none
deriving DecidableEq

/-- A value matched by a named rule, on one attribute or on all that the rule
applies to, and optionally on the attributes of the entry's name as well. -/
structure ExtensibleMatch where
  rule : Option String := none
  description : Option String := none
  value : Bytes := []
  dnAttributes : Bool := false
deriving DecidableEq

/-- A search filter. -/
inductive Filter where
  | and (children : List Filter)
  | or (children : List Filter)
  | not (child : Filter)
  | compare (comparison : Comparison) (assertion : Assertion)
  | substrings (pattern : Substrings)
  | present (description : String)
  | extensible (condition : ExtensibleMatch)

namespace Filter

/-! ## Decidable equality -/

mutual

/-- Decides whether two filters are the same tree. -/
def decideEq : (left right : Filter) → Decidable (left = right)
  | .and left, .and right | .or left, .or right =>
      match decideEqAll left right with
      | .isTrue same => .isTrue (by rw [same])
      | .isFalse differ => .isFalse (by simpa using differ)
  | .not left, .not right =>
      match decideEq left right with
      | .isTrue same => .isTrue (by rw [same])
      | .isFalse differ => .isFalse (by simpa using differ)
  | .compare leftKind left, .compare rightKind right =>
      decidable_of_iff (leftKind = rightKind ∧ left = right) (by simp)
  | .substrings left, .substrings right => decidable_of_iff (left = right) (by simp)
  | .present left, .present right => decidable_of_iff (left = right) (by simp)
  | .extensible left, .extensible right => decidable_of_iff (left = right) (by simp)
  | .and _, .or _ | .and _, .not _ | .and _, .compare .. | .and _, .substrings _
  | .and _, .present _ | .and _, .extensible _
  | .or _, .and _ | .or _, .not _ | .or _, .compare .. | .or _, .substrings _
  | .or _, .present _ | .or _, .extensible _
  | .not _, .and _ | .not _, .or _ | .not _, .compare .. | .not _, .substrings _
  | .not _, .present _ | .not _, .extensible _
  | .compare .., .and _ | .compare .., .or _ | .compare .., .not _ | .compare .., .substrings _
  | .compare .., .present _ | .compare .., .extensible _
  | .substrings _, .and _ | .substrings _, .or _ | .substrings _, .not _
  | .substrings _, .compare .. | .substrings _, .present _ | .substrings _, .extensible _
  | .present _, .and _ | .present _, .or _ | .present _, .not _ | .present _, .compare ..
  | .present _, .substrings _ | .present _, .extensible _
  | .extensible _, .and _ | .extensible _, .or _ | .extensible _, .not _
  | .extensible _, .compare .. | .extensible _, .substrings _ | .extensible _, .present _ =>
      .isFalse (by simp)

/-- Decides whether two lists of filters hold the same trees in the same order. -/
def decideEqAll : (left right : List Filter) → Decidable (left = right)
  | [], [] => .isTrue rfl
  | [], _ :: _ | _ :: _, [] => .isFalse (by simp)
  | left :: lefts, right :: rights =>
      match decideEq left right, decideEqAll lefts rights with
      | .isTrue same, .isTrue sameRest => .isTrue (by rw [same, sameRest])
      | .isFalse differ, _ => .isFalse (by simp [differ])
      | _, .isFalse differ => .isFalse (by simp [differ])

end

instance : DecidableEq Filter := decideEq

end Filter

end LdapWire
