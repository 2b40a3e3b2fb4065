import LdapWire.Proofs.Reading.Basic

/-!
# Reading a result

The states of a result are shared by all responses. `Carries` tells which
operation carries the result in each flavor of these states.
-/

set_option autoImplicit false

namespace LdapWire

open Ber
open Grammar (Flavor State)

/-- The operations that carry a result in the states of a flavor. -/
inductive Flavor.Carries : Flavor → (LdapResult → Operation) → Prop where
  | bind : Carries .bind fun result => .bindResponse { result }
  | extended : Carries .extended fun result => .extendedResponse { result }
  | plain (response : PlainResponse) : Carries .plain (.plain response)

namespace LdapResult

theorem layouts_of_referrals {result : LdapResult} (valid : result.WellFormed)
    (referred : result.referrals ≠ []) :
    result.layouts = layouts { result with referrals := [] }
      ++ [.constructed 0xA3 (result.referrals.map (Layout.text Tag.octetString))] := by
  have present : ¬ result.referrals.isEmpty = true := by simpa using referred
  rw [layouts, if_neg present, Layout.map_nonEmptyText valid.referrals]
  rfl

end LdapResult

/-- The situations inside a response that carries a result. -/
inductive ResultReading (id : Int32) : Situation where
  | code {flavor : Flavor} {host : LdapResult → Operation} (carries : Flavor.Carries flavor host) :
      ResultReading id (.resultCode flavor) { id := some id, operation := some (host {}) }
        [{ close := .afterOperation }]
  | matchedDn {flavor : Flavor} {host : LdapResult → Operation}
      (carries : Flavor.Carries flavor host) {code : Int32} (valid : 0 ≤ code) :
      ResultReading id (.matchedDn flavor) { id := some id, operation := some (host { code }) }
        [{ close := .afterOperation, parts := [Layout.integer Tag.enumerated code.toInt] }]
  | diagnostic {flavor : Flavor} {host : LdapResult → Operation}
      (carries : Flavor.Carries flavor host) {code : Int32} (valid : 0 ≤ code)
      (matchedDn : String) :
      ResultReading id (.diagnosticMessage flavor)
        { id := some id, operation := some (host { code, matchedDn }) }
        [{ close := .afterOperation,
           parts := [Layout.integer Tag.enumerated code.toInt,
            Layout.text Tag.octetString matchedDn] }]
  | tail {flavor : Flavor} {host : LdapResult → Operation} (carries : Flavor.Carries flavor host)
      {result : LdapResult} (valid : result.WellFormed) (direct : result.referrals = []) :
      ResultReading id (.resultTail flavor) { id := some id, operation := some (host result) }
        [{ close := .afterOperation, parts := result.layouts }]
  | referral {flavor : Flavor} {host : LdapResult → Operation}
      (carries : Flavor.Carries flavor host) {result : LdapResult} (valid : result.WellFormed) :
      ResultReading id (if result.referrals = [] then .referralStart else .referralMore)
        { id := some id, operation := some (host result) }
        [{ close := { action := none, resume := .resultAfterReferral flavor },
           parts := result.referrals.map (Layout.text Tag.octetString) },
         { close := .afterOperation,
           parts := LdapResult.layouts { result with referrals := [] } }]
  | referred {flavor : Flavor} {host : LdapResult → Operation}
      (carries : Flavor.Carries flavor host) {result : LdapResult} (valid : result.WellFormed) :
      ResultReading id (.resultAfterReferral flavor)
        { id := some id, operation := some (host result) }
        [{ close := .afterOperation, parts := result.layouts }]
  | bound {result : LdapResult} (valid : result.WellFormed) (credentials : Bytes) :
      ResultReading id (.resultDone .bind)
        { id := some id,
          operation := some (.bindResponse { result, serverCredentials := some credentials }) }
        [{ close := .afterOperation,
           parts := result.layouts ++ [Layout.primitive 0x87 credentials] }]
  | named {result : LdapResult} (valid : result.WellFormed) {name : String}
      (nonempty : name ≠ "") :
      ResultReading id .resultAfterName
        { id := some id, operation := some (.extendedResponse { result, name := some name }) }
        [{ close := .afterOperation, parts := result.layouts ++ [Layout.text 0x8A name] }]
  | extended {result : LdapResult} (valid : result.WellFormed) {name : Option String}
      (nonempty : name ≠ some "") (value : Bytes) :
      ResultReading id (.resultDone .extended)
        { id := some id,
          operation := some (.extendedResponse { result, name, value := some value }) }
        [{ close := .afterOperation,
           parts := result.layouts ++ Layout.optional (Layout.text 0x8A) name
            ++ [Layout.primitive 0x8B value] }]

namespace ResultReading

variable {id : Int32} {registry : Registry} {flavor : Flavor} {host : LdapResult → Operation}
  {result : LdapResult}

/-- A change of the result is a change of the operation that carries it. -/
theorem updateResult_eq (carries : Flavor.Carries flavor host) (change : LdapResult → LdapResult) :
    Draft.updateResult change { id := some id, operation := some (host result) }
      = .ok () { id := some id, operation := some (host (change result)) } := by
  cases carries <;> rfl

/-- What may follow the result and its referrals. -/
theorem trailer (carries : Flavor.Carries flavor host) (valid : result.WellFormed) :
    (ResultReading id).ReadsAll registry { id := some id, operation := some (host result) }
      [{ close := .afterOperation, parts := result.layouts }] flavor.trailer := by
  cases carries with
  | plain response => exact trivial
  | bind => exact ⟨.octets fun tlv => ⟨_, rfl, .bound valid tlv.value⟩, trivial⟩
  | extended =>
      refine ⟨.field (Content.nonEmptyText _) (fun _ => rfl) fun name nonempty =>
        ⟨_, rfl, .named valid nonempty⟩, .octets fun tlv => ⟨_, rfl, ?_⟩, trivial⟩
      have reached : ResultReading id _ _ _ :=
        extended valid (nofun : (none : Option String) ≠ some "") tlv.value
      rw [Layout.optional, Option.map_none, Option.toList_none, List.append_nil] at reached
      exact reached

/-- Another referral. -/
theorem anotherReferral (carries : Flavor.Carries flavor host) (valid : result.WellFormed) :
    (ResultReading id).Reads registry { id := some id, operation := some (host result) }
      [{ close := { action := none, resume := .resultAfterReferral flavor },
         parts := result.referrals.map (Layout.text Tag.octetString) },
       { close := .afterOperation, parts := LdapResult.layouts { result with referrals := [] } }]
      (.primitive Tag.octetString .addReferral .referralMore) := by
  refine .field (Content.nonEmptyText _) (fun _ => rfl) fun uri nonempty =>
    ⟨_, updateResult_eq carries _, ?_⟩
  have longer : LdapResult.WellFormed { result with referrals := result.referrals ++ [uri] } := by
    refine ⟨valid.code, fun listed => ?_⟩
    rcases List.mem_append.1 listed with before | last
    · exact valid.referrals before
    · exact nonempty (List.mem_singleton.1 last).symm
  have reached : ResultReading id _ _ _ := referral carries longer
  have some_referral : result.referrals ++ [uri] ≠ [] := by simp
  rw [if_neg some_referral, List.map_append] at reached
  exact reached

theorem element {state : State} {draft : Draft} {elements : List OpenElement}
    (reading : ResultReading id state draft elements) :
    (ResultReading id).ReadsAll registry draft elements state.rules := by
  cases reading with
  | code carries =>
      exact ⟨.field Content.resultCode (fun _ => rfl) fun _ valid =>
        ⟨_, updateResult_eq carries _, .matchedDn carries valid⟩, trivial⟩
  | matchedDn carries valid =>
      exact ⟨.field (Content.text _) (fun _ => rfl) fun matchedDn _ =>
        ⟨_, updateResult_eq carries _, .diagnostic carries valid matchedDn⟩, trivial⟩
  | diagnostic carries valid matchedDn =>
      exact ⟨.field (Content.text _) (fun _ => rfl) fun diagnostic _ =>
        ⟨_, updateResult_eq carries _, .tail carries ⟨valid, List.not_mem_nil⟩ rfl⟩, trivial⟩
  | @tail _ _ carries result valid direct =>
      refine (trailer carries valid).append ⟨.wrapper ?_, trivial⟩
      have reached : ResultReading id _ _ _ := referral carries valid
      rw [if_pos direct, direct, List.map_nil, ← direct] at reached
      exact reached
  | @referral _ _ carries result valid =>
      split
      · exact ⟨anotherReferral carries valid, trivial⟩
      · exact ⟨anotherReferral carries valid, trivial⟩
  | referred carries valid => exact trailer carries valid
  | named valid nonempty =>
      refine ⟨.octets fun tlv => ⟨_, rfl, ?_⟩, trivial⟩
      exact .extended valid (fun empty => nonempty (Option.some.inj empty)) tlv.value
  | bound => exact trivial
  | extended => exact trivial

theorem ending {state : State} {draft : Draft} {top next : OpenElement}
    {outer : List OpenElement} (reading : ResultReading id state draft (top :: next :: outer))
    (canEnd : state.canEnd = true) :
    (ResultReading id).Ends registry draft top (next :: outer) := by
  cases reading with
  | @referral _ _ carries result valid =>
      by_cases direct : result.referrals = []
      · rw [if_pos direct] at canEnd
        cases canEnd
      · refine .wrapper 0xA3 ?_
        have reached : ResultReading id _ _ _ := referred carries valid
        rw [LdapResult.layouts_of_referrals valid direct] at reached
        exact reached

/-- A response that carries a result may end after it. -/
theorem completes (carries : Flavor.Carries flavor host) (valid : result.WellFormed) :
    Draft.Completes id { id := some id, operation := some (host result) }
      { close := .afterOperation, parts := result.layouts } := by
  cases carries with
  | plain response => exact ⟨rfl, _, rfl, valid, rfl⟩
  | bind =>
      refine ⟨rfl, _, rfl, valid, ?_⟩
      simp only [Operation.layout, Operation.parts, Layout.optional, Option.map_none,
        Option.toList_none, List.append_nil]
  | extended =>
      refine ⟨rfl, _, rfl, ⟨valid, (Option.some_ne_none "").symm⟩, ?_⟩
      simp only [Operation.layout, Operation.parts, ExtendedResponse.layouts, Layout.optional,
        Option.map_none, Option.toList_none, List.append_nil]

theorem finish {state : State} {draft : Draft} {top : OpenElement}
    (reading : ResultReading id state draft [top]) (canEnd : state.canEnd = true) :
    draft.Completes id top := by
  cases reading with
  | tail carries valid => exact completes carries valid
  | referred carries valid => exact completes carries valid
  | bound valid credentials => exact ⟨rfl, _, rfl, valid, rfl⟩
  | @named result valid name nonempty =>
      have given : some name ≠ some "" := fun empty => nonempty (Option.some.inj empty)
      refine ⟨rfl, _, rfl, ⟨valid, given⟩, ?_⟩
      simp only [Operation.layout, Operation.parts, ExtendedResponse.layouts,
        Layout.optional_nonEmptyText given]
      simp only [Layout.optional, Option.map_none, Option.map_some, Option.toList_none,
        Option.toList_some, List.append_nil]
  | extended valid nonempty value =>
      refine ⟨rfl, _, rfl, ⟨valid, nonempty⟩, ?_⟩
      simp only [Operation.layout, Operation.parts, ExtendedResponse.layouts,
        Layout.optional_nonEmptyText nonempty]
      rfl
  | code | matchedDn | diagnostic => cases canEnd

theorem withinOperation : (ResultReading id).WithinOperation registry id where
  nonempty reading := by cases reading <;> exact List.cons_ne_nil _ _
  element := element
  ending reading canEnd _ := ending reading canEnd
  finish := finish

end ResultReading

end LdapWire
