import LdapWire.Proofs.Path.Basic
import LdapWire.Proofs.Reading.Assertion
import LdapWire.Proofs.Reading.Attribute
import LdapWire.Proofs.Reading.Bind
import LdapWire.Proofs.Reading.Result

/-!
# Paths through operations

The parts of a well-formed operation are a path from the first state of the
operation to one where its element may end (`Operation.Route`). Searches have a
module of their own.
-/

set_option autoImplicit false

namespace LdapWire

open Ber
open Grammar (Flavor State)

/-- Whether the parts of an operation lead from a state to one where its element
may end, and make the operation out of a blank one of its kind. -/
def Operation.Route (registry : Registry) (id : Int32) (first : State) (operation : Operation) :
    Prop :=
  ∃ last : State, last.canEnd = true
    ∧ Path registry operation.parts
        first { id := some id, operation := some (.blank operation.kind) }
        last { id := some id, operation := some operation }

variable {registry : Registry} {id : Int32}

/-! ## Bind requests -/

theorem BindRequest.route {request : BindRequest}
    (valid : 1 ≤ request.version ∧ request.version ≤ 127) :
    Operation.Route registry id .bindVersion (.bindRequest request) := by
  obtain ⟨version, name, authentication⟩ := request
  refine ⟨.bindEnd, rfl, ?_⟩
  rw [Operation.parts, layouts_eq valid]
  refine .field Content.bindVersion valid (fun _ => rfl) rfl rfl ?_
  refine .field (Content.text _) trivial (fun _ => rfl) rfl rfl ?_
  cases authentication with
  | simple password =>
      exact .octets (fun _ spelled => by subst spelled; rfl) rfl .done
  | sasl mechanism credentials =>
      cases credentials with
      | none =>
          exact .opening rfl (fun _ => rfl)
            (.field (Content.text _) trivial (fun _ => rfl) rfl rfl .done) rfl .done
      | some credentials =>
          exact .opening rfl (fun _ => rfl)
            (.field (Content.text _) trivial (fun _ => rfl) rfl rfl
              (.octets (fun _ spelled => by subst spelled; rfl) rfl .done)) rfl .done

/-! ## Results -/

namespace LdapResult

variable {flavor : Flavor} {host : LdapResult → Operation} {result : LdapResult}
  {rest : List Layout} {final : State} {after : Draft}

/-- The state behind a result. -/
def stateAfter (flavor : Flavor) (result : LdapResult) : State :=
  if result.referrals = [] then .resultTail flavor else .resultAfterReferral flavor

theorem canEnd_stateAfter (flavor : Flavor) (result : LdapResult) :
    (stateAfter flavor result).canEnd = true := by
  unfold stateAfter
  split <;> rfl

/-- What may follow the referrals of a result may follow the result without them. -/
theorem transition?_stateAfter {tag : UInt8} {transition : Grammar.Transition}
    (found : (State.resultAfterReferral flavor).transition? tag = some transition) :
    (stateAfter flavor result).transition? tag = some transition := by
  unfold stateAfter
  split
  · obtain ⟨rule, listed, same⟩ := Option.map_eq_some_iff.1 found
    have trailing : flavor.trailer.find? (fun rule => rule.tag == tag) = some rule := listed
    rw [State.transition?, State.rules, List.find?_append, trailing, Option.some_or,
      Option.map_some, same]
  · exact found

theorem path (carries : Flavor.Carries flavor host) (valid : result.WellFormed) :
    Path registry result.layouts (.resultCode flavor) { id := some id, operation := some (host {}) }
      (stateAfter flavor result) { id := some id, operation := some (host result) } := by
  obtain ⟨code, matchedDn, diagnostic, referrals⟩ := result
  have head : Path registry (layouts { code, matchedDn, diagnostic }) (.resultCode flavor)
      { id := some id, operation := some (host {}) } (.resultTail flavor)
      { id := some id, operation := some (host { code, matchedDn, diagnostic }) } := by
    refine .field Content.resultCode valid.code (fun _ => rfl) rfl
      (ResultReading.updateResult_eq carries _) ?_
    refine .field (Content.text _) trivial (fun _ => rfl) rfl
      (ResultReading.updateResult_eq carries _) ?_
    exact .field (Content.text _) trivial (fun _ => rfl) rfl
      (ResultReading.updateResult_eq carries _) .done
  cases referrals with
  | nil => exact head
  | cons first others =>
      have nonempty : ∀ uri ∈ first :: others, uri ≠ "" := by
        rintro uri listed rfl
        exact valid.referrals listed
      have continued : Path registry (others.map (Layout.text Tag.octetString)) .referralMore _
          .referralMore _ :=
        .each (fun referrals =>
            { id := some id,
              operation := some (host { code, matchedDn, diagnostic, referrals }) })
          (fun referrals uri listed => .field (Content.nonEmptyText _)
            (nonempty uri (List.mem_cons_of_mem _ listed)) (fun _ => rfl) rfl
            (ResultReading.updateResult_eq carries _) .done) [first]
      have referred : Path registry ((first :: others).map (Layout.text Tag.octetString))
          .referralStart
          { id := some id, operation := some (host { code, matchedDn, diagnostic }) }
          .referralMore _ :=
        .field (Content.nonEmptyText _) (nonempty first List.mem_cons_self) (fun _ => rfl) rfl
          (ResultReading.updateResult_eq carries _) continued
      rw [layouts_of_referrals valid (List.cons_ne_nil _ _)]
      exact head.append (.wrapper (by cases flavor <;> rfl) referred rfl .done)

end LdapResult

theorem PlainResponse.route (response : PlainResponse) {result : LdapResult}
    (valid : result.WellFormed) :
    Operation.Route registry id (.resultCode .plain) (.plain response result) :=
  ⟨_, LdapResult.canEnd_stateAfter .plain result, LdapResult.path (.plain response) valid⟩

theorem BindResponse.route {response : BindResponse} (valid : response.result.WellFormed) :
    Operation.Route registry id (.resultCode .bind) (.bindResponse response) := by
  obtain ⟨result, credentials⟩ := response
  have head := @LdapResult.path registry id _ _ result .bind valid
  cases credentials with
  | none =>
      refine ⟨_, LdapResult.canEnd_stateAfter .bind result, ?_⟩
      exact head.append .done
  | some credentials =>
      refine ⟨.resultDone .bind, rfl, head.append ?_⟩
      exact .octets (fun _ spelled => by subst spelled; rfl)
        (LdapResult.transition?_stateAfter rfl) .done

theorem ExtendedResponse.route {response : ExtendedResponse} (valid : response.result.WellFormed)
    (named : response.name ≠ some "") :
    Operation.Route registry id (.resultCode .extended) (.extendedResponse response) := by
  obtain ⟨result, name, value⟩ := response
  have head := @LdapResult.path registry id _ _ result .extended valid
  rw [Operation.Route, Operation.parts, ExtendedResponse.layouts,
    Layout.optional_nonEmptyText named]
  cases name with
  | none =>
      have unnamed := head.append .done
      cases value with
      | none => exact ⟨_, LdapResult.canEnd_stateAfter .extended result, unnamed.append .done⟩
      | some value =>
          refine ⟨.resultDone .extended, rfl, unnamed.append ?_⟩
          exact .octets (fun _ spelled => by subst spelled; rfl)
            (LdapResult.transition?_stateAfter rfl) .done
  | some name =>
      have nonempty : name ≠ "" := fun empty => named (congrArg some empty)
      have titled : Path registry [Layout.text 0x8A name] (LdapResult.stateAfter .extended result)
          { id := some id, operation := some (.extendedResponse { result }) } .resultAfterName
          { id := some id, operation := some (.extendedResponse { result, name := some name }) } :=
        .field (Content.nonEmptyText _) nonempty (fun _ => rfl)
          (LdapResult.transition?_stateAfter rfl) rfl .done
      cases value with
      | none => exact ⟨.resultAfterName, rfl, (head.append titled).append .done⟩
      | some value =>
          refine ⟨.resultDone .extended, rfl, (head.append titled).append ?_⟩
          exact .octets (fun _ spelled => by subst spelled; rfl) rfl .done

/-! ## Operations without inner elements -/

/-- A reference to other servers. -/
theorem Operation.route_searchResultReference {uris : List String} (some_uri : uris ≠ [])
    (nonempty : "" ∉ uris) :
    Operation.Route registry id .referenceUri (.searchResultReference uris) := by
  have present : ¬ uris.isEmpty = true := by simpa using some_uri
  rw [Operation.Route, Operation.parts, if_neg present, Layout.checked,
    Layout.map_nonEmptyText nonempty]
  have given : ∀ uri ∈ uris, uri ≠ "" := by
    rintro uri listed rfl
    exact nonempty listed
  cases uris with
  | nil => exact absurd rfl some_uri
  | cons first others =>
      have continued : Path registry (others.map (Layout.text Tag.octetString)) .referenceMore _
          .referenceMore _ :=
        .each (fun uris => { id := some id, operation := some (.searchResultReference uris) })
          (fun earlier uri listed => .field (Content.nonEmptyText _)
            (given uri (List.mem_cons_of_mem _ listed)) (fun _ => rfl) rfl rfl .done) [first]
      exact ⟨.referenceMore, rfl, .field (Content.nonEmptyText _)
        (given first List.mem_cons_self) (fun _ => rfl) rfl rfl continued⟩

theorem ModifyDnRequest.route {request : ModifyDnRequest} (named : request.newRdn ≠ "") :
    Operation.Route registry id .modDnEntry (.modifyDnRequest request) := by
  obtain ⟨entry, newRdn, deleteOldRdn, newSuperior⟩ := request
  rw [Operation.Route, Operation.parts, ModifyDnRequest.layouts, Layout.nonEmptyText_eq named]
  have head : Path registry
      [Layout.text Tag.octetString entry, Layout.text Tag.octetString newRdn,
        Layout.boolean Tag.boolean deleteOldRdn] .modDnEntry
      { id := some id, operation := some (.modifyDnRequest {}) } .modDnNewSuperior
      { id := some id,
        operation := some (.modifyDnRequest { entry, newRdn, deleteOldRdn }) } := by
    refine .field (Content.text _) trivial (fun _ => rfl) rfl rfl ?_
    refine .field (Content.nonEmptyText _) named (fun _ => rfl) rfl rfl ?_
    exact .field Content.truth trivial (fun _ => rfl) rfl rfl .done
  cases newSuperior with
  | none => exact ⟨.modDnNewSuperior, rfl, head.append .done⟩
  | some newSuperior =>
      exact ⟨.modDnEnd, rfl,
        head.append (.field (Content.text _) trivial (fun _ => rfl) rfl rfl .done)⟩

theorem ExtendedRequest.route {request : ExtendedRequest} (named : request.name ≠ "") :
    Operation.Route registry id .extRequestName (.extendedRequest request) := by
  obtain ⟨name, value⟩ := request
  rw [Operation.Route, Operation.parts, Layout.nonEmptyText_eq named]
  cases value with
  | none =>
      exact ⟨.extRequestValue, rfl,
        .field (Content.nonEmptyText _) named (fun _ => rfl) rfl rfl .done⟩
  | some value =>
      refine ⟨.extRequestEnd, rfl, .field (Content.nonEmptyText _) named (fun _ => rfl) rfl rfl ?_⟩
      exact .octets (fun _ spelled => by subst spelled; rfl) rfl .done

theorem IntermediateResponse.route {response : IntermediateResponse}
    (named : response.name ≠ some "") :
    Operation.Route registry id .intermediateName (.intermediateResponse response) := by
  obtain ⟨name, value⟩ := response
  rw [Operation.Route, Operation.parts, Layout.optional_nonEmptyText named]
  cases name with
  | none =>
      cases value with
      | none => exact ⟨.intermediateName, rfl, .done⟩
      | some value =>
          exact ⟨.intermediateEnd, rfl,
            .octets (fun _ spelled => by subst spelled; rfl) rfl .done⟩
  | some name =>
      have nonempty : name ≠ "" := fun empty => named (congrArg some empty)
      cases value with
      | none =>
          exact ⟨.intermediateValue, rfl,
            .field (Content.nonEmptyText _) nonempty (fun _ => rfl) rfl rfl .done⟩
      | some value =>
          refine ⟨.intermediateEnd, rfl,
            .field (Content.nonEmptyText _) nonempty (fun _ => rfl) rfl rfl ?_⟩
          exact .octets (fun _ spelled => by subst spelled; rfl) rfl .done

/-! ## Attributes -/

namespace Attribute

variable {listed : Attribute} {draft between after : Draft} {state resume final : State}
  {rest : List Layout}

theorem path_values (draft : Draft) (description : String) (values : List Bytes) :
    Path registry (values.map (Layout.primitive Tag.octetString)) .attrValue
      { draft with openAttribute := some { description } } .attrValue
      { draft with openAttribute := some { description, values } } :=
  .each (fun values => { draft with openAttribute := some { description, values } })
    (fun _ _ _ => .octets (fun _ spelled => by subst spelled; rfl) rfl .done) []

/-- An attribute that the draft takes when it is complete. -/
theorem path (nonempty : listed.description ≠ "")
    (found : state.transition? Tag.sequence = some (Grammar.Rule.bracket Tag.sequence
      .startAttribute .attrType .finishAttribute resume).transition)
    (finishes : Draft.finishAttribute { draft with openAttribute := some listed }
      = .ok () between)
    (further : Path registry rest resume between final after) :
    Path registry (listed.layout :: rest) state draft final after := by
  obtain ⟨description, values⟩ := listed
  have inside : Path registry [Layout.text Tag.octetString description,
        .constructed Tag.set (values.map (Layout.primitive Tag.octetString))] .attrType
      { draft with openAttribute := some {} } .attrEnd
      { draft with openAttribute := some { description, values } } := by
    refine .field (Content.nonEmptyText _) nonempty (fun _ => rfl) rfl rfl ?_
    exact .wrapper rfl (path_values draft description values) rfl .done
  rw [Attribute.layout_eq nonempty]
  exact .bracket found (fun _ _ => rfl) inside (fun _ => finishes) rfl further

end Attribute

/-- An entry that a search has found or that is to be added. -/
theorem EntryKind.path (kind : EntryKind) (name : String) {attributes : List Attribute}
    (accepted : ∀ listed ∈ attributes, kind.Accepts listed) :
    Path registry [Layout.text Tag.octetString name, Attribute.layoutAll attributes] kind.nameState
      { id := some id, operation := some (kind.operation "" []) } kind.endState
      { id := some id, operation := some (kind.operation name attributes) } := by
  have inside : Path registry (attributes.map Attribute.layout) .attributeList
      { id := some id, operation := some (kind.operation name []) } .attributeList
      { id := some id, operation := some (kind.operation name attributes) } := by
    refine .each (fun attributes =>
      { id := some id, operation := some (kind.operation name attributes) }) ?_ []
    intro earlier listed mem
    cases kind with
    | result => exact Attribute.path (accepted listed mem) rfl rfl .done
    | addition =>
        obtain ⟨nonempty, valued⟩ := accepted listed mem
        refine Attribute.path nonempty rfl ?_ .done
        simp only [Draft.finishAttribute, Draft.addAttribute, EntryKind.operation, if_neg valued]
  cases kind with
  | result =>
      exact .field (Content.text _) trivial (fun _ => rfl) rfl rfl (.wrapper rfl inside rfl .done)
  | addition =>
      exact .field (Content.text _) trivial (fun _ => rfl) rfl rfl (.wrapper rfl inside rfl .done)

theorem SearchResultEntry.route {entry : SearchResultEntry}
    (valid : ∀ listed ∈ entry.attributes, listed.description ≠ "") :
    Operation.Route registry id .entryName (.searchResultEntry entry) :=
  ⟨.entryEnd, rfl, EntryKind.path .result entry.name valid⟩

theorem AddRequest.route {request : AddRequest}
    (valid : ∀ listed ∈ request.attributes, listed.description ≠ "" ∧ listed.values ≠ []) :
    Operation.Route registry id .addEntry (.addRequest request) := by
  refine ⟨.addEnd, rfl, ?_⟩
  rw [Operation.parts, valueless?_eq_none valid]
  exact EntryKind.path .addition request.entry valid

theorem ModifyRequest.route {request : ModifyRequest}
    (valid : ∀ change ∈ request.changes, change.modification.description ≠ "") :
    Operation.Route registry id .modifyObject (.modifyRequest request) := by
  obtain ⟨object, changes⟩ := request
  have inside : Path registry (changes.map Change.layout) .changeList
      { id := some id, operation := some (.modifyRequest { object }) } .changeList
      { id := some id, operation := some (.modifyRequest { object, changes }) } := by
    refine .each (fun changes =>
      { id := some id, operation := some (.modifyRequest { object, changes }) }) ?_ []
    intro earlier change mem
    refine .wrapper rfl ?_ (rfl : State.changeEnd.canEnd = true) .done
    refine .field Content.changeKind trivial (fun _ => rfl) rfl rfl ?_
    exact Attribute.path (valid change mem) rfl rfl .done
  exact ⟨.modifyEnd, rfl,
    .field (Content.text _) trivial (fun _ => rfl) rfl rfl (.wrapper rfl inside rfl .done)⟩

/-! ## Compare requests -/

theorem CompareRequest.route {request : CompareRequest}
    (nonempty : request.assertion.description ≠ "") :
    Operation.Route registry id .compareEntry (.compareRequest request) := by
  obtain ⟨entry, description, value⟩ := request
  have inside : Path registry [Layout.text Tag.octetString description,
        .primitive Tag.octetString value] .avaDesc
      { id := some id, operation := some (.compareRequest { entry }) } .avaEnd
      { id := some id,
        operation := some (.compareRequest { entry, assertion := { description, value } }) } := by
    refine .field (Content.nonEmptyText _) nonempty (fun _ => rfl) rfl rfl ?_
    exact .octets (fun _ spelled => by subst spelled; rfl) rfl .done
  rw [Operation.Route, Operation.parts, Assertion.layouts_eq nonempty]
  exact ⟨.compareEnd, rfl,
    .field (Content.text _) trivial (fun _ => rfl) rfl rfl (.wrapper rfl inside rfl .done)⟩

end LdapWire
