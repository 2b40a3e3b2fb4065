import LdapWire.Ber.Tag
import LdapWire.Grammar.Action
import LdapWire.Grammar.State

/-!
# Rules of the grammar

For every state the elements that it accepts. Their tags rise (`rules_rising`),
so `State.transition?` finds the only rule for a tag. `State.canEnd` tells where
the content of an enclosing element may end.

The action of a primitive element runs when its content is complete. The action
of a constructed element runs when its header has been read; the state after it
is that of the element's content, and its `Close` tells what happens when the
content ends.
-/

set_option autoImplicit false

namespace LdapWire.Grammar

/-- What happens at the end of a constructed element. -/
structure Close where
  action : Option Action
  /-- The state after the element. -/
  resume : State
deriving DecidableEq

/-- What the grammar does with an element that it accepts. -/
structure Transition where
  action : Option Action
  next : State
  /-- Present for constructed elements. -/
  close : Option Close := none
deriving DecidableEq

/-- An accepted tag and what follows from it. -/
structure Rule where
  tag : UInt8
  transition : Transition
deriving DecidableEq

namespace Rule

/-- A primitive element, whose content the action takes. -/
def primitive (tag : UInt8) (action : Action) (next : State) : Rule :=
  { tag, transition := { action := some action, next } }

/-- A constructed element without an action at either end. -/
def wrapper (tag : UInt8) (inner resume : State) : Rule :=
  { tag, transition := { action := none, next := inner, close := some { action := none, resume } } }

/-- A constructed element with an action for its header. -/
def opening (tag : UInt8) (action : Action) (inner resume : State) : Rule :=
  { tag,
    transition :=
      { action := some action, next := inner, close := some { action := none, resume } } }

/-- A constructed element with an action for its header and one for its end. -/
def bracket (tag : UInt8) (action : Action) (inner : State) (atEnd : Action) (resume : State) :
    Rule :=
  { tag,
    transition :=
      { action := some action, next := inner, close := some { action := some atEnd, resume } } }

/-- An operation whose first field is read in the given state. -/
def operation (kind : OperationKind) (first : State) : Rule :=
  opening kind.tag (.openOperation kind) first .afterOp

/-- A response that is a result and nothing else. -/
def plainResponse (response : PlainResponse) : Rule :=
  operation (.plain response) (.resultCode .plain)

/-- The filters, each of which resumes in the given state. A filter that opens a
connective is followed by the filters inside it. -/
def filters (after : State) : List Rule :=
  [primitive 0x87 .addPresent after,
   bracket 0xA0 (.openConnective .and) .filterChildren .closeConnective after,
   bracket 0xA1 (.openConnective .or) .filterChildren .closeConnective after,
   bracket 0xA2 (.openConnective .not) .filterChildren .closeConnective after,
   opening 0xA3 (.openComparison .equality) .avaDesc after,
   opening 0xA4 .openSubstrings .substringsType after,
   opening 0xA5 (.openComparison .greaterOrEqual) .avaDesc after,
   opening 0xA6 (.openComparison .lessOrEqual) .avaDesc after,
   opening 0xA8 (.openComparison .approx) .avaDesc after,
   bracket 0xA9 .openExtensible .extensibleFirst .closeExtensible after]

end Rule

open Rule (primitive wrapper opening bracket operation plainResponse filters)

/-- What may follow a result, before and after its referral. -/
def Flavor.trailer : Flavor → List Rule
  | .plain => []
  | .bind => [primitive 0x87 .setServerSaslCreds (.resultDone .bind)]
  | .extended =>
      [primitive 0x8A .setExtendedResponseName .resultAfterName,
       primitive 0x8B .setExtendedResponseValue (.resultDone .extended)]

namespace State

/-- The elements that a state accepts, by rising tag. -/
def rules : State → List Rule
  -- the envelope: a sequence of an identifier, an operation and optional controls
  | .start => [wrapper Ber.Tag.sequence .messageId .start]
  | .messageId => [primitive Ber.Tag.integer .setMessageId .protocolOp]
  | .protocolOp =>
      [primitive OperationKind.unbindRequest.tag .setUnbindRequest .afterOp,
       primitive OperationKind.delRequest.tag .setDelRequest .afterOp,
       primitive OperationKind.abandonRequest.tag .setAbandonRequest .afterOp,
       operation .bindRequest .bindVersion,
       operation .bindResponse (.resultCode .bind),
       operation .searchRequest .searchBase,
       operation .searchResultEntry .entryName,
       plainResponse .searchResultDone,
       operation .modifyRequest .modifyObject,
       plainResponse .modify,
       operation .addRequest .addEntry,
       plainResponse .add,
       plainResponse .del,
       operation .modifyDnRequest .modDnEntry,
       plainResponse .modifyDn,
       operation .compareRequest .compareEntry,
       plainResponse .compare,
       operation .searchResultReference .referenceUri,
       operation .extendedRequest .extRequestName,
       operation .extendedResponse (.resultCode .extended),
       operation .intermediateResponse .intermediateName]
  | .afterOp => [wrapper 0xA0 .controlsStart .afterControls]
  | .afterControls => []
  -- controls
  | .controlsStart =>
      [bracket Ber.Tag.sequence .startControl .controlType .finishControl .controlsStart]
  | .controlType => [primitive Ber.Tag.octetString .setControlType .controlCriticality]
  | .controlCriticality =>
      [primitive Ber.Tag.boolean .setControlCriticality .controlValue,
       primitive Ber.Tag.octetString .setControlValue .controlEnd]
  | .controlValue => [primitive Ber.Tag.octetString .setControlValue .controlEnd]
  | .controlEnd => []
  -- bind request
  | .bindVersion => [primitive Ber.Tag.integer .setBindVersion .bindName]
  | .bindName => [primitive Ber.Tag.octetString .setBindName .bindAuth]
  | .bindAuth =>
      [primitive 0x80 .setSimpleAuth .bindEnd,
       opening 0xA3 .openSaslAuth .saslMechanism .bindEnd]
  | .saslMechanism => [primitive Ber.Tag.octetString .setSaslMechanism .saslCredentials]
  | .saslCredentials => [primitive Ber.Tag.octetString .setSaslCredentials .saslEnd]
  | .saslEnd => []
  | .bindEnd => []
  -- results
  | .resultCode flavor => [primitive Ber.Tag.enumerated .setResultCode (.matchedDn flavor)]
  | .matchedDn flavor => [primitive Ber.Tag.octetString .setMatchedDn (.diagnosticMessage flavor)]
  | .diagnosticMessage flavor =>
      [primitive Ber.Tag.octetString .setDiagnosticMessage (.resultTail flavor)]
  | .resultTail flavor =>
      flavor.trailer ++ [wrapper 0xA3 .referralStart (.resultAfterReferral flavor)]
  | .resultAfterReferral flavor => flavor.trailer
  | .resultAfterName => [primitive 0x8B .setExtendedResponseValue (.resultDone .extended)]
  | .resultDone _ => []
  | .referralStart => [primitive Ber.Tag.octetString .addReferral .referralMore]
  | .referralMore => [primitive Ber.Tag.octetString .addReferral .referralMore]
  -- search request
  | .searchBase => [primitive Ber.Tag.octetString .setSearchBase .searchScope]
  | .searchScope => [primitive Ber.Tag.enumerated .setSearchScope .searchDeref]
  | .searchDeref => [primitive Ber.Tag.enumerated .setSearchDeref .searchSizeLimit]
  | .searchSizeLimit => [primitive Ber.Tag.integer .setSearchSizeLimit .searchTimeLimit]
  | .searchTimeLimit => [primitive Ber.Tag.integer .setSearchTimeLimit .searchTypesOnly]
  | .searchTypesOnly => [primitive Ber.Tag.boolean .setSearchTypesOnly .searchFilter]
  | .searchFilter => filters .searchAttributes
  | .searchAttributes =>
      [opening Ber.Tag.sequence .storeSearchFilter .attributeSelection .searchEnd]
  | .attributeSelection =>
      [primitive Ber.Tag.octetString .addSelectedAttribute .attributeSelection]
  | .searchEnd => []
  -- filters
  | .filterChildren => filters .filterChildren
  | .avaDesc => [primitive Ber.Tag.octetString .setAvaDesc .avaValue]
  | .avaValue => [primitive Ber.Tag.octetString .setAvaValue .avaEnd]
  | .avaEnd => []
  | .substringsType => [primitive Ber.Tag.octetString .setSubstringsType .substringsSeq]
  | .substringsSeq => [wrapper Ber.Tag.sequence .substringsFirst .substringsEnd]
  | .substringsFirst =>
      [primitive 0x80 .setSubstringInitial .substringsAny,
       primitive 0x81 .addSubstringAny .substringsAny,
       primitive 0x82 .setSubstringFinal .substringsFinal]
  | .substringsAny =>
      [primitive 0x81 .addSubstringAny .substringsAny,
       primitive 0x82 .setSubstringFinal .substringsFinal]
  | .substringsFinal => []
  | .substringsEnd => []
  | .extensibleFirst =>
      [primitive 0x81 .setMatchingRule .extensibleAfterRule,
       primitive 0x82 .setExtensibleType .extensibleAfterType,
       primitive 0x83 .setMatchValue .extensibleAfterValue]
  | .extensibleAfterRule =>
      [primitive 0x82 .setExtensibleType .extensibleAfterType,
       primitive 0x83 .setMatchValue .extensibleAfterValue]
  | .extensibleAfterType => [primitive 0x83 .setMatchValue .extensibleAfterValue]
  | .extensibleAfterValue => [primitive 0x84 .setDnAttributes .extensibleEnd]
  | .extensibleEnd => []
  -- entries, additions and modifications
  | .entryName => [primitive Ber.Tag.octetString .setEntryName .entryAttributes]
  | .entryAttributes => [wrapper Ber.Tag.sequence .attributeList .entryEnd]
  | .entryEnd => []
  | .addEntry => [primitive Ber.Tag.octetString .setEntryName .addAttributes]
  | .addAttributes => [wrapper Ber.Tag.sequence .attributeList .addEnd]
  | .addEnd => []
  | .attributeList =>
      [bracket Ber.Tag.sequence .startAttribute .attrType .finishAttribute .attributeList]
  | .attrType => [primitive Ber.Tag.octetString .setAttributeType .attrVals]
  | .attrVals => [wrapper Ber.Tag.set .attrValue .attrEnd]
  | .attrValue => [primitive Ber.Tag.octetString .addAttributeValue .attrValue]
  | .attrEnd => []
  | .modifyObject => [primitive Ber.Tag.octetString .setModifyObject .modifyChanges]
  | .modifyChanges => [wrapper Ber.Tag.sequence .changeList .modifyEnd]
  | .modifyEnd => []
  | .changeList => [wrapper Ber.Tag.sequence .changeOperation .changeList]
  | .changeOperation => [primitive Ber.Tag.enumerated .setChangeOperation .changeModification]
  | .changeModification =>
      [bracket Ber.Tag.sequence .startAttribute .attrType .finishAttribute .changeEnd]
  | .changeEnd => []
  -- search result reference
  | .referenceUri => [primitive Ber.Tag.octetString .addReferenceUri .referenceMore]
  | .referenceMore => [primitive Ber.Tag.octetString .addReferenceUri .referenceMore]
  -- modify DN request
  | .modDnEntry => [primitive Ber.Tag.octetString .setModDnEntry .modDnNewRdn]
  | .modDnNewRdn => [primitive Ber.Tag.octetString .setModDnNewRdn .modDnDeleteOld]
  | .modDnDeleteOld => [primitive Ber.Tag.boolean .setModDnDeleteOld .modDnNewSuperior]
  | .modDnNewSuperior => [primitive 0x80 .setModDnNewSuperior .modDnEnd]
  | .modDnEnd => []
  -- compare request
  | .compareEntry => [primitive Ber.Tag.octetString .setCompareEntry .compareAva]
  | .compareAva => [wrapper Ber.Tag.sequence .avaDesc .compareEnd]
  | .compareEnd => []
  -- extended request
  | .extRequestName => [primitive 0x80 .setExtendedRequestName .extRequestValue]
  | .extRequestValue => [primitive 0x81 .setExtendedRequestValue .extRequestEnd]
  | .extRequestEnd => []
  -- intermediate response
  | .intermediateName =>
      [primitive 0x80 .setIntermediateName .intermediateValue,
       primitive 0x81 .setIntermediateValue .intermediateEnd]
  | .intermediateValue => [primitive 0x81 .setIntermediateValue .intermediateEnd]
  | .intermediateEnd => []

/-- No state has two rules for one tag. -/
theorem rules_rising (state : State) : (state.rules.map Rule.tag).Pairwise (· < ·) := by
  cases state <;> first | decide | (rename_i flavor; cases flavor <;> decide)

/-- What follows from an element with the given tag, if the state accepts it. -/
def transition? (state : State) (tag : UInt8) : Option Transition :=
  (state.rules.find? (fun rule => rule.tag == tag)).map Rule.transition

/-- What a state accepts is one of its rules. -/
theorem exists_rule_of_transition? {state : State} {tag : UInt8} {transition : Transition}
    (accepted : state.transition? tag = some transition) :
    ∃ rule ∈ state.rules, rule.tag = tag ∧ rule.transition = transition := by
  obtain ⟨rule, found, same⟩ := Option.map_eq_some_iff.1 accepted
  exact ⟨rule, List.mem_of_find?_eq_some found, by simpa using List.find?_some found, same⟩

/-- Whether the content of the enclosing element may end here. -/
def canEnd : State → Bool
  | .afterOp | .afterControls
  | .controlsStart | .controlCriticality | .controlValue | .controlEnd
  | .saslCredentials | .saslEnd | .bindEnd
  | .resultTail _ | .resultAfterReferral _ | .resultAfterName | .resultDone _ | .referralMore
  | .attributeSelection | .searchEnd | .filterChildren
  | .avaEnd | .substringsAny | .substringsFinal | .substringsEnd
  | .extensibleAfterValue | .extensibleEnd
  | .entryEnd | .addEnd | .attributeList | .attrValue | .attrEnd
  | .modifyEnd | .changeList | .changeEnd
  | .referenceMore
  | .modDnNewSuperior | .modDnEnd
  | .compareEnd
  | .extRequestValue | .extRequestEnd
  | .intermediateName | .intermediateValue | .intermediateEnd => true
  | _ => false

end State

namespace Transition

/-- The actions of a transition, at the header and at the end. -/
def actions (transition : Transition) : List Action :=
  transition.action.toList ++ (transition.close.bind Close.action).toList

end Transition

namespace Action

/-- The action with the given name among those that the rules mention. -/
def named? (text : String) : Option Action :=
  (State.all.flatMap State.rules).flatMap (fun rule => rule.transition.actions)
    |>.find? (fun action => action.name == text)

end Action

end LdapWire.Grammar
