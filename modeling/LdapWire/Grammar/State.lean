/-!
# States of the grammar

A state says which elements may come next and whether the enclosing element may
end here. The states of a result are shared by every response; what may follow
the result depends on its flavor.

`State.all` lists every state once, and `State.named?` finds a state by the name
that messages give it.
-/

set_option autoImplicit false

namespace LdapWire.Grammar

/-- Which response a result belongs to: bind and extended responses append
fields of their own after the referral. -/
inductive Flavor where
  | plain
  | bind
  | extended
deriving DecidableEq

/-- A point between two elements of a message. -/
inductive State where
  -- the envelope
  | start
  | messageId
  | protocolOp
  | afterOp
  | afterControls
  -- controls
  | controlsStart
  | controlType
  | controlCriticality
  | controlValue
  | controlEnd
  -- bind request
  | bindVersion
  | bindName
  | bindAuth
  | saslMechanism
  | saslCredentials
  | saslEnd
  | bindEnd
  -- results
  | resultCode (flavor : Flavor)
  | matchedDn (flavor : Flavor)
  | diagnosticMessage (flavor : Flavor)
  | resultTail (flavor : Flavor)
  | resultAfterReferral (flavor : Flavor)
  | resultAfterName
  | resultDone (flavor : Flavor)
  | referralStart
  | referralMore
  -- search request
  | searchBase
  | searchScope
  | searchDeref
  | searchSizeLimit
  | searchTimeLimit
  | searchTypesOnly
  | searchFilter
  | searchAttributes
  | attributeSelection
  | searchEnd
  -- filters
  | filterChildren
  | avaDesc
  | avaValue
  | avaEnd
  | substringsType
  | substringsSeq
  | substringsFirst
  | substringsAny
  | substringsFinal
  | substringsEnd
  | extensibleFirst
  | extensibleAfterRule
  | extensibleAfterType
  | extensibleAfterValue
  | extensibleEnd
  -- entries, additions and modifications
  | entryName
  | entryAttributes
  | entryEnd
  | addEntry
  | addAttributes
  | addEnd
  | attributeList
  | attrType
  | attrVals
  | attrValue
  | attrEnd
  | modifyObject
  | modifyChanges
  | modifyEnd
  | changeList
  | changeOperation
  | changeModification
  | changeEnd
  -- search result reference
  | referenceUri
  | referenceMore
  -- modify DN request
  | modDnEntry
  | modDnNewRdn
  | modDnDeleteOld
  | modDnNewSuperior
  | modDnEnd
  -- compare request
  | compareEntry
  | compareAva
  | compareEnd
  -- extended request
  | extRequestName
  | extRequestValue
  | extRequestEnd
  -- intermediate response
  | intermediateName
  | intermediateValue
  | intermediateEnd
deriving DecidableEq

/-- The word for a flavor in the name of a state. -/
def Flavor.name : Flavor → String
  | .plain => "Plain"
  | .bind => "Bind"
  | .extended => "Extended"

namespace State

/-- The name of a state in messages, with its flavor in parentheses. -/
def name : State → String
  | .start => "Start"
  | .messageId => "MessageId"
  | .protocolOp => "ProtocolOp"
  | .afterOp => "AfterOp"
  | .afterControls => "AfterControls"
  | .controlsStart => "ControlsStart"
  | .controlType => "ControlType"
  | .controlCriticality => "ControlCriticality"
  | .controlValue => "ControlValue"
  | .controlEnd => "ControlEnd"
  | .bindVersion => "BindVersion"
  | .bindName => "BindName"
  | .bindAuth => "BindAuth"
  | .saslMechanism => "SaslMechanism"
  | .saslCredentials => "SaslCredentials"
  | .saslEnd => "SaslEnd"
  | .bindEnd => "BindEnd"
  | .resultCode flavor => s!"ResultCode({flavor.name})"
  | .matchedDn flavor => s!"MatchedDn({flavor.name})"
  | .diagnosticMessage flavor => s!"DiagnosticMessage({flavor.name})"
  | .resultTail flavor => s!"ResultTail({flavor.name})"
  | .resultAfterReferral flavor => s!"ResultAfterReferral({flavor.name})"
  | .resultAfterName => "ResultAfterName"
  | .resultDone flavor => s!"ResultDone({flavor.name})"
  | .referralStart => "ReferralStart"
  | .referralMore => "ReferralMore"
  | .searchBase => "SearchBase"
  | .searchScope => "SearchScope"
  | .searchDeref => "SearchDeref"
  | .searchSizeLimit => "SearchSizeLimit"
  | .searchTimeLimit => "SearchTimeLimit"
  | .searchTypesOnly => "SearchTypesOnly"
  | .searchFilter => "SearchFilter"
  | .searchAttributes => "SearchAttributes"
  | .attributeSelection => "AttributeSelection"
  | .searchEnd => "SearchEnd"
  | .filterChildren => "FilterChildren"
  | .avaDesc => "AvaDesc"
  | .avaValue => "AvaValue"
  | .avaEnd => "AvaEnd"
  | .substringsType => "SubstringsType"
  | .substringsSeq => "SubstringsSeq"
  | .substringsFirst => "SubstringsFirst"
  | .substringsAny => "SubstringsAny"
  | .substringsFinal => "SubstringsFinal"
  | .substringsEnd => "SubstringsEnd"
  | .extensibleFirst => "ExtensibleFirst"
  | .extensibleAfterRule => "ExtensibleAfterRule"
  | .extensibleAfterType => "ExtensibleAfterType"
  | .extensibleAfterValue => "ExtensibleAfterValue"
  | .extensibleEnd => "ExtensibleEnd"
  | .entryName => "EntryName"
  | .entryAttributes => "EntryAttributes"
  | .entryEnd => "EntryEnd"
  | .addEntry => "AddEntry"
  | .addAttributes => "AddAttributes"
  | .addEnd => "AddEnd"
  | .attributeList => "AttributeList"
  | .attrType => "AttrType"
  | .attrVals => "AttrVals"
  | .attrValue => "AttrValue"
  | .attrEnd => "AttrEnd"
  | .modifyObject => "ModifyObject"
  | .modifyChanges => "ModifyChanges"
  | .modifyEnd => "ModifyEnd"
  | .changeList => "ChangeList"
  | .changeOperation => "ChangeOperation"
  | .changeModification => "ChangeModification"
  | .changeEnd => "ChangeEnd"
  | .referenceUri => "ReferenceUri"
  | .referenceMore => "ReferenceMore"
  | .modDnEntry => "ModDnEntry"
  | .modDnNewRdn => "ModDnNewRdn"
  | .modDnDeleteOld => "ModDnDeleteOld"
  | .modDnNewSuperior => "ModDnNewSuperior"
  | .modDnEnd => "ModDnEnd"
  | .compareEntry => "CompareEntry"
  | .compareAva => "CompareAva"
  | .compareEnd => "CompareEnd"
  | .extRequestName => "ExtRequestName"
  | .extRequestValue => "ExtRequestValue"
  | .extRequestEnd => "ExtRequestEnd"
  | .intermediateName => "IntermediateName"
  | .intermediateValue => "IntermediateValue"
  | .intermediateEnd => "IntermediateEnd"

/-- Every state, those with a flavor once for each flavor. -/
def all : List State :=
  [.start, .messageId, .protocolOp, .afterOp, .afterControls, .controlsStart, .controlType,
   .controlCriticality, .controlValue, .controlEnd, .bindVersion, .bindName, .bindAuth,
   .saslMechanism, .saslCredentials, .saslEnd, .bindEnd]
  ++ [Flavor.plain, .bind, .extended].flatMap (fun flavor =>
      [.resultCode flavor, .matchedDn flavor, .diagnosticMessage flavor, .resultTail flavor,
       .resultAfterReferral flavor, .resultDone flavor])
  ++ [.resultAfterName, .referralStart, .referralMore, .searchBase, .searchScope, .searchDeref,
   .searchSizeLimit, .searchTimeLimit, .searchTypesOnly, .searchFilter, .searchAttributes,
   .attributeSelection, .searchEnd, .filterChildren, .avaDesc, .avaValue, .avaEnd,
   .substringsType, .substringsSeq, .substringsFirst, .substringsAny, .substringsFinal,
   .substringsEnd, .extensibleFirst, .extensibleAfterRule, .extensibleAfterType,
   .extensibleAfterValue, .extensibleEnd, .entryName, .entryAttributes, .entryEnd, .addEntry,
   .addAttributes, .addEnd, .attributeList, .attrType, .attrVals, .attrValue, .attrEnd,
   .modifyObject, .modifyChanges, .modifyEnd, .changeList, .changeOperation,
   .changeModification, .changeEnd, .referenceUri, .referenceMore, .modDnEntry, .modDnNewRdn,
   .modDnDeleteOld, .modDnNewSuperior, .modDnEnd, .compareEntry, .compareAva, .compareEnd,
   .extRequestName, .extRequestValue, .extRequestEnd, .intermediateName, .intermediateValue,
   .intermediateEnd]

theorem mem_all (state : State) : state ∈ all := by
  cases state <;> first | decide | (rename_i flavor; cases flavor <;> decide)

/-- The state with the given name. -/
def named? (text : String) : Option State :=
  all.find? (fun state => state.name == text)

end State

end LdapWire.Grammar
