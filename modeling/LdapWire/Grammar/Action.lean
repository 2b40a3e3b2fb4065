import LdapWire.Filter.Basic
import LdapWire.Operation.Kind

/-!
# Actions of the grammar

What the grammar does with an element that it accepts: open the operation, the
filter or the draft that the element stands for, set one field from its content,
or close what its header opened. What an action does to the message under
construction is defined in `LdapWire.Draft.Action`.
-/

set_option autoImplicit false

namespace LdapWire.Grammar

/-- A step in the construction of a message. -/
inductive Action where
  | setMessageId
  -- controls
  | startControl
  | setControlType
  | setControlCriticality
  | setControlValue
  | finishControl
  /-- Starts an operation whose fields follow one by one. -/
  | openOperation (kind : OperationKind)
  -- operations that are a single primitive element
  | setUnbindRequest
  | setDelRequest
  | setAbandonRequest
  -- bind request
  | setBindVersion
  | setBindName
  | setSimpleAuth
  | openSaslAuth
  | setSaslMechanism
  | setSaslCredentials
  -- results
  | setResultCode
  | setMatchedDn
  | setDiagnosticMessage
  | addReferral
  | setServerSaslCreds
  | setExtendedResponseName
  | setExtendedResponseValue
  -- search request
  | setSearchBase
  | setSearchScope
  | setSearchDeref
  | setSearchSizeLimit
  | setSearchTimeLimit
  | setSearchTypesOnly
  | storeSearchFilter
  | addSelectedAttribute
  -- filters
  | openConnective (connective : Connective)
  | closeConnective
  | openComparison (comparison : Comparison)
  | openSubstrings
  | openExtensible
  | closeExtensible
  | addPresent
  | setAvaDesc
  | setAvaValue
  | setSubstringsType
  | setSubstringInitial
  | addSubstringAny
  | setSubstringFinal
  | setMatchingRule
  | setExtensibleType
  | setMatchValue
  | setDnAttributes
  -- entries, additions and modifications
  | setEntryName
  | startAttribute
  | setAttributeType
  | addAttributeValue
  | finishAttribute
  | setModifyObject
  | setChangeOperation
  -- the remaining operations
  | setModDnEntry
  | setModDnNewRdn
  | setModDnDeleteOld
  | setModDnNewSuperior
  | setCompareEntry
  | addReferenceUri
  | setExtendedRequestName
  | setExtendedRequestValue
  | setIntermediateName
  | setIntermediateValue
deriving DecidableEq

namespace Action

/-- The name of an action in a listing of the grammar. -/
def name : Action → String
  | .setMessageId => "set_message_id"
  | .startControl => "start_control"
  | .setControlType => "set_control_type"
  | .setControlCriticality => "set_control_criticality"
  | .setControlValue => "set_control_value"
  | .finishControl => "finish_control"
  | .openOperation kind => "open_" ++ kind.name
  | .setUnbindRequest => "set_unbind_request"
  | .setDelRequest => "set_del_request"
  | .setAbandonRequest => "set_abandon_request"
  | .setBindVersion => "set_bind_version"
  | .setBindName => "set_bind_name"
  | .setSimpleAuth => "set_simple_auth"
  | .openSaslAuth => "open_sasl_auth"
  | .setSaslMechanism => "set_sasl_mechanism"
  | .setSaslCredentials => "set_sasl_credentials"
  | .setResultCode => "set_result_code"
  | .setMatchedDn => "set_matched_dn"
  | .setDiagnosticMessage => "set_diagnostic_message"
  | .addReferral => "add_referral"
  | .setServerSaslCreds => "set_server_sasl_creds"
  | .setExtendedResponseName => "set_extended_response_name"
  | .setExtendedResponseValue => "set_extended_response_value"
  | .setSearchBase => "set_search_base"
  | .setSearchScope => "set_search_scope"
  | .setSearchDeref => "set_search_deref"
  | .setSearchSizeLimit => "set_search_size_limit"
  | .setSearchTimeLimit => "set_search_time_limit"
  | .setSearchTypesOnly => "set_search_types_only"
  | .storeSearchFilter => "store_search_filter"
  | .addSelectedAttribute => "add_selected_attribute"
  | .openConnective .and => "open_and_filter"
  | .openConnective .or => "open_or_filter"
  | .openConnective .not => "open_not_filter"
  | .closeConnective => "close_composite_filter"
  | .openComparison .equality => "open_equality_filter"
  | .openComparison .greaterOrEqual => "open_greater_or_equal_filter"
  | .openComparison .lessOrEqual => "open_less_or_equal_filter"
  | .openComparison .approx => "open_approx_filter"
  | .openSubstrings => "open_substrings_filter"
  | .openExtensible => "open_extensible_filter"
  | .closeExtensible => "close_extensible_filter"
  | .addPresent => "add_present_filter"
  | .setAvaDesc => "set_ava_desc"
  | .setAvaValue => "set_ava_value"
  | .setSubstringsType => "set_substrings_type"
  | .setSubstringInitial => "set_substring_initial"
  | .addSubstringAny => "add_substring_any"
  | .setSubstringFinal => "set_substring_final"
  | .setMatchingRule => "set_matching_rule"
  | .setExtensibleType => "set_extensible_type"
  | .setMatchValue => "set_match_value"
  | .setDnAttributes => "set_dn_attributes"
  | .setEntryName => "set_entry_name"
  | .startAttribute => "start_attribute"
  | .setAttributeType => "set_attribute_type"
  | .addAttributeValue => "add_attribute_value"
  | .finishAttribute => "finish_attribute"
  | .setModifyObject => "set_modify_object"
  | .setChangeOperation => "set_change_operation"
  | .setModDnEntry => "set_moddn_entry"
  | .setModDnNewRdn => "set_moddn_new_rdn"
  | .setModDnDeleteOld => "set_moddn_delete_old"
  | .setModDnNewSuperior => "set_moddn_new_superior"
  | .setCompareEntry => "set_compare_entry"
  | .addReferenceUri => "add_reference_uri"
  | .setExtendedRequestName => "set_extended_request_name"
  | .setExtendedRequestValue => "set_extended_request_value"
  | .setIntermediateName => "set_intermediate_name"
  | .setIntermediateValue => "set_intermediate_value"

end Action

end LdapWire.Grammar
