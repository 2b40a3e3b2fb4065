import LdapWire.Batch

/-!
# What stops a batch

A message stops a batch for one of two reasons, and the first is looked at first: its
identifier cannot tell its responses from others (`Policy.checkId_eq_error_iff`), or it reports
an operation that has failed and the batch is not to go on (`Policy.process_eq_error_iff`).
-/

set_option autoImplicit false

namespace LdapWire.Batch

variable {policy : Policy} {message : Message} {failure : Failure}

/-- A failed operation is told by a result with a code that is none of those of success. -/
theorem failure?_eq_some_iff :
    failure? message = some failure ↔
      ∃ result, message.operation.result? = some result ∧ result.code ∉ successCodes
        ∧ failure = .operationFailed message.id message.operation.kind result.code := by
  rw [failure?]
  cases message.operation.result? with
  | none => simp
  | some result =>
      by_cases success : result.code ∈ successCodes
      · simp [success]
      · simp [success, eq_comm]

namespace Policy

/-- Identifiers must be positive where requests run side by side and their responses come in
any order, and nowhere else. -/
theorem checkId_eq_error_iff :
    policy.checkId message = .error failure ↔
      policy.processing = .parallel ∧ policy.responseOrder = .unordered ∧ message.id ≤ 0
        ∧ failure = .missingRequestId message.id := by
  rw [checkId]
  by_cases missing : (policy.requiresPositiveId && decide (message.id ≤ 0)) = true
  · rw [if_pos missing]
    simp only [requiresPositiveId, Bool.and_eq_true, beq_iff_eq, decide_eq_true_eq] at missing
    simp [missing, eq_comm]
  · rw [if_neg missing]
    simp only [requiresPositiveId, Bool.and_eq_true, beq_iff_eq, decide_eq_true_eq] at missing
    simp only [reduceCtorEq, false_iff]
    rintro ⟨parallel, unordered, negative, -⟩
    exact missing ⟨⟨parallel, unordered⟩, negative⟩

theorem process_of_refused (refused : policy.checkId message = .error failure) :
    policy.process message = .error failure := by
  rw [process, refused]
  rfl

theorem process_of_accepted (accepted : policy.checkId message = .ok ()) :
    policy.process message =
      match failure? message with
      | none => .ok none
      | some failure => if policy.onError = .exit then .error failure else .ok (some failure) := by
  rw [process, accepted]
  cases found : failure? message with
  | none => rfl
  | some failure =>
      rw [continuesOnError]
      cases policy.onError <;> rfl

/-- **A message stops a batch** if its identifier is refused, or else if its operation has
failed and the batch does not go on after that. -/
theorem process_eq_error_iff :
    policy.process message = .error failure ↔
      policy.checkId message = .error failure
        ∨ policy.checkId message = .ok () ∧ failure? message = some failure
            ∧ policy.onError = .exit := by
  cases checked : policy.checkId message with
  | error refused => simp [process_of_refused checked]
  | ok _ =>
      rw [process_of_accepted checked]
      cases found : failure? message with
      | none => simp
      | some failed => cases exits : policy.onError <;> simp

/-- **A message lets a batch go on** if its identifier is accepted and its operation has not
failed, or the batch goes on after that; the failure is then told. -/
theorem process_eq_ok_iff {told : Option Failure} :
    policy.process message = .ok told ↔
      policy.checkId message = .ok () ∧ failure? message = told
        ∧ (policy.onError = .exit → told = none) := by
  cases checked : policy.checkId message with
  | error refused => simp [process_of_refused checked]
  | ok _ =>
      rw [process_of_accepted checked]
      cases found : failure? message with
      | none => cases told <;> simp
      | some failed => cases exits : policy.onError <;> cases told <;> simp

end Policy

end LdapWire.Batch
