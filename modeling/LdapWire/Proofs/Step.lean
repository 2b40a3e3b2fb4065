import LdapWire.Error

/-!
# Steps one after another

What a sequence of steps does is read off what its parts do. The lemmas below say
so for the operations from which steps are written, so that no other module needs
to know how steps are represented.
-/

set_option autoImplicit false

namespace LdapWire.Step

variable {σ α β : Type} {before middle after : σ}

@[simp] theorem pure_apply (value : α) (state : σ) :
    (pure value : Step σ α) state = .ok value state :=
  rfl

@[simp] theorem throw_apply (error : CodecError) (state : σ) :
    (throw error : Step σ α) state = .error error state :=
  rfl

@[simp] theorem get_apply (state : σ) : (get : Step σ σ) state = .ok state state :=
  rfl

@[simp] theorem modify_apply (change : σ → σ) (state : σ) :
    (modify change : Step σ Unit) state = .ok () (change state) :=
  rfl

@[simp] theorem lift_ok (value : α) (state : σ) :
    (Step.lift (.ok value) : Step σ α) state = .ok value state :=
  rfl

@[simp] theorem lift_error (error : CodecError) (state : σ) :
    (Step.lift (.error error) : Step σ α) state = .error error state :=
  rfl

theorem lift_eq_ok {result : Codec α} {value : α}
    (lifted : (Step.lift result : Step σ α) before = .ok value after) :
    result = .ok value ∧ after = before := by
  cases result with
  | error error => cases lifted
  | ok found =>
      cases lifted
      exact ⟨rfl, rfl⟩

theorem bind_apply (first : Step σ α) (next : α → Step σ β) (state : σ) :
    (first >>= next) state =
      match first state with
      | .ok value state => next value state
      | .error error state => .error error state := by
  simp only [bind, EStateM.bind]
  cases first state <;> rfl

@[simp] theorem get_bind (next : σ → Step σ β) (state : σ) :
    ((get : Step σ σ) >>= next) state = next state state :=
  rfl

@[simp] theorem modify_bind (change : σ → σ) (next : Unit → Step σ β) (state : σ) :
    ((modify change : Step σ Unit) >>= next) state = next () (change state) :=
  rfl

theorem ite_bind (condition : Prop) [Decidable condition] (yes no : Step σ α)
    (next : α → Step σ β) :
    (if condition then yes else no) >>= next
      = if condition then yes >>= next else no >>= next := by
  split <;> rfl

theorem bind_of_ok {first : Step σ α} {value : α} (next : α → Step σ β)
    (ran : first before = .ok value after) : (first >>= next) before = next value after := by
  rw [bind_apply, ran]

theorem bind_of_error {first : Step σ α} {error : CodecError} (next : α → Step σ β)
    (failed : first before = .error error after) :
    (first >>= next) before = .error error after := by
  rw [bind_apply, failed]

/-- A step of which only the value is changed afterwards fails as it is. -/
theorem error_of_bind_pure {step : Step σ α} {change : α → β} {error : CodecError}
    (failed : (do return change (← step) : Step σ β) before = .error error after) :
    step before = .error error after := by
  rw [bind_apply] at failed
  cases ran : step before with
  | ok value middle =>
      rw [ran] at failed
      cases failed
  | error error middle =>
      rw [ran] at failed
      cases failed
      rfl

/-- A step of which only the value is changed afterwards succeeds as it is. -/
theorem ok_of_bind_pure {step : Step σ α} {change : α → β} {result : β}
    (ran : (do return change (← step) : Step σ β) before = .ok result after) :
    ∃ value, step before = .ok value after := by
  rw [bind_apply] at ran
  cases inner : step before with
  | error error middle =>
      rw [inner] at ran
      cases ran
  | ok value middle =>
      rw [inner] at ran
      cases ran
      exact ⟨value, rfl⟩

/-! ## What a step guarantees -/

/-- Whether a step taken at `before` ends as `post` says, or fails as `fault` says. -/
def Meets (step : Step σ α) (before : σ) (post : α → σ → Prop) (fault : CodecError → Prop) :
    Prop :=
  match step before with
  | .ok value after => post value after
  | .error error _ => fault error

namespace Meets

variable {step : Step σ α} {post : α → σ → Prop} {fault : CodecError → Prop}

theorem of_ok {value : α} (ran : step before = .ok value after) (ends : post value after) :
    Meets step before post fault := by
  rw [Meets, ran]
  exact ends

theorem of_error {error : CodecError} (failed : step before = .error error after)
    (tolerated : fault error) : Meets step before post fault := by
  rw [Meets, failed]
  exact tolerated

theorem ok {value : α} (meets : Meets step before post fault)
    (ran : step before = .ok value after) : post value after := by
  rwa [Meets, ran] at meets

theorem error {error : CodecError} (meets : Meets step before post fault)
    (failed : step before = .error error after) : fault error := by
  rwa [Meets, failed] at meets

theorem mono {weaker : α → σ → Prop} (meets : Meets step before post fault)
    (implies : ∀ value after, post value after → weaker value after) :
    Meets step before weaker fault := by
  cases ran : step before with
  | ok value after => exact of_ok ran (implies value after (meets.ok ran))
  | error error after => exact of_error ran (meets.error ran)

theorem bind {next : α → Step σ β} {final : β → σ → Prop} (first : Meets step before post fault)
    (second : ∀ value middle, post value middle → Meets (next value) middle final fault) :
    Meets (step >>= next) before final fault := by
  cases ran : step before with
  | ok value middle =>
      have ends := second value middle (first.ok ran)
      rwa [Meets, bind_of_ok next ran]
  | error error middle => exact of_error (bind_of_error next ran) (first.error ran)

/-- A computation without state comes first. -/
theorem lift_bind {result : Codec α} {next : α → Step σ β} {final : β → σ → Prop}
    (fails : ∀ error, result = .error error → fault error)
    (goes : ∀ value, result = .ok value → Meets (next value) before final fault) :
    Meets (Step.lift result >>= next) before final fault := by
  cases computed : result with
  | error error => exact of_error rfl (fails error computed)
  | ok value => exact goes value computed

end Meets

/-! ## What a step comes to -/

/-- What a step comes to. The state that a failure leaves behind does not count. -/
def outcome (step : Step σ α) (state : σ) : Codec (α × σ) :=
  match step state with
  | .ok value after => .ok (value, after)
  | .error error _ => .error error

theorem of_outcome_eq_ok {step : Step σ α} {value : α}
    (ran : step.outcome before = .ok (value, after)) : step before = .ok value after := by
  unfold outcome at ran
  split at ran <;> cases ran
  assumption

theorem exists_of_outcome_eq_error {step : Step σ α} {error : CodecError}
    (failed : step.outcome before = .error error) : ∃ after, step before = .error error after := by
  unfold outcome at failed
  split at failed <;> cases failed
  exact ⟨_, ‹_›⟩

@[simp] theorem outcome_pure (value : α) (state : σ) :
    (pure value : Step σ α).outcome state = pure (value, state) :=
  rfl

theorem outcome_bind (first : Step σ α) (next : α → Step σ β) (state : σ) :
    (first >>= next).outcome state = (do
      let reached ← first.outcome state
      (next reached.1).outcome reached.2) := by
  rw [outcome, bind_apply, outcome]
  cases first state <;> rfl

/-! ## What a step leaves alone -/

/-- The result of a step with another state behind it. -/
def changed (change : σ → σ) : EStateM.Result CodecError σ α → EStateM.Result CodecError σ α
  | .ok value state => .ok value (change state)
  | .error error state => .error error (change state)

/-- Whether a step neither sees nor undoes a change of the state. -/
def Commutes (change : σ → σ) (step : Step σ α) : Prop :=
  ∀ state, step (change state) = changed change (step state)

namespace Commutes

variable {change : σ → σ}

theorem pure (value : α) : Commutes change (Pure.pure value : Step σ α) := fun _ => rfl

theorem throw (error : CodecError) : Commutes change (MonadExcept.throw error : Step σ α) :=
  fun _ => rfl

theorem lift (result : Codec α) : Commutes change (Step.lift result : Step σ α) := by
  intro state
  cases result <;> rfl

theorem bind {first : Step σ α} {next : α → Step σ β} (commutes : Commutes change first)
    (further : ∀ value, Commutes change (next value)) : Commutes change (first >>= next) := by
  intro state
  rw [bind_apply, bind_apply, commutes state]
  cases first state with
  | ok value middle => exact further value middle
  | error error middle => rfl

end Commutes

end LdapWire.Step
