import LdapWire.Proofs.Control.Builtin

/-!
# Kinds of failure

An error finds fault with a value that has been received, or with the input of a
decoder in some other way, or it says that a call was out of place. A computation or a
step `FailsAs` a kind if all of its errors are of that kind. The readers of values, and
with them the readers of content, find fault with nothing but the value.
-/

set_option autoImplicit false

namespace LdapWire

namespace CodecError

/-- Whether an error finds fault with a value: with its encoding or with a rule that it
breaks. -/
def FaultsValue : CodecError → Prop
  | .corruptEncoding _ | .structuralViolation _ => True
  | _ => False

/-- Whether an error finds fault with the input of a decoder. -/
def FaultsInput : CodecError → Prop
  | .corruptEncoding _ | .unexpectedTag .. | .structuralViolation _
  | .unsupportedCriticalControl _ | .limitExceeded .. => True
  | .truncatedInput _ | .sessionPoisoned | .bufferTooSmall .. | .lengthMismatch ..
  | .planExhausted => False

theorem faultsInput_of_faultsValue {error : CodecError} (faults : error.FaultsValue) :
    error.FaultsInput := by
  cases error <;> trivial

end CodecError

/-! ## Computations -/

/-- Whether a computation fails only with errors of a kind. -/
def Codec.FailsAs {α : Type} (kind : CodecError → Prop) (result : Codec α) : Prop :=
  ∀ error, result = .error error → kind error

namespace Codec.FailsAs

variable {α β : Type} {kind : CodecError → Prop}

theorem ok (value : α) : Codec.FailsAs kind (.ok value) := nofun

theorem error {fault : CodecError} (such : kind fault) :
    Codec.FailsAs (α := α) kind (.error fault) := by
  rintro _ ⟨⟩
  exact such

theorem bind {result : Codec α} {check : α → Codec β} (first : result.FailsAs kind)
    (second : ∀ value, (check value).FailsAs kind) : Codec.FailsAs kind (result >>= check) := by
  intro fault failed
  rcases Content.checked failed with undone | ⟨value, _, refused⟩
  · exact first fault undone
  · exact second value fault refused

theorem map (change : α → β) {result : Codec α} (fails : result.FailsAs kind) :
    Codec.FailsAs kind (change <$> result) := by
  intro fault failed
  cases result with
  | ok value => cases failed
  | error fault =>
      cases failed
      exact fails _ rfl

end Codec.FailsAs

/-! ## Steps -/

/-- Whether a step fails, wherever it is taken, only with errors of a kind. -/
def Step.FailsAs {σ α : Type} (kind : CodecError → Prop) (step : Step σ α) : Prop :=
  ∀ before error after, step before = .error error after → kind error

namespace Step.FailsAs

variable {σ α β : Type} {kind : CodecError → Prop}

theorem pure (value : α) : Step.FailsAs (σ := σ) kind (Pure.pure value) := nofun

theorem get : Step.FailsAs kind (MonadState.get : Step σ σ) := nofun

theorem modify (change : σ → σ) :
    Step.FailsAs kind (MonadState.modifyGet fun state => ((), change state) : Step σ Unit) :=
  nofun

theorem throw {fault : CodecError} (such : kind fault) :
    Step.FailsAs kind (MonadExcept.throw fault : Step σ α) := by
  rintro _ _ _ ⟨⟩
  exact such

theorem lift {result : Codec α} (fails : result.FailsAs kind) :
    Step.FailsAs kind (Step.lift result : Step σ α) := by
  intro before error after failed
  cases result with
  | ok value => cases failed
  | error fault =>
      cases failed
      exact fails _ rfl

theorem bind {first : Step σ α} {next : α → Step σ β} (fails : first.FailsAs kind)
    (further : ∀ value, (next value).FailsAs kind) : Step.FailsAs kind (first >>= next) := by
  intro before error after failed
  rw [Step.bind_apply] at failed
  cases ran : first before with
  | ok value middle =>
      rw [ran] at failed
      exact further value middle error after failed
  | error fault middle =>
      rw [ran] at failed
      cases failed
      exact fails before _ _ ran

theorem map (change : α → β) {step : Step σ α} (fails : step.FailsAs kind) :
    Step.FailsAs kind (change <$> step) := by
  rw [map_eq_pure_bind]
  exact fails.bind fun _ => .pure _

theorem mono {other : CodecError → Prop} {step : Step σ α} (fails : step.FailsAs kind)
    (implies : ∀ error, kind error → other error) : step.FailsAs other :=
  fun before error after failed => implies error (fails before error after failed)

end Step.FailsAs

open CodecError (FaultsValue)

/-! ## Contents of elements -/

namespace Ber

theorem Utf8.decode_failsAs (content : Bytes) (what : String) :
    (decode content what).FailsAs FaultsValue := by
  unfold decode
  split
  · exact .ok _
  · exact .error trivial

theorem Boolean.decode_failsAs (content : Bytes) : (decode content).FailsAs FaultsValue := by
  unfold decode
  split
  · exact .ok _
  · exact .error trivial

theorem Integer.decode_failsAs (content : Bytes) (bound : Nat) :
    (decode content bound).FailsAs FaultsValue := by
  unfold decode
  split
  · exact .error trivial
  · split
    · exact .error trivial
    · exact .ok _

theorem Integer.decodeBounded_failsAs (content : Bytes) :
    (decodeBounded content).FailsAs FaultsValue :=
  .bind (decode_failsAs content _) fun _ => .ok _

end Ber

open Ber

namespace Draft

theorem nonEmptyText_failsAs (content : Bytes) (what : String) :
    (nonEmptyText content what).FailsAs FaultsValue := by
  refine .bind (Utf8.decode_failsAs content what) fun text => ?_
  split
  · exact .error trivial
  · exact .ok _

theorem nonNegative_failsAs (content : Bytes) (what : String) :
    (nonNegative content what).FailsAs FaultsValue := by
  refine .bind (Integer.decodeBounded_failsAs content) fun value => ?_
  split
  · exact .error trivial
  · exact .ok _

theorem bindVersion_failsAs (content : Bytes) : (bindVersion content).FailsAs FaultsValue := by
  refine .bind (Integer.decodeBounded_failsAs content) fun version => ?_
  split
  · exact .error trivial
  · exact .ok _

theorem resultCode_failsAs (content : Bytes) : (resultCode content).FailsAs FaultsValue := by
  refine .bind (Integer.decode_failsAs content _) fun code => ?_
  split
  · exact .error trivial
  · exact .ok _

theorem enumerated_failsAs {α : Type} {ofCode : Int → Codec α}
    (fails : ∀ code, (ofCode code).FailsAs FaultsValue) (content : Bytes) :
    (enumerated ofCode content).FailsAs FaultsValue :=
  .bind (Integer.decode_failsAs content _) fun _ => fails _

end Draft

theorem SearchScope.ofCode_failsAs (code : Int) : (ofCode code).FailsAs FaultsValue := by
  unfold ofCode
  split
  all_goals first | exact .ok _ | exact .error trivial

theorem AliasPolicy.ofCode_failsAs (code : Int) : (ofCode code).FailsAs FaultsValue := by
  unfold ofCode
  split
  all_goals first | exact .ok _ | exact .error trivial

theorem ChangeKind.ofCode_failsAs (code : Int) : (ofCode code).FailsAs FaultsValue := by
  unfold ofCode
  split
  all_goals first | exact .ok _ | exact .error trivial

/-! ## Values of controls -/

namespace Ber.Reader

variable {α : Type}

theorem octet_failsAs : octet.FailsAs FaultsValue := by
  intro left error after failed
  cases left <;> cases failed
  trivial

theorem tag_failsAs : tag.FailsAs FaultsValue := by
  refine .bind octet_failsAs fun found => .bind (.lift fun error failed => ?_) fun _ => .pure _
  obtain ⟨corruption, rfl⟩ := checkTag_corrupt failed
  trivial

theorem number_failsAs (count start : Nat) : (number count start).FailsAs FaultsValue := by
  induction count generalizing start with
  | zero => exact .pure _
  | succ count further => exact .bind octet_failsAs fun _ => further _

theorem length_failsAs : length.FailsAs FaultsValue := by
  refine .bind octet_failsAs fun first => .bind (.lift fun error failed => ?_) fun form => ?_
  · obtain ⟨corruption, rfl⟩ := Length.form_corrupt failed
    trivial
  · cases form with
    | short length => exact .pure _
    | long count => exact number_failsAs count 0

theorem take_failsAs (count : Nat) : (take count).FailsAs FaultsValue := by
  intro left error after failed
  unfold take at failed
  split at failed <;> cases failed
  trivial

theorem expected_failsAs (wanted : UInt8) : (expected wanted).FailsAs FaultsValue := by
  refine .bind tag_failsAs fun actual => ?_
  split
  · exact .bind (.throw trivial) fun _ => .bind length_failsAs fun _ => take_failsAs _
  · exact .bind length_failsAs fun _ => take_failsAs _

theorem finish_failsAs : finish.FailsAs FaultsValue := by
  intro left error after failed
  unfold finish at failed
  split at failed <;> cases failed
  trivial

theorem runOn_failsAs {reader : Reader α} (fails : reader.FailsAs FaultsValue) (content : Bytes) :
    (runOn reader content).FailsAs FaultsValue := by
  intro error failed
  unfold runOn at failed
  split at failed <;> cases failed
  rename_i refused
  exact fails _ _ _ refused

theorem soleSequence_failsAs {fields : Reader α} (fails : fields.FailsAs FaultsValue)
    (content : Bytes) : (soleSequence fields content).FailsAs FaultsValue :=
  .bind
    (runOn_failsAs (.bind (expected_failsAs _) fun _ => .bind finish_failsAs fun _ => .pure _) _)
    fun _ => runOn_failsAs fails _

end Ber.Reader

theorem PagedResults.parse_failsAs (value : Bytes) : (parse value).FailsAs FaultsValue := by
  refine Ber.Reader.soleSequence_failsAs ?_ value
  have integer : Reader.integer.FailsAs FaultsValue :=
    .bind (Reader.expected_failsAs _) fun _ => .lift (Integer.decodeBounded_failsAs _)
  refine .bind integer fun size => ?_
  have rest : Step.FailsAs FaultsValue (do
      let cookie ← Reader.octetString
      Reader.finish
      return ({ size, cookie } : PagedResults)) :=
    .bind (Reader.expected_failsAs _) fun _ => .bind Reader.finish_failsAs fun _ => .pure _
  split
  · exact .bind (.throw trivial) fun _ => rest
  · exact rest

theorem SyncMode.ofCode_failsAs (code : Int) : (ofCode code).FailsAs FaultsValue := by
  unfold ofCode
  split
  all_goals first | exact .ok _ | exact .error trivial

theorem SyncRequest.parse_failsAs (value : Bytes) : (parse value).FailsAs FaultsValue := by
  refine Ber.Reader.soleSequence_failsAs ?_ value
  have mode : readMode.FailsAs FaultsValue :=
    .bind (.bind (Reader.expected_failsAs _) fun _ => .lift (Integer.decode_failsAs _ _))
      fun _ => .lift (SyncMode.ofCode_failsAs _)
  have cookie : readCookie.FailsAs FaultsValue := by
    refine .bind nofun fun next => ?_
    split
    · exact .map some (Reader.expected_failsAs _)
    · exact .pure none
  have hint : readHint.FailsAs FaultsValue := by
    refine .bind nofun fun next => ?_
    split
    · exact .bind (Reader.expected_failsAs _) fun _ => .lift (Boolean.decode_failsAs _)
    · exact .pure false
  rw [fields_eq]
  exact .bind mode fun _ => .bind cookie fun _ => .bind hint fun _ =>
    .bind Reader.finish_failsAs fun _ => .pure _

namespace Registry

/-- Whether a registered reader returns an error. -/
def Reports (registry : Registry) (error : CodecError) : Prop :=
  ∃ oid reader content, registry.reader? oid = some reader ∧ reader content = .error error

/-- Whether an error finds fault with a value or with a control that is not known, or is
one that a registered reader returns. -/
def Refuses (registry : Registry) (error : CodecError) : Prop :=
  error.FaultsValue ∨ (∃ oid, error = .unsupportedCriticalControl oid) ∨ registry.Reports error

/-- Whether an error finds fault with the input, or is one that a registered reader
returns. -/
def Rejects (registry : Registry) (error : CodecError) : Prop :=
  error.FaultsInput ∨ registry.Reports error

/-- Whether the registered readers find fault with nothing but values. -/
def Orderly (registry : Registry) : Prop :=
  ∀ oid reader content, registry.reader? oid = some reader →
    (reader content).FailsAs FaultsValue

variable {registry : Registry} {error : CodecError}

theorem refuses_of_faultsValue (faults : error.FaultsValue) : registry.Refuses error := .inl faults

theorem Refuses.rejects (refuses : registry.Refuses error) : registry.Rejects error := by
  rcases refuses with faults | ⟨oid, rfl⟩ | reports
  · exact .inl (CodecError.faultsInput_of_faultsValue faults)
  · exact .inl trivial
  · exact .inr reports

theorem Rejects.faultsInput (rejects : registry.Rejects error) (orderly : registry.Orderly) :
    error.FaultsInput := by
  rcases rejects with faults | ⟨oid, reader, content, known, failed⟩
  · exact faults
  · exact CodecError.faultsInput_of_faultsValue (orderly oid reader content known error failed)

theorem readControl_failsAs (registry : Registry) (oid : String) (critical : Bool)
    (value : Option Bytes) :
    (registry.readControl oid critical value).FailsAs registry.Refuses := by
  unfold readControl
  split
  · rename_i reader content known
    refine .bind (fun error failed => ?_) fun _ => .ok _
    exact .inr (.inr ⟨oid, reader, content, known, failed⟩)
  · exact .ok _
  · split
    · exact .error (.inr (.inl ⟨oid, rfl⟩))
    · exact .ok _

theorem builtin_orderly : Registry.builtin.Orderly := by
  intro oid reader content known
  rcases reader?_builtin known with ⟨_, rfl⟩ | ⟨_, rfl⟩
  · exact .map Payload.paged (PagedResults.parse_failsAs content)
  · exact .map Payload.sync (SyncRequest.parse_failsAs content)

end Registry

end LdapWire
