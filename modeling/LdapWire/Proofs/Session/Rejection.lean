import LdapWire.Proofs.Session.Chunks
import LdapWire.Proofs.Session.Failure
import LdapWire.Proofs.Session.Reachable

/-!
# What a session answers after it has failed

Calls of both kinds, those that ask for the next message and those that ask for all
of them, are answered one after another (`Session.replies`). Up to the first error
the session is alive, and a call that asks for more input has read all of it. The
first error finds fault with the input: it is never one that says that a call was out
of place. From then on the session does not change, and it answers every call with
the same refusal (`Session.proceeds_or_rejected`).

A reader in the registry may return any error at all, so these statements are about
registries whose readers find fault with nothing but values (`Registry.Orderly`).
-/

set_option autoImplicit false

namespace LdapWire

variable {decoder : Decoder}

/-! ## Errors of a session -/

namespace Session

variable {session after : Session} {chunk : Bytes} {error : CodecError}

/-- The first error finds fault with the input. -/
theorem Reachable.faultsInput_of_failed (reachable : Reachable decoder session)
    (orderly : decoder.registry.Orderly) (alive : session.poisoned = false)
    (failed : feed decoder chunk session = .error error after) : error.FaultsInput := by
  obtain ⟨octets, consistent⟩ := reachable.consistent alive
  have ran := run_of_failed alive consistent.waiting failed
  exact (Machine.run_failsAs _ _ _ _ ran).faultsInput orderly

/-- Draining leads to a session that calls of `feed` lead to, and all input has been
read. If it fails, then for a fault of the input. -/
theorem Reachable.drain (reachable : Reachable decoder session)
    (orderly : decoder.registry.Orderly) (alive : session.poisoned = false) (chunk : Bytes) :
    ∃ delivery after, session.drain decoder chunk = (delivery, after) ∧
      match delivery.error with
      | none => Reachable decoder after ∧ after.poisoned = false ∧ after.pending = []
      | some error => after.poisoned = true ∧ error.FaultsInput := by
  fun_induction Session.drain decoder session chunk with
  | case1 session chunk error final failed =>
      exact ⟨_, _, rfl, poisoned_of_failed failed,
        reachable.faultsInput_of_failed orderly alive failed⟩
  | case2 session chunk final fed =>
      obtain ⟨octets, consistent⟩ := reachable.consistent alive
      exact ⟨_, _, rfl, .fed reachable fed, (poisoned_feed fed).2,
        Machine.run_left_eq_nil (run_of_feed consistent.waiting fed).1⟩
  | case3 session chunk message middle fed later final drained further =>
      obtain ⟨_, _, same, ends⟩ := further (.fed reachable fed) (poisoned_feed fed).2
      cases drained.symm.trans same
      exact ⟨_, _, rfl, ends⟩

/-! ## Calls one after another -/

/-- A call of a session: for the next message, or for all messages that a chunk
completes. -/
inductive Call where
  | next (chunk : Bytes)
  | all (chunk : Bytes)

/-- The messages that a call returns. -/
def Call.answer (decoder : Decoder) : Call → Step Session (List Message)
  | .next chunk => Option.toList <$> feed decoder chunk
  | .all chunk => feedAll decoder chunk

/-- Whether a call that returns some messages asks for more input. -/
def Call.AsksForMore : Call → List Message → Prop
  | .next _, messages => messages = []
  | .all _, _ => True

/-- A call, what it returns, and the session after it. -/
structure Reply where
  call : Call
  result : Except CodecError (List Message)
  session : Session

/-- The replies to calls one after another. A call that fails is not the last one. -/
def replies (decoder : Decoder) : List Call → Session → List Reply
  | [], _ => []
  | call :: later, session =>
      match call.answer decoder session with
      | .ok messages after => ⟨call, .ok messages, after⟩ :: replies decoder later after
      | .error error after => ⟨call, .error error, after⟩ :: replies decoder later after

theorem replies_of_ok {call : Call} {messages : List Message}
    (answered : call.answer decoder session = .ok messages after) (later : List Call) :
    replies decoder (call :: later) session
      = ⟨call, .ok messages, after⟩ :: replies decoder later after := by
  rw [replies, answered]

theorem replies_of_error {call : Call} (answered : call.answer decoder session = .error error after)
    (later : List Call) :
    replies decoder (call :: later) session
      = ⟨call, .error error, after⟩ :: replies decoder later after := by
  rw [replies, answered]

/-- Whether a call has succeeded and left the session alive, with nothing unread if it
asks for more input. -/
def Reply.Proceeds (reply : Reply) : Prop :=
  ∃ messages, reply.result = .ok messages ∧ reply.session.poisoned = false
    ∧ (reply.call.AsksForMore messages → reply.session.pending = [])

/-- The reply of a session that has failed before. -/
def Reply.refusal (session : Session) (call : Call) : Reply :=
  ⟨call, .error .sessionPoisoned, session⟩

theorem answer_of_poisoned (decoder : Decoder) (call : Call) (poisoned : session.poisoned = true) :
    call.answer decoder session = .error .sessionPoisoned session := by
  cases call with
  | next chunk =>
      rw [Call.answer, map_eq_pure_bind, Step.bind_of_error _ (feed_of_poisoned _ _ poisoned)]
  | all chunk =>
      have drained : session.drain decoder chunk
          = ({ messages := [], error := some .sessionPoisoned }, session) := by
        rw [drain.eq_def]
        split
        · rename_i failed
          rw [feed_of_poisoned decoder chunk poisoned] at failed
          cases failed
          rfl
        · rename_i fed
          rw [feed_of_poisoned decoder chunk poisoned] at fed
          cases fed
        · rename_i fed
          rw [feed_of_poisoned decoder chunk poisoned] at fed
          cases fed
      rw [Call.answer, feedAll, drained]

/-- A session that has failed refuses every call, and does not change. -/
theorem replies_of_poisoned (decoder : Decoder) (calls : List Call)
    (poisoned : session.poisoned = true) :
    replies decoder calls session = calls.map (Reply.refusal session) := by
  induction calls with
  | nil => rfl
  | cons call later further =>
      rw [replies_of_error (answer_of_poisoned decoder call poisoned), further]
      rfl

/-- **One call** of a session that is alive. -/
theorem Reachable.answer_meets (reachable : Reachable decoder session)
    (orderly : decoder.registry.Orderly) (alive : session.poisoned = false) (call : Call) :
    match call.answer decoder session with
    | .ok messages after =>
        Reachable decoder after ∧ Reply.Proceeds ⟨call, .ok messages, after⟩
    | .error error after => after.poisoned = true ∧ error.FaultsInput := by
  cases call with
  | next chunk =>
      rw [Call.answer, map_eq_pure_bind, Step.bind_apply]
      cases fed : feed decoder chunk session with
      | ok message after =>
          obtain ⟨octets, consistent⟩ := reachable.consistent alive
          refine ⟨.fed reachable fed, _, rfl, (poisoned_feed fed).2, fun asks => ?_⟩
          cases message with
          | none => exact Machine.run_left_eq_nil (run_of_feed consistent.waiting fed).1
          | some message => cases asks
      | error error after =>
          exact ⟨poisoned_of_failed fed, reachable.faultsInput_of_failed orderly alive fed⟩
  | all chunk =>
      obtain ⟨⟨messages, failed⟩, after, drained, ends⟩ := reachable.drain orderly alive chunk
      rw [Call.answer, feedAll, drained]
      cases failed with
      | none => exact ⟨ends.1, messages, rfl, ends.2.1, fun _ => ends.2.2⟩
      | some error => exact ends

/-- Calls of a session that is alive, up to the first error and beyond it. -/
theorem Reachable.replies_split (reachable : Reachable decoder session)
    (orderly : decoder.registry.Orderly) (alive : session.poisoned = false) (calls : List Call) :
    (∀ reply ∈ replies decoder calls session, reply.Proceeds)
    ∨ ∃ before failing later error rejected, calls = before ++ failing :: later
      ∧ (∀ reply ∈ replies decoder before session, reply.Proceeds)
      ∧ error.FaultsInput ∧ rejected.poisoned = true
      ∧ replies decoder calls session = replies decoder before session
          ++ ⟨failing, .error error, rejected⟩ :: later.map (Reply.refusal rejected) := by
  induction calls generalizing session with
  | nil => exact .inl fun _ listed => absurd listed List.not_mem_nil
  | cons call calls further =>
      have meets := reachable.answer_meets orderly alive call
      cases answered : call.answer decoder session with
      | error error after =>
          rw [answered] at meets
          refine .inr ⟨[], call, calls, error, after, rfl,
            fun _ listed => absurd listed List.not_mem_nil, meets.2, meets.1, ?_⟩
          rw [replies_of_error answered, replies_of_poisoned decoder calls meets.1]
          rfl
      | ok messages after =>
          rw [answered] at meets
          obtain ⟨reached, proceeds⟩ := meets
          have stillAlive : after.poisoned = false := by
            obtain ⟨_, _, stillAlive, _⟩ := proceeds
            exact stillAlive
          have first := replies_of_ok answered
          rcases further reached stillAlive with
            all | ⟨before, failing, later, error, rejected, rfl, proceed, faults, poisoned, same⟩
          · left
            rw [first]
            exact List.forall_mem_cons.2 ⟨proceeds, all⟩
          · refine .inr ⟨call :: before, failing, later, error, rejected, rfl, ?_, faults,
              poisoned, ?_⟩
            · rw [first]
              exact List.forall_mem_cons.2 ⟨proceeds, proceed⟩
            · rw [first, first, same]
              rfl

/-- **The first error of a session is its last word.** Whatever calls are made, either all
of them succeed, or the calls up to some point do, the one behind them fails for a fault of
the input, and all later ones are refused by a session that does not change any more. Calls
that succeed leave the session alive, and have read all input if they ask for more. -/
theorem proceeds_or_rejected (orderly : decoder.registry.Orderly) (calls : List Call) :
    (∀ reply ∈ replies decoder calls {}, reply.Proceeds)
    ∨ ∃ before failing later error rejected, calls = before ++ failing :: later
      ∧ (∀ reply ∈ replies decoder before {}, reply.Proceeds)
      ∧ error.FaultsInput ∧ rejected.poisoned = true
      ∧ replies decoder calls {} = replies decoder before {}
          ++ ⟨failing, .error error, rejected⟩ :: later.map (Reply.refusal rejected) :=
  Reachable.replies_split .fresh orderly rfl calls

/-- A sequence of indefinite length. -/
theorem drain_indefinite : (drain {} {} [0x30, 0x80]).1
    = { messages := [], error := some (.corrupt .indefiniteLength) } := by
  rw [drain_fresh]
  decide +kernel

/-- Behind an indefinite length neither the rest of a message nor nothing is read. -/
theorem proceeds_or_rejected_indefinite :
    ∃ rejected, rejected.poisoned = true
      ∧ replies {} [.all [0x30, 0x80], .next [0x02, 0x01], .all []] {}
        = [⟨.all [0x30, 0x80], .error (.corrupt .indefiniteLength), rejected⟩,
            .refusal rejected (.next [0x02, 0x01]), .refusal rejected (.all [])] := by
  have refused := drain_indefinite
  rcases drained : drain {} {} [0x30, 0x80] with ⟨delivery, final⟩
  rw [drained] at refused
  cases refused
  have answered : Call.answer {} (.all [0x30, 0x80]) {}
      = .error (.corrupt .indefiniteLength) final := by
    rw [Call.answer, feedAll, drained]
  have first := replies_of_error answered
  have stuck (later : List Call) :
      ¬ ∀ reply ∈ replies {} (.all [0x30, 0x80] :: later) {}, reply.Proceeds := by
    rw [first]
    intro proceed
    obtain ⟨_, succeeded, _⟩ := proceed _ List.mem_cons_self
    cases succeeded
  have orderly : ({} : Decoder).registry.Orderly := Registry.builtin_orderly
  rcases proceeds_or_rejected orderly [.all [0x30, 0x80], .next [0x02, 0x01], .all []] with
    all | ⟨before, failing, later, error, rejected, split, proceed, _, poisoned, same⟩
  · exact absurd all (stuck _)
  · cases before with
    | cons call before =>
        obtain rfl := (List.cons.inj split).1
        exact absurd proceed (stuck before)
    | nil =>
        cases split
        refine ⟨rejected, poisoned, same.trans ?_⟩
        rw [first] at same
        cases (List.cons.inj same).1
        rfl

end Session

end LdapWire
