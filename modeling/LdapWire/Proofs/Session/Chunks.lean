import LdapWire.Proofs.Session.Octet

/-!
# Chunks do not matter

A machine that is driven octet by octet knows nothing of chunks, so what it
delivers for some octets and then for others is what it delivers for all of them
(`drainOctets_append`). A session delivers what its machine does
(`drain_eq_drainOctets`), hence the cuts between the chunks that it is fed with
make no difference (`drainEach_eq_drain`).
-/

set_option autoImplicit false

namespace LdapWire

/-- More messages in front of those delivered. -/
def Delivery.after (messages : List Message) (delivery : Delivery) : Delivery :=
  { delivery with messages := messages ++ delivery.messages }

/-- What octets one after another deliver, and the session that they leave. -/
def Machine.drainOctets (decoder : Decoder) : Bytes → Machine → Delivery × Session
  | [], machine => ({ messages := [], error := none }, { machine })
  | octet :: rest, machine =>
      match machine.push decoder octet with
      | .error error machine =>
          ({ messages := [], error := some error }, { machine, poisoned := true })
      | .ok message machine =>
          let (delivery, session) := drainOctets decoder rest machine
          (delivery.after message.toList, session)

namespace Session

/-- Feeds chunks one after another and drains the session after each of them, up
to the first error. -/
def drainEach (decoder : Decoder) (session : Session) : List Bytes → Delivery × Session
  | [] => ({ messages := [], error := none }, session)
  | chunk :: rest =>
      let (delivery, session) := session.drain decoder chunk
      match delivery.error with
      | some _ => (delivery, session)
      | none =>
          let (further, session) := drainEach decoder session rest
          (further.after delivery.messages, session)

end Session

namespace Machine

/-- The octets up to the end of a message deliver it, and those after it deliver
what they deliver to the machine as it is then. -/
theorem drainOctets_eq_run (decoder : Decoder) (input : Bytes) (machine : Machine) :
    drainOctets decoder input machine =
      match run decoder input machine with
      | .error error after =>
          ({ messages := [], error := some error }, { machine := after, poisoned := true })
      | .ok (none, _) after => ({ messages := [], error := none }, { machine := after })
      | .ok (some message, left) after =>
          let (delivery, session) := drainOctets decoder left after
          (delivery.after [message], session) := by
  induction input generalizing machine with
  | nil => rfl
  | cons octet rest further =>
      rw [drainOctets, run_cons, Step.bind_apply]
      cases push decoder octet machine with
      | error error after => rfl
      | ok message after =>
          cases message with
          | some message => rfl
          | none =>
              dsimp only [resume]
              rw [further after]
              rfl

/-- Octets and then others deliver what all of them do. -/
theorem drainOctets_append (decoder : Decoder) (first second : Bytes) (machine : Machine) :
    drainOctets decoder (first ++ second) machine =
      let (delivery, session) := drainOctets decoder first machine
      match delivery.error with
      | some _ => (delivery, session)
      | none =>
          let (further, session) := drainOctets decoder second session.machine
          (further.after delivery.messages, session) := by
  induction first generalizing machine with
  | nil => rfl
  | cons octet rest further =>
      rw [List.cons_append, drainOctets, drainOctets]
      cases push decoder octet machine with
      | error error after => rfl
      | ok message after =>
          dsimp only
          rw [further after]
          cases delivered : drainOctets decoder rest after with
          | mk delivery session =>
              cases failed : delivery.error with
              | some error => simp [Delivery.after, failed]
              | none => simp [Delivery.after, failed]

/-- A session without an error that octets leave has read all of them and waits. -/
theorem drainOctets_left {decoder : Decoder} {input : Bytes} {machine : Machine}
    {delivery : Delivery} {session : Session} (waiting : machine.Waiting)
    (drained : drainOctets decoder input machine = (delivery, session))
    (succeeded : delivery.error = none) :
    session = { machine := session.machine } ∧ session.machine.Waiting := by
  induction input generalizing machine delivery with
  | nil =>
      cases drained
      exact ⟨rfl, waiting⟩
  | cons octet rest further =>
      rw [drainOctets] at drained
      cases pushed : push decoder octet machine with
      | error error after =>
          rw [pushed] at drained
          cases drained
          cases succeeded
      | ok message after =>
          rw [pushed] at drained
          cases drained
          exact further (waiting_of_push waiting pushed) rfl succeeded

end Machine

namespace Session

theorem feed_eq_run {decoder : Decoder} {session : Session} {chunk : Bytes}
    (sound : session.poisoned = false) (waiting : session.machine.Waiting) :
    feed decoder chunk session =
      match Machine.run decoder (session.pending ++ chunk) session.machine with
      | .ok (message, pending) machine => .ok message { machine, pending }
      | .error error machine => .error error { machine, poisoned := true } := by
  obtain ⟨machine, pending, poisoned⟩ := session
  cases sound
  rw [← Machine.consume_eq_run waiting]
  rfl

/-- A call that succeeds has read what was waiting and the chunk, up to what waits now. -/
theorem run_of_feed {decoder : Decoder} {session after : Session} {chunk : Bytes}
    {message : Option Message} (waiting : session.machine.Waiting)
    (fed : feed decoder chunk session = .ok message after) :
    Machine.run decoder (session.pending ++ chunk) session.machine
        = .ok (message, after.pending) after.machine
      ∧ after = { machine := after.machine, pending := after.pending } := by
  cases sound : session.poisoned with
  | true =>
      rw [feed_of_poisoned decoder chunk sound] at fed
      cases fed
  | false =>
      rw [feed_eq_run sound waiting] at fed
      split at fed
      · rename_i ran
        cases fed
        exact ⟨ran, rfl⟩
      · cases fed

/-- A call that fails in a session that is alive has met the error in these octets. -/
theorem run_of_failed {decoder : Decoder} {session after : Session} {chunk : Bytes}
    {error : CodecError} (sound : session.poisoned = false) (waiting : session.machine.Waiting)
    (failed : feed decoder chunk session = .error error after) :
    Machine.run decoder (session.pending ++ chunk) session.machine
      = .error error after.machine := by
  rw [feed_eq_run sound waiting] at failed
  split at failed
  · cases failed
  · rename_i ran
    cases failed
    exact ran

/-- A session delivers what its machine delivers octet by octet. -/
theorem drain_eq_drainOctets {decoder : Decoder} {session : Session} {chunk : Bytes}
    (sound : session.poisoned = false) (waiting : session.machine.Waiting) :
    session.drain decoder chunk =
      Machine.drainOctets decoder (session.pending ++ chunk) session.machine := by
  rw [Machine.drainOctets_eq_run]
  fun_induction drain decoder session chunk with
  | case1 session chunk error after fed =>
      rw [feed_eq_run sound waiting] at fed
      split at fed
      · cases fed
      · rename_i ran
        cases fed
        rw [ran]
  | case2 session chunk after fed =>
      rw [feed_eq_run sound waiting] at fed
      split at fed
      · rename_i ran
        cases fed
        rw [ran]
        cases Machine.run_left_eq_nil ran
        rfl
      · cases fed
  | case3 session chunk message after fed delivery final drained further =>
      rw [feed_eq_run sound waiting] at fed
      split at fed
      · rename_i ran
        cases fed
        rw [ran]
        have stillWaiting := Machine.waiting_of_run waiting ran
        have rest := further rfl stillWaiting
        rw [← Machine.drainOctets_eq_run, drained, List.append_nil] at rest
        dsimp only at rest ⊢
        rw [← rest]
        rfl
      · cases fed

/-- Sessions that wait at the end of their input deliver through chunks what their
machine delivers for all octets. -/
theorem drainEach_eq_drainOctets {decoder : Decoder} {chunks : List Bytes} {machine : Machine}
    (waiting : machine.Waiting) :
    drainEach decoder { machine } chunks =
      Machine.drainOctets decoder chunks.flatten machine := by
  induction chunks generalizing machine with
  | nil => rfl
  | cons chunk rest further =>
      rw [List.flatten_cons, Machine.drainOctets_append, drainEach,
        drain_eq_drainOctets rfl waiting]
      dsimp only [List.nil_append]
      cases drained : Machine.drainOctets decoder chunk machine with
      | mk delivery session =>
          cases failed : delivery.error with
          | some error => rfl
          | none =>
              obtain ⟨left, stillWaiting⟩ := Machine.drainOctets_left waiting drained failed
              dsimp only
              rw [left, further stillWaiting]

theorem drain_fresh (decoder : Decoder) (octets : Bytes) :
    drain decoder {} octets = Machine.drainOctets decoder octets {} :=
  drain_eq_drainOctets rfl (Machine.waiting_of_current_eq_none rfl)

theorem drainEach_fresh (decoder : Decoder) (chunks : List Bytes) :
    drainEach decoder {} chunks = Machine.drainOctets decoder chunks.flatten {} :=
  drainEach_eq_drainOctets (Machine.waiting_of_current_eq_none rfl)

/-- **However a string of octets is cut into chunks, a fresh session delivers the
same messages and the same error for them, and is left in the same state.** -/
theorem drainEach_eq_drain (decoder : Decoder) (chunks : List Bytes) :
    drainEach decoder {} chunks = drain decoder {} chunks.flatten := by
  have waiting : ({} : Machine).Waiting := Machine.waiting_of_current_eq_none rfl
  calc drainEach decoder {} chunks
      = Machine.drainOctets decoder chunks.flatten {} := drainEach_eq_drainOctets waiting
    _ = drain decoder {} chunks.flatten := by
        rw [drain_eq_drainOctets rfl waiting]
        rfl

end Session

end LdapWire
