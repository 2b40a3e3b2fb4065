import LdapWire.Proofs.Session.Division
import LdapWire.Session.Stream

/-!
# Streams, read by read

A stream takes its messages from a session that it feeds with what its source yields,
read by read. What a session has not read yet and what the source has not yielded yet
are one string of octets (`Stream.input`), and every call of `Stream.next` does with it
what the machine of the session does (`Stream.next_follows`). So the messages that a
stream yields up to its end or its first error, and the way in which it ends, do not
depend on how the reads are cut (`Stream.drain_reads`).
-/

set_option autoImplicit false

namespace LdapWire

/-! ## What is left to do -/

/-- A machine that has read its input without a message has not more to do. -/
theorem Machine.work_consume_le {decoder : Decoder} {input left : Bytes}
    {machine after : Machine}
    (consumed : consume decoder input machine = .ok (none, left) after) :
    after.work left ≤ machine.work input := by
  fun_induction consume decoder input machine with
  | case1 => cases consumed
  | case2 => cases consumed
  | case3 input machine nonempty left after taken less further =>
      exact Nat.le_trans (further consumed) (Nat.le_of_lt less)
  | case4 =>
      rename_i empty
      cases consumed
      rw [Decidable.not_not.1 empty]

theorem Session.work_feed_le {decoder : Decoder} {chunk : Bytes} {session after : Session}
    (fed : feed decoder chunk session = .ok none after) :
    after.work [] ≤ session.work chunk := by
  unfold feed at fed
  split at fed
  · cases fed
  · split at fed
    · rename_i consumed
      cases fed
      simpa [work] using Machine.work_consume_le consumed
    · cases fed

theorem Session.work_eq (session : Session) (chunk : Bytes) :
    session.work chunk = session.work [] + 2 * chunk.length := by
  simp only [work, Machine.work, List.append_nil, List.length_append]
  omega

/-- What a read takes is the front of what the source yields. -/
theorem Source.unread_read {source after : Source} {limit : Nat} {taken : Bytes}
    (result : source.read limit = (some taken, after)) :
    source.unread = taken ++ after.unread := by
  obtain ⟨reads, failing⟩ := source
  cases reads with
  | nil =>
      simp only [read, Prod.mk.injEq] at result
      obtain ⟨first, rfl⟩ := result
      split at first <;> cases first
      rfl
  | cons next later =>
      simp only [read, Prod.mk.injEq, Option.some.injEq] at result
      obtain ⟨rfl, rfl⟩ := result
      by_cases exhausted : (next.drop limit).isEmpty = true
      · have all := List.take_append_drop limit next
        rw [List.isEmpty_iff.1 exhausted, List.append_nil] at all
        simp only [exhausted, if_true, unread, List.flatten_cons, all]
      · simp only [exhausted, Bool.false_eq_true, if_false, unread, List.flatten_cons,
          ← List.append_assoc, List.take_append_drop]

namespace Stream

variable {decoder : Decoder} {chunkSize : Nat} {stream after : Stream} {message : Message}

/-- What a stream has still to do. -/
def work (stream : Stream) : Nat := 2 * stream.source.unread.length + stream.session.work []

theorem finish_ne_message : finish stream ≠ .ok (some message) after := by
  unfold finish
  split <;> simp

theorem work_pull_lt (pulled : pull decoder chunkSize stream = .ok (some message) after) :
    after.work < stream.work := by
  fun_induction pull decoder chunkSize stream with
  | case1 => cases pulled
  | case2 => exact absurd pulled finish_ne_message
  | case3 => cases pulled
  | case4 stream first rest source result less message session fed =>
      cases pulled
      have unread := congrArg List.length (Source.unread_read result)
      have ready := Session.work_feed_lt fed
      rw [List.length_append] at unread
      rw [Session.work_eq stream.session (first :: rest)] at ready
      simp only [work]
      omega
  | case5 stream first rest source result less session fed further =>
      have unread := congrArg List.length (Source.unread_read result)
      have waits := Session.work_feed_le fed
      have shrinks := further pulled
      rw [List.length_append] at unread
      rw [Session.work_eq stream.session (first :: rest)] at waits
      simp only [work] at shrinks ⊢
      omega

/-- The next message is in the octets left over, or in what is read then. -/
theorem next_eq (decoder : Decoder) (chunkSize : Nat) (stream : Stream) :
    next decoder chunkSize stream =
      match Session.feed decoder [] stream.session with
      | .error error session => .error (.codec error) { stream with session }
      | .ok (some message) session => .ok (some message) { stream with session }
      | .ok none session =>
          if stream.ended then finish { stream with session }
          else pull decoder chunkSize { stream with session } := by
  simp only [next, bind, EStateM.bind, feed]
  cases Session.feed decoder [] stream.session with
  | error error session => rfl
  | ok ready session =>
      cases ready with
      | some message => rfl
      | none =>
          obtain ⟨source, _, ended⟩ := stream
          cases ended <;> rfl

/-- A stream that has yielded a message has less to do. -/
theorem work_next_lt (yielded : next decoder chunkSize stream = .ok (some message) after) :
    after.work < stream.work := by
  rw [next_eq] at yielded
  cases fed : Session.feed decoder [] stream.session with
  | error error session =>
      rw [fed] at yielded
      cases yielded
  | ok ready session =>
      rw [fed] at yielded
      cases ready with
      | some message =>
          cases yielded
          exact Nat.add_lt_add_left (Session.work_feed_lt fed) _
      | none =>
          have waits := Session.work_feed_le fed
          dsimp only at yielded
          split at yielded
          · exact absurd yielded finish_ne_message
          · have less := work_pull_lt yielded
            simp only [work] at less ⊢
            omega

/-! ## Yielding messages -/

/-- What a stream yields up to its end or its first error, and the stream as it is then. -/
structure Yield where
  messages : List Message
  /-- The error, if it is not the end of the stream that has been reached. -/
  failure : Option StreamError
  stream : Stream

/-- Takes messages from a stream up to its end or its first error. -/
def drain (decoder : Decoder) (chunkSize : Nat) (stream : Stream) : Yield :=
  match _ : next decoder chunkSize stream with
  | .error error after => { messages := [], failure := some error, stream := after }
  | .ok none after => { messages := [], failure := none, stream := after }
  | .ok (some message) after =>
      let yielded := drain decoder chunkSize after
      { yielded with messages := message :: yielded.messages }
termination_by stream.work
decreasing_by exact work_next_lt ‹_›

theorem drain_eq (decoder : Decoder) (chunkSize : Nat) (stream : Stream) :
    drain decoder chunkSize stream =
      match next decoder chunkSize stream with
      | .error error after => { messages := [], failure := some error, stream := after }
      | .ok none after => { messages := [], failure := none, stream := after }
      | .ok (some message) after =>
          let yielded := drain decoder chunkSize after
          { yielded with messages := message :: yielded.messages } := by
  rw [drain]
  split <;> rename_i result <;> rw [result]

/-! ## Reads -/

/-- The octets that the session has still to read. -/
def input (stream : Stream) : Bytes := stream.session.pending ++ stream.source.unread

/-- A stream between two messages, of a source that yields some octets with each read up
to its end. -/
structure Steady (stream : Stream) : Prop where
  sound : stream.session.poisoned = false
  waiting : stream.session.machine.Waiting
  reads : ∀ read ∈ stream.source.reads, read ≠ []
  readable : stream.source.failing = false
  ended : stream.ended = true → stream.source.reads = []

/-- A stream that has come to its end and has left its session with a machine. -/
def exhausted (machine : Machine) : Stream :=
  { source := { reads := [] }, session := { machine }, ended := true }

/-- Whether a call of `next` does what a machine does with the octets still to be read. -/
def Follows (result : EStateM.Result StreamError Stream (Option Message)) :
    EStateM.Result CodecError Machine (Option Message × Bytes) → Prop
  | .error error _ => ∃ after, result = .error (.codec error) after
  | .ok (some message, left) machine =>
      ∃ after, result = .ok (some message) after ∧ after.Steady
        ∧ after.session.machine = machine ∧ after.input = left
  | .ok (none, _) machine => result = finish (exhausted machine)

/-- A stream stays steady while its session is fed without an error. -/
theorem Steady.feed {session : Session} {chunk : Bytes} {ready : Option Message}
    (steady : stream.Steady)
    (fed : Session.feed decoder chunk stream.session = .ok ready session) :
    Machine.run decoder (stream.session.pending ++ chunk) stream.session.machine
        = .ok (ready, session.pending) session.machine
      ∧ Steady { stream with session } := by
  obtain ⟨ran, whole⟩ := Session.run_of_feed steady.waiting fed
  refine ⟨ran, ?_, Machine.waiting_of_run steady.waiting ran, steady.reads, steady.readable,
    steady.ended⟩
  rw [whole]

/-- A steady stream that has come to its end has nothing left but its machine. -/
theorem Steady.eq_exhausted (steady : stream.Steady) (spent : stream.ended = true)
    (empty : stream.session.pending = []) :
    stream = exhausted stream.session.machine := by
  have read := steady.ended spent
  obtain ⟨⟨reads, failing⟩, ⟨machine, pending, poisoned⟩, ended⟩ := stream
  obtain rfl : reads = [] := read
  obtain rfl : failing = false := steady.readable
  obtain rfl : pending = [] := empty
  obtain rfl : poisoned = false := steady.sound
  obtain rfl : ended = true := spent
  rfl

/-- A read of a steady stream finds the end of the source, or it takes some octets and
leaves the stream steady. -/
theorem Steady.read (steady : stream.Steady) (positive : 0 < chunkSize) :
    match stream.source.read chunkSize with
    | (none, _) => False
    | (some [], source) => stream.source.reads = [] ∧ source = { reads := [] }
    | (some (_ :: _), source) => Steady { stream with source } := by
  obtain ⟨⟨reads, failing⟩, session, ended⟩ := stream
  obtain ⟨sound, waiting, nonempty, readable, closed⟩ := steady
  change failing = false at readable
  subst readable
  cases reads with
  | nil => exact ⟨rfl, rfl⟩
  | cons next later =>
      cases next with
      | nil => exact absurd rfl (nonempty [] List.mem_cons_self)
      | cons octet others =>
          obtain ⟨fewer, rfl⟩ := Nat.exists_eq_add_one.2 positive
          refine ⟨sound, waiting, ?_, rfl, ?_⟩
          · intro read listed
            dsimp only [List.drop_succ_cons] at listed
            split at listed
            · exact nonempty read (List.mem_cons_of_mem _ listed)
            · rename_i left
              rcases List.mem_cons.1 listed with rfl | listed
              · exact fun empty => left (List.isEmpty_iff.2 empty)
              · exact nonempty read (List.mem_cons_of_mem _ listed)
          · exact fun spent => absurd (closed spent) (List.cons_ne_nil _ _)

/-- **Reading from the source** does what the machine does with all octets to come. -/
theorem pull_follows (decoder : Decoder) (positive : 0 < chunkSize) (steady : stream.Steady)
    (empty : stream.session.pending = []) :
    Follows (pull decoder chunkSize stream)
      (Machine.run decoder stream.source.unread stream.session.machine) := by
  fun_induction pull decoder chunkSize stream with
  | case1 stream source result =>
      have read := steady.read positive
      rw [result] at read
      exact read.elim
  | case2 stream source result =>
      have read := steady.read positive
      rw [result] at read
      obtain ⟨spent, rfl⟩ := read
      obtain ⟨_, ⟨machine, pending, poisoned⟩, _⟩ := stream
      obtain rfl : pending = [] := empty
      obtain rfl : poisoned = false := steady.sound
      dsimp only at spent
      rw [Source.unread, spent]
      rfl
  | case3 stream first rest source result less error session fed =>
      have ran := Session.run_of_failed steady.sound steady.waiting fed
      rw [empty, List.nil_append] at ran
      rw [Source.unread_read result, Machine.run_append, ran]
      exact ⟨_, rfl⟩
  | case4 stream first rest source result less message session fed =>
      have read := steady.read positive
      rw [result] at read
      obtain ⟨ran, ready⟩ := read.feed fed
      rw [empty, List.nil_append] at ran
      rw [Source.unread_read result, Machine.run_append, ran]
      exact ⟨_, rfl, ready, rfl, rfl⟩
  | case5 stream first rest source result less session fed further =>
      have read := steady.read positive
      rw [result] at read
      obtain ⟨ran, waits⟩ := read.feed fed
      rw [empty, List.nil_append] at ran
      rw [Source.unread_read result, Machine.run_append, ran]
      exact further waits (Machine.run_left_eq_nil ran)

/-- **A call of `next`** does what the machine does with the octets still to be read. -/
theorem next_follows (decoder : Decoder) (positive : 0 < chunkSize) (steady : stream.Steady) :
    Follows (next decoder chunkSize stream)
      (Machine.run decoder stream.input stream.session.machine) := by
  rw [next_eq, input, Machine.run_append]
  cases fed : Session.feed decoder [] stream.session with
  | error error session =>
      have ran := Session.run_of_failed steady.sound steady.waiting fed
      rw [List.append_nil] at ran
      rw [ran]
      exact ⟨_, rfl⟩
  | ok ready session =>
      obtain ⟨ran, steady'⟩ := steady.feed fed
      rw [List.append_nil] at ran
      rw [ran]
      cases ready with
      | some message => exact ⟨_, rfl, steady', rfl, rfl⟩
      | none =>
          have nothing := Machine.run_left_eq_nil ran
          dsimp only
          split
          · rename_i spent
            rw [Source.unread, steady.ended spent]
            exact congrArg finish (steady'.eq_exhausted spent nothing)
          · exact pull_follows decoder positive steady' nothing

/-! ## The end of a stream -/

/-- How a stream ends that has met this error, if any, and has left its session so. -/
def ending (error : Option CodecError) (session : Session) : Option StreamError :=
  match error with
  | some error => some (.codec error)
  | none => if session.hasPartialMessage then some (.endedInside session.state) else none

/-- At its end a stream fails inside a message, and not otherwise. -/
theorem finish_exhausted (machine : Machine) :
    finish (exhausted machine) =
      match ending none { machine } with
      | some error => .error error (exhausted machine)
      | none => .ok none (exhausted machine) := by
  by_cases inside : ({ machine } : Session).hasPartialMessage = true
  · simp [finish, ending, exhausted, inside]
  · simp [finish, ending, exhausted, inside]

/-- A stream that has come to its end stays there. -/
theorem next_exhausted (decoder : Decoder) (chunkSize : Nat) {machine : Machine}
    (waiting : machine.Waiting) :
    next decoder chunkSize (exhausted machine) = finish (exhausted machine) := by
  have fed : Session.feed decoder [] { machine } = .ok none { machine } :=
    Session.feed_eq_run rfl waiting
  rw [next_eq, exhausted, fed]
  rfl

/-- **Up to its end** a stream does what its machine does with the octets still to be
read, and where it has ended without an error it stays there. The induction is on what the
stream has still to do. -/
theorem drain_follows (decoder : Decoder) (positive : 0 < chunkSize) (steady : stream.Steady) :
    let yielded := drain decoder chunkSize stream
    let delivered := Machine.drainOctets decoder stream.input stream.session.machine
    yielded.messages = delivered.1.messages
      ∧ yielded.failure = ending delivered.1.error delivered.2
      ∧ (yielded.failure = none →
          next decoder chunkSize yielded.stream = .ok none yielded.stream) := by
  induction size : stream.work using Nat.strongRecOn generalizing stream with
  | ind count further =>
      have follows := next_follows decoder positive steady
      rw [drain_eq, Machine.drainOctets_eq_run]
      cases ran : Machine.run decoder stream.input stream.session.machine with
      | error error machine =>
          rw [ran] at follows
          obtain ⟨after, failed⟩ := follows
          rw [failed]
          exact ⟨rfl, rfl, nofun⟩
      | ok result machine =>
          obtain ⟨ready, left⟩ := result
          rw [ran] at follows
          cases ready with
          | none =>
              have waiting := Machine.waiting_of_run steady.waiting ran
              have stays := next_exhausted decoder chunkSize waiting
              change _ = finish (exhausted machine) at follows
              rw [finish_exhausted] at stays follows
              rw [follows]
              cases ends : ending none { machine } with
              | some error => exact ⟨rfl, ends.symm, nofun⟩
              | none =>
                  rw [ends] at stays
                  exact ⟨rfl, ends.symm, fun _ => stays⟩
          | some message =>
              obtain ⟨after, yields, steady', rfl, rfl⟩ := follows
              obtain ⟨messages, failure, stays⟩ :=
                further after.work (size ▸ work_next_lt yields) steady' rfl
              rw [yields]
              exact ⟨congrArg (message :: ·) messages, failure, stays⟩

/-- **A stream yields what its octets deliver**, however the reads are cut, and ends as
they do: with the error of a fresh session that is fed with all of them, without an error
if they are the octets of messages and nothing else, and otherwise inside a message. A
stream that has ended without an error yields nothing more. -/
theorem drain_reads (decoder : Decoder) {chunkSize : Nat} (positive : 0 < chunkSize)
    {reads : List Bytes} (nonempty : ∀ read ∈ reads, read ≠ []) :
    let yielded := drain decoder chunkSize { source := { reads } }
    let delivered := Session.drain decoder {} reads.flatten
    yielded.messages = delivered.1.messages
      ∧ (∀ error, delivered.1.error = some error → yielded.failure = some (.codec error))
      ∧ (Session.Concatenated decoder reads.flatten → yielded.failure = none)
      ∧ (delivered.1.error = none → ¬ Session.Concatenated decoder reads.flatten →
          yielded.failure = some (.endedInside delivered.2.state))
      ∧ (yielded.failure = none →
          next decoder chunkSize yielded.stream = .ok none yielded.stream) := by
  have waiting : ({} : Machine).Waiting := Machine.waiting_of_current_eq_none rfl
  have steady : Steady { source := { reads } } :=
    { sound := rfl, waiting, reads := nonempty, readable := rfl, ended := nofun }
  obtain ⟨messages, failure, stays⟩ := drain_follows decoder positive steady
  have same : Machine.drainOctets decoder (input { source := { reads } }) {}
      = Session.drain decoder {} reads.flatten := (Session.drain_fresh decoder _).symm
  rw [same] at messages failure
  refine ⟨messages, fun error failed => ?_, fun concatenated => ?_, fun succeeded tail => ?_,
    stays⟩
  · rw [failure, failed, ending]
  · obtain ⟨succeeded, whole⟩ := Session.concatenated_iff.1 concatenated
    rw [failure, succeeded, ending, whole]
    rfl
  · rw [Session.concatenated_iff, not_and, Bool.not_eq_false] at tail
    rw [failure, succeeded, ending, tail succeeded, if_pos rfl]

/-- An unbind request and the first octet of what follows it, in two reads. -/
def cutReads : List Bytes :=
  [Session.longUnbind.take 6, Session.longUnbind.drop 6 ++ [0x30]]

/-- The reads are cut once more: the request is yielded, and the stream ends inside a message. -/
theorem drain_reads_unbind :
    let yielded := drain {} 4 { source := { reads := cutReads } }
    yielded.messages = [.unbind] ∧ yielded.failure = some (.endedInside .start) := by
  have delivered : (Session.drain {} {} cutReads.flatten).1
          = { messages := [.unbind], error := none }
      ∧ (Session.drain {} {} cutReads.flatten).2.state = .start
      ∧ (Session.drain {} {} cutReads.flatten).2.hasPartialMessage = true := by
    rw [Session.drain_fresh]
    decide +kernel
  obtain ⟨whole, state, inside⟩ := delivered
  have positive : 0 < 4 := by decide
  have nonempty : ∀ read ∈ cutReads, read ≠ [] := by decide
  obtain ⟨messages, _, _, tail, _⟩ := drain_reads {} positive nonempty
  refine ⟨messages.trans (congrArg Delivery.messages whole), ?_⟩
  refine (tail (congrArg Delivery.error whole) fun concatenated => ?_).trans
    (congrArg (some ∘ StreamError.endedInside) state)
  exact absurd inside (ne_true_of_eq_false (Session.concatenated_iff.1 concatenated).2)

end Stream

end LdapWire
