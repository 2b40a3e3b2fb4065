import LdapWire.Proofs.Descent.Refinement
import LdapWire.Proofs.RoundTrip

/-!
# How octets fall into messages

Whatever octets a session is fed with, they are the octets of some messages, each of
which a fresh session makes of its own octets alone, and behind them a tail of which
it makes no message (`Session.exists_division`). What the session delivers are these
messages, and it is left as a fresh session that has been fed with the tail
(`Session.drain_division`). Such a session holds a partial message exactly if there
is a tail (`Session.hasPartialMessage_of_feed`).
-/

set_option autoImplicit false

namespace LdapWire

/-! ## The first message -/

namespace Machine

variable {decoder : Decoder} {octets left : Bytes} {message : Message} {after : Machine}

/-- A fresh machine that has returned a message is fresh again. -/
theorem eq_fresh_of_run (ran : run decoder octets {} = .ok (some message, left) after) :
    after = {} := by
  obtain ⟨_, _, fresh, _⟩ := (run_meets octets (consistent_fresh decoder)).ok ran
  exact fresh

/-- A message is made of the octets up to its end, and these alone would do. -/
theorem exists_accepted_of_run (ran : run decoder octets {} = .ok (some message, left) after) :
    ∃ part, octets = part ++ left ∧ part ≠ [] ∧ Session.Accepts decoder part message := by
  obtain ⟨part, split, read⟩ := run_returns_iff.1 ⟨after, ran⟩
  obtain ⟨final, alone⟩ := run_returns_iff.2 ⟨part, (List.append_nil part).symm, read⟩
  obtain rfl := eq_fresh_of_run alone
  refine ⟨part, split, ?_, Session.accepts_of_run alone⟩
  rintro rfl
  cases alone

end Machine

namespace Session

variable {decoder : Decoder} {octets tail : Bytes} {message : Message}

theorem Accepts.run (accepts : Accepts decoder octets message) :
    Machine.run decoder octets {} = .ok (some message, []) {} := by
  obtain ⟨after, fed, whole⟩ := accepts
  rw [feed_fresh] at fed
  cases ran : Machine.run decoder octets {} with
  | error error machine =>
      rw [ran] at fed
      cases fed
  | ok result machine =>
      obtain ⟨returned, left⟩ := result
      rw [ran] at fed
      cases fed
      obtain rfl := Machine.eq_fresh_of_run ran
      have nothing : left = [] := pending_of_whole whole
      rw [nothing]

/-- Whether octets are accepted as a message is seen by reading them. -/
theorem accepts_iff : Accepts decoder octets message ↔
    (match Machine.run decoder octets {} with
      | .ok (some returned, []) _ => returned == message
      | _ => false) = true := by
  constructor
  · intro accepts
    rw [accepts.run]
    exact beq_self_eq_true message
  · intro same
    split at same
    · rename_i ran
      obtain rfl := Machine.eq_fresh_of_run ran
      obtain rfl := eq_of_beq same
      exact accepts_of_run ran
    · cases same

instance : Decidable (Accepts decoder octets message) := decidable_of_iff _ accepts_iff.symm

/-- What has been read of the unfinished message is what the machine is made of. -/
theorem Reads.run {session : Session} {read : Bytes} (reads : Reads decoder session read) :
    Machine.run decoder read {} = .ok (none, []) session.machine := by
  induction reads with
  | fresh => rfl
  | @waited session after read chunk taken reads fed split further =>
      have waiting := reads.machine_accounts.waiting
      rw [pending_of_feed waiting fed, List.append_nil] at split
      have ran := (run_of_feed waiting fed).1
      rw [pending_of_feed waiting fed, split] at ran
      rw [Machine.run_append, further]
      exact ran
  | @returned session after read chunk message reads fed further =>
      have ran := (run_of_feed reads.machine_accounts.waiting fed).1
      have whole := Machine.run_append decoder read (session.pending ++ chunk) {}
      rw [further] at whole
      rw [Machine.eq_fresh_of_run (whole.trans ran)]
      rfl

/-- A call is a run on what has been read of the unfinished message, on what was waiting
and on the chunk. -/
theorem Reads.run_of_feed {session after : Session} {read chunk : Bytes} {ready : Option Message}
    (reads : Reads decoder session read)
    (fed : feed decoder chunk session = .ok ready after) :
    Machine.run decoder (read ++ (session.pending ++ chunk)) {}
      = .ok (ready, after.pending) after.machine := by
  rw [Machine.run_append, reads.run]
  exact (Session.run_of_feed reads.machine_accounts.waiting fed).1

/-- An accepted message is returned as soon as its octets are there, and those behind
them wait. -/
theorem Accepts.feed_append (accepts : Accepts decoder octets message) (rest : Bytes) :
    feed decoder (octets ++ rest) {} = .ok (some message) { pending := rest } := by
  rw [feed_fresh, Machine.run_append, accepts.run]
  rfl

/-! ## All messages -/

/-- A fresh session makes no message of the octets. -/
def Unready (decoder : Decoder) (octets : Bytes) : Prop :=
  ∀ message after, feed decoder octets {} ≠ .ok (some message) after

theorem unready_nil (decoder : Decoder) : Unready decoder [] := by
  intro message after fed
  rw [feed_fresh] at fed
  cases fed

/-- **Octets are messages and a tail.** Behind the first message there are fewer of them. -/
theorem exists_division (decoder : Decoder) (octets : Bytes) :
    ∃ parts messages tail, octets = parts.flatten ++ tail
      ∧ List.Forall₂ (Accepts decoder) parts messages ∧ Unready decoder tail := by
  induction size : octets.length using Nat.strongRecOn generalizing octets with
  | ind count further =>
      by_cases unready : Unready decoder octets
      · exact ⟨[], [], octets, rfl, .nil, unready⟩
      · simp only [Unready, not_forall, not_not, feed_fresh] at unready
        obtain ⟨message, after, fed⟩ := unready
        split at fed
        · rename_i left machine ran
          cases fed
          obtain ⟨part, rfl, nonempty, accepts⟩ := Machine.exists_accepted_of_run ran
          have shorter : left.length < count := by
            have positive := List.length_pos_iff.2 nonempty
            rw [List.length_append] at size
            omega
          obtain ⟨parts, messages, tail, rfl, accepted, unready⟩ := further _ shorter left rfl
          refine ⟨part :: parts, message :: messages, tail, ?_, .cons accepts accepted, unready⟩
          rw [List.flatten_cons, List.append_assoc]
        · cases fed

/-- Octets of which messages are made deliver them before what is behind them. -/
theorem drainOctets_accepted {parts : List Bytes} {messages : List Message}
    (accepted : List.Forall₂ (Accepts decoder) parts messages) (tail : Bytes) :
    Machine.drainOctets decoder (parts.flatten ++ tail) {} =
      ((Machine.drainOctets decoder tail {}).1.after messages,
        (Machine.drainOctets decoder tail {}).2) := by
  induction accepted with
  | nil => rfl
  | cons accepts _ further =>
      rw [List.flatten_cons, List.append_assoc, Machine.drainOctets_eq_run, Machine.run_append,
        accepts.run]
      dsimp only
      rw [List.nil_append, further]
      rfl

/-- **What a stream delivers** are its messages, and the session is left as one that has
been fed with the tail alone. -/
theorem drain_division {parts : List Bytes} {messages : List Message}
    (accepted : List.Forall₂ (Accepts decoder) parts messages) (unready : Unready decoder tail) :
    drain decoder {} (parts.flatten ++ tail) =
      match feed decoder tail {} with
      | .ok _ session => ({ messages, error := none }, session)
      | .error error session => ({ messages, error := some error }, session) := by
  rw [drain_fresh, drainOctets_accepted accepted, Machine.drainOctets_eq_run]
  have fed := feed_fresh decoder tail
  cases ran : Machine.run decoder tail {} with
  | error error machine =>
      rw [ran] at fed
      rw [fed]
      simp [Delivery.after]
  | ok result machine =>
      obtain ⟨ready, left⟩ := result
      rw [ran] at fed
      rw [fed]
      cases ready with
      | some message => exact absurd fed (unready message _)
      | none =>
          rw [Machine.run_left_eq_nil ran]
          simp [Delivery.after]

/-- Messages that are accepted one at a time are delivered for their octets one behind
the other. -/
theorem drain_accepted {parts : List Bytes} {messages : List Message}
    (accepted : List.Forall₂ (Accepts decoder) parts messages) :
    drain decoder {} parts.flatten = ({ messages, error := none }, {}) := by
  have delivered := drain_division accepted (unready_nil decoder)
  rw [List.append_nil, feed_fresh] at delivered
  exact delivered

/-! ## What is left of a tail -/

/-- A session that has been fed without a message holds a part of one, unless it has
been fed with nothing. -/
theorem hasPartialMessage_of_feed {session : Session}
    (fed : feed decoder tail {} = .ok none session) :
    session.hasPartialMessage = !tail.isEmpty := by
  have nothing := pending_of_feed (Machine.waiting_of_current_eq_none rfl) fed
  obtain ⟨taken, split, accounts⟩ := accounted_of_feed Machine.accounts_fresh fed
  rw [nothing, List.append_nil] at split
  change tail = taken at split
  subst split
  cases tail with
  | nil =>
      rw [feed_fresh] at fed
      cases fed
      rfl
  | cons octet rest =>
      have midway : session.machine.isMidway = true := by
        by_contra between
        simp only [Machine.isMidway, Bool.or_eq_true, Bool.not_eq_true', not_or,
          Bool.not_eq_false, Bool.not_eq_true, List.isEmpty_iff, Ber.Header.isIdle,
          beq_iff_eq] at between
        obtain ⟨⟨outside, _⟩, idle⟩ := between
        have counted := Ber.Header.bytesRead_of_take (accounts.outside outside).2.2
        rw [idle, List.nil_append, List.length_cons] at counted
        omega
      simp [hasPartialMessage, midway]

/-- Whether some octets are those of messages, and nothing else. -/
def Concatenated (decoder : Decoder) (octets : Bytes) : Prop :=
  ∃ parts messages, octets = parts.flatten ∧ List.Forall₂ (Accepts decoder) parts messages

/-- **Messages and nothing else** are what leaves no partial message and no error. -/
theorem concatenated_iff : Concatenated decoder octets ↔
    (drain decoder {} octets).1.error = none
      ∧ (drain decoder {} octets).2.hasPartialMessage = false := by
  constructor
  · rintro ⟨parts, messages, rfl, accepted⟩
    rw [drain_accepted accepted]
    exact ⟨rfl, rfl⟩
  · rintro ⟨succeeded, whole⟩
    obtain ⟨parts, messages, tail, rfl, accepted, unready⟩ := exists_division decoder octets
    rw [drain_division accepted unready] at succeeded whole
    cases fed : feed decoder tail {} with
    | error error session =>
        rw [fed] at succeeded
        cases succeeded
    | ok ready session =>
        cases ready with
        | some message => exact absurd fed (unready message session)
        | none =>
            rw [fed] at whole
            dsimp only at whole
            rw [hasPartialMessage_of_feed fed, Bool.not_eq_false', List.isEmpty_iff] at whole
            exact ⟨parts, messages, by rw [whole, List.append_nil], accepted⟩

end Session

end LdapWire
