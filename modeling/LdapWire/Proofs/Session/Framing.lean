import LdapWire.Proofs.Session.Balance
import LdapWire.Proofs.Session.Chunks
import LdapWire.Proofs.Session.Reachable

/-!
# Where messages end

The octets that a session has read of its unfinished message are those of the calls
since the last message (`Session.Reads`). They balance with what the open elements
lack, and when a message is returned they are one whole sequence: none of its octets
are left, and none of those behind it have been taken (`Session.Reachable.accounts`).
-/

set_option autoImplicit false

namespace LdapWire.Session

variable {decoder : Decoder} {session after : Session} {read chunk : Bytes}

/-- Whether a session has read the octets `read` of its unfinished message. A call
takes what was waiting and the chunk, apart from what waits after it, and a message
that it returns is finished. -/
inductive Reads (decoder : Decoder) : Session → Bytes → Prop where
  | fresh : Reads decoder {} []
  | waited {session after : Session} {read chunk taken : Bytes}
      (reads : Reads decoder session read) (fed : feed decoder chunk session = .ok none after)
      (split : session.pending ++ chunk = taken ++ after.pending) :
      Reads decoder after (read ++ taken)
  | returned {session after : Session} {read chunk : Bytes} {message : Message}
      (reads : Reads decoder session read)
      (fed : feed decoder chunk session = .ok (some message) after) : Reads decoder after []

/-- **A call of `feed`** keeps the balance. -/
theorem accounted_of_feed {message : Option Message} (accounts : session.machine.Accounts read)
    (fed : feed decoder chunk session = .ok message after) :
    ∃ taken, session.pending ++ chunk = taken ++ after.pending
      ∧ Machine.Accounted (read ++ taken) after.machine message :=
  Machine.accounted_of_run accounts (run_of_feed accounts.waiting fed).1

/-- A call that returns no message takes all octets. -/
theorem pending_of_feed (waiting : session.machine.Waiting)
    (fed : feed decoder chunk session = .ok none after) : after.pending = [] :=
  Machine.run_left_eq_nil (run_of_feed waiting fed).1

theorem Reads.machine_accounts (reads : Reads decoder session read) :
    session.machine.Accounts read := by
  induction reads with
  | fresh => exact Machine.accounts_fresh
  | @waited session after read chunk taken _ fed split accounts =>
      obtain ⟨others, same, reached⟩ := accounted_of_feed accounts fed
      have taken : taken = others := List.append_cancel_right (split.symm.trans same)
      rw [taken]
      exact reached
  | returned _ fed accounts =>
      obtain ⟨_, _, _, reached⟩ := accounted_of_feed accounts fed
      exact reached

/-- What a session that is alive has read of its unfinished message. -/
theorem Reachable.exists_reads (reachable : Reachable decoder session)
    (alive : session.poisoned = false) : ∃ read, Reads decoder session read := by
  induction reachable with
  | fresh => exact ⟨[], .fresh⟩
  | @fed session after _ chunk message fed further =>
      obtain ⟨read, reads⟩ := further (poisoned_feed fed).1
      cases message with
      | none =>
          obtain ⟨taken, split, _⟩ := accounted_of_feed reads.machine_accounts fed
          exact ⟨read ++ taken, .waited reads fed split⟩
      | some message => exact ⟨[], .returned reads fed⟩
  | failed _ failed =>
      rw [poisoned_of_failed failed] at alive
      cases alive

/-- **Exact framing**: up to the first error what has been read of the unfinished
message balances with what its open elements lack, and a message is returned as soon
as its octets are a header and the content that this declares. -/
theorem Reachable.accounts (reachable : Reachable decoder session)
    (alive : session.poisoned = false) :
    (∃ read, Reads decoder session read)
    ∧ ∀ read, Reads decoder session read →
        session.machine.Accounts read
        ∧ ∀ chunk message after, feed decoder chunk session = .ok (some message) after →
            ∃ taken, session.pending ++ chunk = taken ++ after.pending
              ∧ Ber.WholeSequence (read ++ taken) := by
  refine ⟨reachable.exists_reads alive, fun read reads => ⟨reads.machine_accounts, ?_⟩⟩
  intro chunk message after fed
  obtain ⟨taken, split, whole, _⟩ := accounted_of_feed reads.machine_accounts fed
  exact ⟨taken, split, whole⟩

/-- In the midst of a bind request of 14 octets, 7 of which have been read. -/
theorem Reachable.accounts_bindRequest :
    ∃ after, Reachable {} after ∧ after.poisoned = false
      ∧ after.machine.Accounts bindHalf
      ∧ ∀ chunk message final, feed {} chunk after = .ok (some message) final →
          ∃ taken, after.pending ++ chunk = taken ++ final.pending
            ∧ Ber.WholeSequence (bindHalf ++ taken) := by
  have begun := feed_bindHalf
  cases fed : feed {} bindHalf {} with
  | error error after => simp [fed] at begun
  | ok message after =>
      cases message with
      | some message => simp [fed] at begun
      | none =>
          have alive := (poisoned_feed fed).2
          have none := pending_of_feed (Machine.waiting_of_current_eq_none rfl) fed
          have reads : Reads {} after bindHalf :=
            .waited .fresh fed (by rw [none]; rfl)
          obtain ⟨_, accounts⟩ := Reachable.accounts (.fed .fresh fed) alive
          obtain ⟨balance, framed⟩ := accounts _ reads
          exact ⟨after, .fed .fresh fed, alive, balance, framed⟩

end LdapWire.Session
