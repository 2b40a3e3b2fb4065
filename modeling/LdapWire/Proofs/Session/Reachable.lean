import LdapWire.Proofs.Session.Shape

/-!
# What sessions reach

Whatever octets a session is fed with, in whatever chunks, its machine stays
consistent up to the first error (`Session.Reachable.consistent`).
-/

set_option autoImplicit false

namespace LdapWire

namespace Machine

/-- The element under way lacks content. -/
theorem Consistent.waiting {decoder : Decoder} {machine : Machine} {octets : Nat}
    (consistent : machine.Consistent decoder octets) : machine.Waiting := by
  obtain ⟨_, _, _, _, _, underWay⟩ := consistent
  cases underWay with
  | header idle => exact waiting_of_current_eq_none idle
  | content takes =>
      intro pending current
      rw [takes.current] at current
      cases current
      exact takes.lacking

end Machine

namespace Session

/-- The sessions that calls of `feed` lead to, with any octets and in any number. -/
inductive Reachable (decoder : Decoder) : Session → Prop where
  | fresh : Reachable decoder {}
  | fed {session after : Session} (reachable : Reachable decoder session) {chunk : Bytes}
      {message : Option Message} (fed : feed decoder chunk session = .ok message after) :
      Reachable decoder after
  | failed {session after : Session} (reachable : Reachable decoder session) {chunk : Bytes}
      {error : CodecError} (failed : feed decoder chunk session = .error error after) :
      Reachable decoder after

variable {decoder : Decoder} {session : Session}

/-- A fresh session does what a fresh machine does. -/
theorem feed_fresh (decoder : Decoder) (octets : Bytes) :
    feed decoder octets {} =
      match Machine.run decoder octets {} with
      | .ok (message, pending) machine => .ok message { machine, pending }
      | .error error machine => .error error { machine, poisoned := true } := by
  have waiting : Machine.Waiting {} := Machine.waiting_of_current_eq_none rfl
  rw [← Machine.consume_eq_run waiting]
  rfl

/-- **A call of `feed`** keeps the machine consistent. -/
theorem feed_meets (chunk : Bytes) (alive : session.poisoned = false)
    (consistent : ∃ octets, session.machine.Consistent decoder octets) :
    Step.Meets (feed decoder chunk) session
      (fun _ after => ∃ octets, after.machine.Consistent decoder octets)
      (CodecError.Blameless decoder.registry) := by
  obtain ⟨octets, consistent⟩ := consistent
  have meets := Machine.run_meets (session.pending ++ chunk) consistent
  rw [Step.Meets, ← Machine.consume_eq_run consistent.waiting] at meets
  simp only [Step.Meets, feed, alive, Bool.false_eq_true, if_false]
  cases consumed : Machine.consume decoder (session.pending ++ chunk) session.machine with
  | error error machine =>
      rw [consumed] at meets
      exact meets
  | ok result machine =>
      rw [consumed] at meets
      obtain ⟨message, left⟩ := result
      obtain ⟨taken, _, outcome⟩ := meets
      cases message with
      | none => exact ⟨_, outcome⟩
      | some message =>
          obtain ⟨rfl, _⟩ := outcome
          exact ⟨0, Machine.consistent_fresh decoder⟩

/-- A session that accepted its input was alive before, and one that did not is
not alive any more. -/
theorem poisoned_feed {chunk : Bytes} {after : Session} {message : Option Message}
    (fed : feed decoder chunk session = .ok message after) :
    session.poisoned = false ∧ after.poisoned = false := by
  unfold feed at fed
  split at fed
  · cases fed
  · rename_i alive
    have alive : session.poisoned = false := by simpa using alive
    split at fed <;> cases fed
    exact ⟨alive, alive⟩

theorem poisoned_of_failed {chunk : Bytes} {after : Session} {error : CodecError}
    (failed : feed decoder chunk session = .error error after) : after.poisoned = true := by
  unfold feed at failed
  split at failed
  · rename_i poisoned
    cases failed
    exact poisoned
  · split at failed <;> cases failed
    rfl

/-- Up to the first error the machine is consistent. -/
theorem Reachable.consistent (reachable : Reachable decoder session)
    (alive : session.poisoned = false) :
    ∃ octets, session.machine.Consistent decoder octets := by
  induction reachable with
  | fresh => exact ⟨0, Machine.consistent_fresh decoder⟩
  | fed _ fed consistent =>
      have before := (poisoned_feed fed).1
      exact (feed_meets _ before (consistent before)).ok fed
  | failed _ failed =>
      rw [poisoned_of_failed failed] at alive
      cases alive

/-- The first half of a bind request of 14 octets, up to the header of the operation. -/
def bindHalf : Bytes := [0x30, 0x0C, 0x02, 0x01, 0x01, 0x60, 0x07]

/-- In the midst of a bind request the version is expected. -/
theorem feed_bindHalf :
    (match feed {} bindHalf {} with
      | .ok none after => !after.poisoned && after.machine.state == .bindVersion
          && after.machine.frames.map Frame.close
            == [.afterOperation, { action := none, resume := .start }]
      | _ => false) = true := by
  rw [feed_fresh]
  decide +kernel

end Session

end LdapWire
