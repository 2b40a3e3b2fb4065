import LdapWire.Proofs.Session.Division

/-!
# Sessions that start over

Nothing of a message stays in the session that has returned it: apart from the octets
that wait, the session is a fresh one (`Session.Reachable.eq_of_ready`). So later calls
see no difference from a fresh session of which the first call is given the waiting
octets as well, and messages that are accepted one at a time are accepted one behind
the other (`Session.starts_over`).
-/

set_option autoImplicit false

namespace LdapWire.Session

/-- What a caller sees of a session between two calls. -/
structure View where
  state : Grammar.State
  depth : Nat
  hasPartialMessage : Bool
  poisoned : Bool
deriving DecidableEq

def view (session : Session) : View where
  state := session.state
  depth := session.depth
  hasPartialMessage := session.hasPartialMessage
  poisoned := session.poisoned

/-- What calls one after another answer, and what the session shows after each of them.
A call that fails is not the last one. -/
def transcript (decoder : Decoder) :
    List Bytes → Session → List (Except CodecError (Option Message) × View)
  | [], _ => []
  | chunk :: later, session =>
      match feed decoder chunk session with
      | .ok message after => (.ok message, after.view) :: transcript decoder later after
      | .error error after => (.error error, after.view) :: transcript decoder later after

variable {decoder : Decoder} {session after : Session} {chunk : Bytes} {message : Message}

/-- The machine of a session that has returned a message is a fresh one. -/
theorem Reachable.eq_of_ready (reachable : Reachable decoder session)
    (fed : feed decoder chunk session = .ok (some message) after) :
    after = { pending := after.pending } := by
  obtain ⟨octets, consistent⟩ := reachable.consistent (poisoned_feed fed).1
  obtain ⟨ran, whole⟩ := run_of_feed consistent.waiting fed
  obtain ⟨_, _, fresh, _⟩ := (Machine.run_meets _ consistent).ok ran
  rw [whole, fresh]

/-- Octets that wait are read as if they came with the next chunk. -/
theorem feed_waiting (decoder : Decoder) (waiting chunk : Bytes) :
    feed decoder chunk { pending := waiting } = feed decoder (waiting ++ chunk) {} :=
  rfl

theorem transcript_waiting (decoder : Decoder) (waiting chunk : Bytes) (later : List Bytes) :
    transcript decoder (chunk :: later) { pending := waiting }
      = transcript decoder ((waiting ++ chunk) :: later) {} := by
  rw [transcript, transcript, feed_waiting]

/-- Messages that are accepted one at a time are delivered however their octets are cut. -/
theorem drainEach_accepted {chunks parts : List Bytes} {messages : List Message}
    (accepted : List.Forall₂ (Accepts decoder) parts messages)
    (same : chunks.flatten = parts.flatten) :
    drainEach decoder {} chunks = ({ messages, error := none }, {}) := by
  rw [drainEach_fresh, same, ← drain_fresh]
  exact drain_accepted accepted

/-- **Messages leave nothing behind.** A session that has returned a message answers
every later sequence of calls as a fresh one does that is given the waiting octets with
the first of them. So messages that are accepted one at a time are what a session
delivers for their octets one behind the other, in whatever chunks. -/
theorem starts_over (decoder : Decoder) :
    (∀ session chunk message after, Reachable decoder session →
      feed decoder chunk session = .ok (some message) after →
        after = { pending := after.pending }
        ∧ ∀ next later, transcript decoder (next :: later) after
            = transcript decoder ((after.pending ++ next) :: later) {})
    ∧ ∀ chunks parts messages, List.Forall₂ (Accepts decoder) parts messages →
        chunks.flatten = parts.flatten →
          drainEach decoder {} chunks = ({ messages, error := none }, {}) := by
  refine ⟨fun session chunk message after reachable fed => ?_, fun _ _ _ => drainEach_accepted⟩
  have fresh := reachable.eq_of_ready fed
  refine ⟨fresh, fun next later => ?_⟩
  rw [fresh]
  exact transcript_waiting decoder after.pending next later

/-- Two unbind requests at once: behind the first one the session is as if it had only
been given the second one, and cuts in the midst of both change nothing. -/
theorem starts_over_unbind :
    transcript {} [[], [0x30]] { pending := longUnbind } = transcript {} [longUnbind, [0x30]] {}
    ∧ drainEach {} {} [longUnbind.take 4, longUnbind.drop 4 ++ longUnbind.take 1, [],
          longUnbind.drop 1]
        = ({ messages := [.unbind, .unbind], error := none }, {}) := by
  obtain ⟨alike, delivers⟩ := starts_over {}
  have ready := accepts_longUnbind.feed_append longUnbind
  refine ⟨(alike {} _ _ _ .fresh ready).2 [] [[0x30]], ?_⟩
  exact delivers _ _ _ (.cons accepts_longUnbind (.cons accepts_longUnbind .nil)) rfl

end LdapWire.Session
