import LdapWire.Session.Machine

/-!
# Decoding sessions

A session is fed with chunks of any size. `Session.feed` returns the next message
or nothing if more input is needed; octets after a message wait for the next
call. The first error ends the session: what was waiting is dropped, and every
later call fails.

`Session.drain` feeds a chunk and calls on for as long as messages are ready, and
collects them, also those before an error.
-/

set_option autoImplicit false

namespace LdapWire

/-- A stream of octets that is being decoded. -/
structure Session where
  machine : Machine := {}
  /-- Octets received and not yet read. -/
  pending : Bytes := []
  /-- Whether an error has ended the session. -/
  poisoned : Bool := false
deriving DecidableEq

/-- What a session delivers before it runs out of input or fails. -/
structure Delivery where
  messages : List Message
  error : Option CodecError
deriving DecidableEq

namespace Session

def state (session : Session) : Grammar.State := session.machine.state

/-- The number of open constructed elements. -/
def depth (session : Session) : Nat := session.machine.depth

/-- Whether octets of an unfinished message have been received. -/
def hasPartialMessage (session : Session) : Bool :=
  session.machine.isMidway || !session.pending.isEmpty

/-- Adds a chunk to the input and reads up to the end of the next message. -/
def feed (decoder : Decoder) (chunk : Bytes) : Step Session (Option Message) := fun session =>
  if session.poisoned then .error .sessionPoisoned session
  else
    match Machine.consume decoder (session.pending ++ chunk) session.machine with
    | .ok (message, pending) machine => .ok message { session with machine, pending }
    | .error error machine => .error error { machine, poisoned := true }

theorem feed_of_poisoned (decoder : Decoder) (chunk : Bytes) {session : Session}
    (poisoned : session.poisoned = true) :
    Session.feed decoder chunk session = .error .sessionPoisoned session := by
  simp [Session.feed, poisoned]

/-- What a session has still to do with its input. -/
def work (session : Session) (chunk : Bytes) : Nat :=
  session.machine.work (session.pending ++ chunk)

/-- A session that has returned a message has less to do. -/
theorem work_feed_lt {decoder : Decoder} {chunk : Bytes} {session after : Session}
    {message : Message} (ready : feed decoder chunk session = .ok (some message) after) :
    after.work [] < session.work chunk := by
  unfold feed at ready
  split at ready
  · cases ready
  · split at ready
    · rename_i consumed
      cases ready
      simpa [work] using Machine.work_consume_lt consumed
    · cases ready

/-- Adds a chunk to the input and then none, for as long as messages are ready. -/
def drain (decoder : Decoder) (session : Session) (chunk : Bytes) : Delivery × Session :=
  match _ : feed decoder chunk session with
  | .error error session => ({ messages := [], error := some error }, session)
  | .ok none session => ({ messages := [], error := none }, session)
  | .ok (some message) session =>
      let (delivery, session) := drain decoder session []
      ({ delivery with messages := message :: delivery.messages }, session)
termination_by session.work chunk
decreasing_by exact work_feed_lt ‹_›

/-- Adds a chunk to the input and returns every message that it completes. An
error takes the place of the messages before it. -/
def feedAll (decoder : Decoder) (chunk : Bytes) : Step Session (List Message) := fun session =>
  let (delivery, session) := session.drain decoder chunk
  match delivery.error with
  | none => .ok delivery.messages session
  | some error => .error error session

end Session

end LdapWire
