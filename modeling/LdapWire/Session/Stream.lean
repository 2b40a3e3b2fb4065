import LdapWire.Session.Basic

/-!
# Messages from a stream

`Stream.next` reads from a source until a message is complete. A source yields
its reads one after another; a read of no octets is its end. An end inside a
message is an error, an end between messages is not.
-/

set_option autoImplicit false

namespace LdapWire

/-- Where octets come from. -/
structure Source where
  /-- The reads still to come. -/
  reads : List Bytes
  /-- Whether reading fails, instead of ending, after the last read. -/
  failing : Bool := false
deriving DecidableEq

namespace Source

/-- The octets not taken yet. -/
def unread (source : Source) : Bytes := source.reads.flatten

/-- Takes at most `limit` octets of the next read, or fails. A longer read is
taken in parts. -/
def read (source : Source) (limit : Nat) : Option Bytes × Source :=
  match source.reads with
  | [] => (if source.failing then none else some [], source)
  | next :: later =>
      let left := next.drop limit
      (some (next.take limit),
        { source with reads := if left.isEmpty then later else left :: later })

/-- A read that yields octets leaves fewer behind. -/
theorem length_unread_read_lt (source : Source) (limit : Nat) {taken : Bytes} {after : Source}
    (nonempty : taken ≠ []) (result : source.read limit = (some taken, after)) :
    after.unread.length < source.unread.length := by
  obtain ⟨reads, failing⟩ := source
  cases reads with
  | nil =>
      simp only [read, Prod.mk.injEq] at result
      obtain ⟨first, _⟩ := result
      split at first
      · exact absurd first (by simp)
      · exact absurd (Option.some.inj first).symm nonempty
  | cons next later =>
      simp only [read, Prod.mk.injEq, Option.some.injEq] at result
      obtain ⟨rfl, rfl⟩ := result
      have positive : 0 < (next.take limit).length := List.length_pos_iff.2 nonempty
      rw [List.length_take] at positive
      by_cases exhausted : (next.drop limit).isEmpty = true
      · simp only [exhausted, if_true, unread, List.flatten_cons, List.length_append]
        omega
      · simp only [exhausted, unread, List.flatten_cons, List.length_append, List.length_drop,
          Bool.false_eq_true, if_false]
        omega

end Source

/-- Why a stream yields no message. -/
inductive StreamError where
  | codec (error : CodecError)
  | unreadable
  /-- The source ended inside a message. -/
  | endedInside (state : Grammar.State)
deriving DecidableEq

namespace StreamError

/-- The failure in words. -/
def message : StreamError → String
  | .codec error => error.message
  | .unreadable => "Read LDAP stream"
  | .endedInside state => s!"Stream ended inside a message (decoder state {state.name})"

end StreamError

/-- A session with the source that feeds it. -/
structure Stream where
  source : Source
  session : Session := {}
  /-- Whether the source has come to its end. -/
  ended : Bool := false
deriving DecidableEq

namespace Stream

/-- Feeds the session of a stream. -/
def feed (decoder : Decoder) (chunk : Bytes) : EStateM StreamError Stream (Option Message) :=
  fun stream =>
    match Session.feed decoder chunk stream.session with
    | .ok message session => .ok message { stream with session }
    | .error error session => .error (.codec error) { stream with session }

/-- Succeeds without a message if none is under way. -/
def finish : EStateM StreamError Stream (Option Message) := fun stream =>
  if stream.session.hasPartialMessage then .error (.endedInside stream.session.state) stream
  else .ok none stream

/-- Reads from the source until a message is complete or the source ends. -/
def pull (decoder : Decoder) (chunkSize : Nat) (stream : Stream) :
    EStateM.Result StreamError Stream (Option Message) :=
  match result : stream.source.read chunkSize with
  | (none, source) => .error .unreadable { stream with source }
  | (some [], source) => finish { stream with source, ended := true }
  | (some (first :: rest), source) =>
      have :=
        Source.length_unread_read_lt stream.source chunkSize (List.cons_ne_nil first rest) result
      match Session.feed decoder (first :: rest) stream.session with
      | .error error session => .error (.codec error) { stream with source, session }
      | .ok (some message) session => .ok (some message) { stream with source, session }
      | .ok none session => pull decoder chunkSize { stream with source, session }
termination_by stream.source.unread.length

/-- The next message, or nothing at the end of the stream. Octets left over from
the previous read may already hold a message. -/
def next (decoder : Decoder) (chunkSize : Nat) : EStateM StreamError Stream (Option Message) := do
  match ← feed decoder [] with
  | some message => return some message
  | none => if (← get).ended then finish else pull decoder chunkSize

end Stream

end LdapWire
