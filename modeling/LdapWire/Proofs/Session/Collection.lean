import LdapWire.Proofs.Session.Chunks

/-!
# Messages collected chunk by chunk

`Session.feedAll` returns the messages of a chunk together, and where it fails it
returns none of them. So calls that collect messages hand over those of the chunks
before the one that fails, and the messages that this one has completed before its
error are lost (`Session.collected_or_interrupted`): what is handed over depends on the
cuts between the chunks if there is an error (`Session.not_forall_collected`).
-/

set_option autoImplicit false

namespace LdapWire.Session

/-- Passes chunks to `feedAll` one after another, up to the first error, and puts the
messages that it returns in a row. -/
def feedAllEach (decoder : Decoder) (session : Session) : List Bytes → Delivery × Session
  | [] => ({ messages := [], error := none }, session)
  | chunk :: later =>
      match feedAll decoder chunk session with
      | .error error after => ({ messages := [], error := some error }, after)
      | .ok messages after =>
          let (further, final) := feedAllEach decoder after later
          (further.after messages, final)

/-- Whether one of some chunks fails after it has completed the messages `lost`, where
the chunks before it have delivered the messages `handed`. -/
def Interrupted (decoder : Decoder) (session : Session) (chunks : List Bytes)
    (handed lost : List Message) (error : CodecError) : Prop :=
  ∃ before failing later middle final, chunks = before ++ failing :: later
    ∧ drainEach decoder session before = ({ messages := handed, error := none }, middle)
    ∧ drain decoder middle failing = ({ messages := lost, error := some error }, final)

variable {decoder : Decoder} {session after : Session} {chunk : Bytes} {later : List Bytes}
  {messages handed lost : List Message} {error : CodecError}

theorem feedAllEach_of_failed
    (drained : session.drain decoder chunk = ({ messages, error := some error }, after)) :
    feedAllEach decoder session (chunk :: later)
      = ({ messages := [], error := some error }, after) := by
  rw [feedAllEach, feedAll, drained]

theorem feedAllEach_of_drained
    (drained : session.drain decoder chunk = ({ messages, error := none }, after)) :
    feedAllEach decoder session (chunk :: later) =
      ((feedAllEach decoder after later).1.after messages,
        (feedAllEach decoder after later).2) := by
  rw [feedAllEach, feedAll, drained]

theorem drainEach_of_failed
    (drained : session.drain decoder chunk = ({ messages, error := some error }, after)) :
    drainEach decoder session (chunk :: later) = ({ messages, error := some error }, after) := by
  rw [drainEach, drained]

theorem drainEach_of_drained
    (drained : session.drain decoder chunk = ({ messages, error := none }, after)) :
    drainEach decoder session (chunk :: later) =
      ((drainEach decoder after later).1.after messages, (drainEach decoder after later).2) := by
  rw [drainEach, drained]

theorem Interrupted.cons
    (drained : session.drain decoder chunk = ({ messages, error := none }, after))
    (interrupted : Interrupted decoder after later handed lost error) :
    Interrupted decoder session (chunk :: later) (messages ++ handed) lost error := by
  obtain ⟨before, failing, others, middle, final, rfl, delivers, fails⟩ := interrupted
  refine ⟨chunk :: before, failing, others, middle, final, rfl, ?_, fails⟩
  rw [drainEach_of_drained drained, delivers]
  rfl

/-- **Chunk by chunk**, collecting messages comes to the same end as draining does. -/
theorem feedAllEach_cases (decoder : Decoder) (session : Session) (chunks : List Bytes) :
    (∃ messages final,
      feedAllEach decoder session chunks = ({ messages, error := none }, final)
      ∧ drainEach decoder session chunks = ({ messages, error := none }, final))
    ∨ ∃ handed lost error final, Interrupted decoder session chunks handed lost error
      ∧ feedAllEach decoder session chunks = ({ messages := handed, error := some error }, final)
      ∧ drainEach decoder session chunks
          = ({ messages := handed ++ lost, error := some error }, final) := by
  induction chunks generalizing session with
  | nil => exact .inl ⟨[], session, rfl, rfl⟩
  | cons chunk later further =>
      rcases drained : session.drain decoder chunk with ⟨⟨messages, failed⟩, after⟩
      cases failed with
      | some error =>
          refine .inr ⟨[], messages, error, after, ⟨[], chunk, later, session, after, rfl, rfl,
            drained⟩, feedAllEach_of_failed drained, drainEach_of_failed drained⟩
      | none =>
          rw [feedAllEach_of_drained drained, drainEach_of_drained drained]
          rcases further after with
            ⟨others, final, collected, delivered⟩
            | ⟨handed, lost, error, final, interrupted, collected, delivered⟩
          · rw [collected, delivered]
            exact .inl ⟨messages ++ others, final, rfl, rfl⟩
          · rw [collected, delivered]
            refine .inr
              ⟨messages ++ handed, lost, error, final, interrupted.cons drained, rfl, ?_⟩
            rw [List.append_assoc]
            rfl

/-- **Messages are collected or lost with an error**: what calls of `feedAll` hand over up
to the first error is what the stream delivers if there is no error. Otherwise it lacks
the messages that the failing call has completed, and these only. -/
theorem collected_or_interrupted (decoder : Decoder) (chunks : List Bytes) :
    (∃ messages final,
      feedAllEach decoder {} chunks = ({ messages, error := none }, final)
      ∧ drain decoder {} chunks.flatten = ({ messages, error := none }, final))
    ∨ ∃ handed lost error final, Interrupted decoder {} chunks handed lost error
      ∧ feedAllEach decoder {} chunks = ({ messages := handed, error := some error }, final)
      ∧ drain decoder {} chunks.flatten
          = ({ messages := handed ++ lost, error := some error }, final) := by
  rw [drain_fresh, ← drainEach_fresh]
  exact feedAllEach_cases decoder {} chunks

/-- An unbind request and then an indefinite length. -/
def unbindThenCorrupt : Bytes := [0x30, 0x05, 0x02, 0x01, 0x01, 0x42, 0x00, 0x30, 0x80]

theorem drain_unbindThenCorrupt :
    (drain {} {} unbindThenCorrupt).1
      = { messages := [{ id := 1, operation := .unbindRequest }],
          error := some (.corrupt .indefiniteLength) } := by
  rw [drain_fresh]
  decide +kernel

/-- In one chunk with the corrupt octets the request is not handed over. -/
theorem not_forall_collected :
    ¬ ∀ (decoder : Decoder) (chunks : List Bytes),
      (feedAllEach decoder {} chunks).1.messages
        = (drain decoder {} chunks.flatten).1.messages := by
  intro collected
  have lost := collected {} [unbindThenCorrupt]
  have delivered := drain_unbindThenCorrupt
  rcases drained : drain {} {} unbindThenCorrupt with ⟨delivery, final⟩
  rw [drained] at delivered
  cases delivered
  rw [feedAllEach_of_failed drained] at lost
  exact absurd (lost.trans (congrArg (fun result => result.1.messages) drained))
    (List.cons_ne_nil _ _).symm

end LdapWire.Session
