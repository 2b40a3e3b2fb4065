import LdapWire.CommandLine.Run
import LdapWire.Proofs.Batch
import LdapWire.Proofs.Settings
import LdapWire.Proofs.Stream

/-!
# How a run ends

A run decodes the octets that its arguments name and reports message after message. What it
decodes are the messages that a fresh session delivers for all these octets at once, whatever
the size of the reads, and the first message that does not pass ends it
(`CommandLine.failure_execute`). What was decoded can be encoded again, so this can only be a
message that the policy for batches refuses (`CommandLine.execute_stopped_iff`); and a run
succeeds if and only if the octets are those of messages and nothing else, and the policy lets
each of them pass (`CommandLine.execute_succeeds_iff`).
-/

set_option autoImplicit false

namespace LdapWire

/-! ## What is decoded -/

namespace Session

variable {decoder : Decoder}

/-- An accepted message has at least one octet. -/
theorem Accepts.ne_nil {octets : Bytes} {message : Message}
    (accepts : Accepts decoder octets message) : octets ≠ [] := by
  rintro rfl
  cases accepts.run

theorem length_le_of_accepted {parts : List Bytes} {messages : List Message}
    (accepted : List.Forall₂ (Accepts decoder) parts messages) :
    messages.length ≤ parts.flatten.length := by
  induction accepted with
  | nil => exact Nat.le_refl 0
  | cons accepts _ further =>
      have positive := List.length_pos_iff.2 accepts.ne_nil
      rw [List.length_cons, List.flatten_cons, List.length_append]
      omega

/-- There are no more messages than octets. -/
theorem length_messages_le (decoder : Decoder) (octets : Bytes) :
    (drain decoder {} octets).1.messages.length ≤ octets.length := by
  obtain ⟨parts, messages, tail, rfl, accepted, unready⟩ := exists_division decoder octets
  have bound := length_le_of_accepted accepted
  rw [drain_division accepted unready, List.length_append]
  cases feed decoder tail {} <;> exact Nat.le_add_right_of_le bound

theorem exists_accepts_of_mem {parts : List Bytes} {messages : List Message} {message : Message}
    (accepted : List.Forall₂ (Accepts decoder) parts messages) (listed : message ∈ messages) :
    ∃ part, Accepts decoder part message := by
  induction accepted with
  | nil => cases listed
  | cons accepts _ further =>
      rcases List.mem_cons.1 listed with rfl | listed
      · exact ⟨_, accepts⟩
      · exact further listed

/-- What is delivered has been accepted on its own, and so it can be encoded again. -/
theorem exists_encode_of_delivered {limits : Limits} {octets : Bytes} {message : Message}
    (listed : message ∈ (drain { limits } {} octets).1.messages) :
    ∃ encoded, message.encode = .ok encoded := by
  obtain ⟨parts, messages, tail, rfl, accepted, unready⟩ := exists_division { limits } octets
  have found : message ∈ messages := by
    rw [drain_division accepted unready] at listed
    cases fed : feed { limits } tail {} <;> simpa [fed] using listed
  obtain ⟨part, accepts⟩ := exists_accepts_of_mem accepted found
  exact ⟨_, Message.encode_of_sound (Message.sound accepts.wellFormed)⟩

end Session

namespace Stream

/-- A source of a single read without octets has come to its end. -/
theorem drain_nil (decoder : Decoder) (chunkSize : Nat) :
    drain decoder chunkSize { source := { reads := [[]] } }
      = { messages := [], failure := none, stream := exhausted {} } := by
  have fed : Session.feed decoder [] {} = .ok none {} := by
    rw [Session.feed_fresh]
    rfl
  have read : (Source.mk [[]] false).read chunkSize = (some [], { reads := [] }) := by
    simp [Source.read]
  have ends : next decoder chunkSize { source := { reads := [[]] } }
      = .ok none (exhausted {}) := by
    rw [next_eq, fed]
    change pull decoder chunkSize _ = _
    rw [pull]
    split <;> rename_i result <;> cases read.symm.trans result
    rfl
  rw [drain_eq, ends]

/-- A source of a single read yields what a session delivers for it, and it ends without an
error if the octets are those of messages and nothing else. -/
theorem drain_content (decoder : Decoder) {chunkSize : Nat} (positive : 0 < chunkSize)
    (content : Bytes) :
    let yielded := drain decoder chunkSize { source := { reads := [content] } }
    yielded.messages = (Session.drain decoder {} content).1.messages
      ∧ (yielded.failure = none ↔ Session.Concatenated decoder content) := by
  cases content with
  | nil =>
      rw [drain_nil]
      have empty : Session.drain decoder {} [] = ({ messages := [], error := none }, {}) :=
        Session.drain_accepted .nil
      rw [empty]
      exact ⟨rfl, fun _ => ⟨[], [], rfl, .nil⟩, fun _ => rfl⟩
  | cons octet rest =>
      have nonempty : ∀ read ∈ [octet :: rest], read ≠ [] := by simp
      obtain ⟨messages, failed, whole, tail, -⟩ := drain_reads decoder positive nonempty
      rw [List.flatten_singleton] at messages failed whole tail
      refine ⟨messages, ?_, whole⟩
      intro succeeded
      by_contra inside
      cases error : (Session.drain decoder {} (octet :: rest)).1.error with
      | some failure => simp [failed failure error] at succeeded
      | none => simp [tail error inside] at succeeded

end Stream

namespace CommandLine

variable {files : Files} {standardInput content : Bytes} {options : Options}
  {settings : Settings} {message : Message}

/-! ## What is reported -/

/-- Why the policy for batches ends a run at a message, if it does. -/
def refusal? (settings : Settings) (message : Message) : Option RunError :=
  match settings.policy.process message with
  | .error failure => some (.batch failure)
  | .ok _ => none

theorem refusal?_eq_none_iff :
    refusal? settings message = none ↔ ∃ told, settings.policy.process message = .ok told := by
  rw [refusal?]
  cases settings.policy.process message <;> simp

theorem refusal?_eq_some_iff {error : RunError} :
    refusal? settings message = some error ↔
      ∃ failure, settings.policy.process message = .error failure ∧ error = .batch failure := by
  rw [refusal?]
  cases settings.policy.process message <;> simp [eq_comm]

theorem failure_reportMessage (encodable : ∃ encoded, message.encode = .ok encoded) :
    (reportMessage settings options message).failure = refusal? settings message := by
  obtain ⟨encoded, made⟩ := encodable
  rw [reportMessage, refusal?, made]
  rcases settings.policy.process message with failure | (_ | failure) <;>
    cases options.reencode <;> rfl

/-- Messages that can be encoded again are reported up to the first one that the policy refuses.
If there is none the end of the stream decides. -/
theorem failure_reportAll (decoder : Decoder) {rounds count : Nat} {stream : Stream}
    (enough : (Stream.drain decoder settings.chunkSize stream).messages.length < rounds)
    (encodable : ∀ message ∈ (Stream.drain decoder settings.chunkSize stream).messages,
      ∃ encoded, message.encode = .ok encoded) :
    (reportAll decoder settings options rounds count stream).failure =
      ((Stream.drain decoder settings.chunkSize stream).messages.findSome?
          (refusal? settings)).or
        ((Stream.drain decoder settings.chunkSize stream).failure.map .stream) := by
  induction rounds generalizing count stream with
  | zero => cases enough
  | succ rounds further =>
      rw [Stream.drain_eq] at enough encodable ⊢
      rw [reportAll]
      cases result : Stream.next decoder settings.chunkSize stream with
      | error error after => rfl
      | ok ready after =>
          rw [result] at enough encodable
          cases ready with
          | none => rfl
          | some message =>
              obtain ⟨first, others⟩ := List.forall_mem_cons.1 encodable
              have rest := @further (count + 1) after (Nat.lt_of_succ_lt_succ enough) others
              have reported : (reportMessage settings options message).failure
                  = refusal? settings message := failure_reportMessage first
              dsimp only
              rw [List.findSome?_cons]
              cases refused : refusal? settings message with
              | some error => simp [Report.after, reported, refused]
              | none => simp [Report.after, reported, refused, rest]

/-! ## The settings of a run -/

theorem eq_ok_of_mapError {α ε : Type} {result : Except ε α} {change : ε → RunError} {value : α}
    (succeeded : result.mapError change = .ok value) : result = .ok value := by
  cases result <;> cases succeeded
  rfl

theorem exists_of_bind_eq_ok {α β : Type} {first : Except RunError α}
    {next : α → Except RunError β} {result : β} (ran : (first >>= next) = .ok result) :
    ∃ value, first = .ok value ∧ next value = .ok result := by
  cases first with
  | error error => cases ran
  | ok value => exact ⟨value, rfl, ran⟩

theorem check_readSettings {name : String} (found : readSettings files name = .ok settings) :
    settings.check = .ok () := by
  rw [readSettings] at found
  split at found
  · cases found
  · exact (Settings.parse_eq_ok_iff.1 (eq_ok_of_mapError found)).2

theorem check_of_accepted {kept : Settings}
    (found : (do settings.check.mapError RunError.settings; return settings) = Except.ok kept) :
    kept.check = .ok () := by
  obtain ⟨_, checked, same⟩ := exists_of_bind_eq_ok found
  cases same
  exact eq_ok_of_mapError checked

/-- The settings of a run have been checked. -/
theorem check_settingsOf (found : settingsOf files options = .ok settings) :
    settings.check = .ok () := by
  cases size : options.chunkSize with
  | none =>
      rw [settingsOf, size] at found
      split at found
      · cases found
        rfl
      · obtain ⟨base, read, same⟩ := exists_of_bind_eq_ok found
        cases same
        exact check_readSettings read
  | some chunkSize =>
      rw [settingsOf, size] at found
      split at found
      · exact check_of_accepted found
      · obtain ⟨base, _, accepted⟩ := exists_of_bind_eq_ok found
        exact check_of_accepted accepted

/-! ## Whole runs -/

variable (standardInput) (chosen : settingsOf files options = .ok settings)
  (read : inputOf files standardInput options = .ok content)

include chosen read

/-- **A run ends** with the first message that the policy refuses, or else as the stream does. -/
theorem failure_execute :
    (execute files standardInput options).failure =
      ((Session.drain { limits := settings.limits } {} content).1.messages.findSome?
          (refusal? settings)).or
        ((Stream.drain { limits := settings.limits } settings.chunkSize
            { source := { reads := [content] } }).failure.map .stream) := by
  obtain ⟨-, -, positive⟩ := Settings.check_eq_ok_iff.1 (check_settingsOf chosen)
  obtain ⟨messages, -⟩ := Stream.drain_content { limits := settings.limits } positive content
  have bound := Session.length_messages_le { limits := settings.limits } content
  have encodable (message : Message) :=
    @Session.exists_encode_of_delivered settings.limits content message
  rw [← messages] at bound encodable ⊢
  simp only [execute, chosen, read]
  exact failure_reportAll _ (Nat.lt_succ_of_le bound) encodable

/-- **A run succeeds** if and only if the octets are those of messages and nothing else, and
the policy lets each of them pass. -/
theorem execute_succeeds_iff :
    (execute files standardInput options).failure = none ↔
      Session.Concatenated { limits := settings.limits } content
        ∧ ∀ message ∈ (Session.drain { limits := settings.limits } {} content).1.messages,
            ∃ told, settings.policy.process message = .ok told := by
  obtain ⟨-, -, positive⟩ := Settings.check_eq_ok_iff.1 (check_settingsOf chosen)
  obtain ⟨-, ends⟩ := Stream.drain_content { limits := settings.limits } positive content
  rw [failure_execute standardInput chosen read, Option.or_eq_none_iff, List.findSome?_eq_none_iff,
    Option.map_eq_none_iff, ends, and_comm]
  simp only [refusal?_eq_none_iff]

/-- **The policy stops a run** at the first message that it refuses. -/
theorem execute_stopped_iff {failure : Batch.Failure} :
    (execute files standardInput options).failure = some (.batch failure) ↔
      ∃ front message back,
        (Session.drain { limits := settings.limits } {} content).1.messages
            = front ++ message :: back
          ∧ settings.policy.process message = .error failure
          ∧ ∀ earlier ∈ front, ∃ told, settings.policy.process earlier = .ok told := by
  have stream (ended : Option StreamError) : ended.map RunError.stream ≠ some (.batch failure) := by
    cases ended <;> simp
  rw [failure_execute standardInput chosen read, Option.or_eq_some_iff]
  simp only [stream, and_false, or_false, List.findSome?_eq_some_iff, refusal?_eq_some_iff,
    refusal?_eq_none_iff, RunError.batch.injEq, exists_eq_right']

/-- **No run fails** because a message cannot be encoded again. -/
theorem execute_ne_reencode (id : Int32) :
    (execute files standardInput options).failure ≠ some (.reencode id) := by
  rw [failure_execute standardInput chosen read, ne_eq, Option.or_eq_some_iff]
  simp [List.findSome?_eq_some_iff, refusal?_eq_some_iff]

end CommandLine

end LdapWire
