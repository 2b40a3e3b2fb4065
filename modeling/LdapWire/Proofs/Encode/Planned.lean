import LdapWire.Encode.Basic
import LdapWire.Proofs.Encode.Permission

/-!
# The byte pass

A plan need not be that of the message that is written by it. Whatever the plan, a
step either writes what it always writes, by the lengths that it really takes, or it
fails (`PlannedWriter.Produces`). So a message is written into a buffer if and only if
the lengths of its contents are the first of the plan (`Message.encodeInto_spec`), and
a message with its own plan fails only where a payload breaks its word
(`Message.encode_eq_ok_iff`).
-/

set_option autoImplicit false

namespace LdapWire

open Ber

namespace PlannedWriter

/-- Whether a step takes the given lengths from every plan that begins with them
and writes the given octets, where there is room for them. -/
def Spells (step : Step PlannedWriter Unit) (lengths : List Nat) (octets : Bytes) : Prop :=
  ∀ (planned : PlannedWriter) (later : List Nat), planned.lengths = lengths ++ later →
    octets.length ≤ planned.writer.remaining →
      step planned = .ok () { writer := planned.writer.append octets, lengths := later }

/-- Whether a step that may be `permitted` or not writes the given octets where the
given lengths are planned and the octets fit, and fails everywhere else. Its buffer
keeps its size, and a plan with as many lengths is not exhausted. -/
structure Produces (step : Step PlannedWriter Unit) (permitted : Prop) (lengths : List Nat)
    (octets : Bytes) : Prop where
  spells : permitted → Spells step lengths octets
  stops : ∀ planned : PlannedWriter,
    ¬ (permitted ∧ lengths <+: planned.lengths ∧ octets.length ≤ planned.writer.remaining) →
      ∃ error after, step planned = .error error after
        ∧ after.writer.buffer.length = planned.writer.buffer.length
        ∧ (lengths.length ≤ planned.lengths.length → error ≠ .planExhausted)

variable {step : Step PlannedWriter Unit} {permitted further : Prop} {lengths : List Nat}
  {octets : Bytes}

theorem Produces.pure : Produces (pure ()) True [] [] where
  spells := fun _ => by
    rintro ⟨writer, _⟩ later rfl _
    rfl
  stops := fun planned other =>
    absurd ⟨trivial, List.nil_prefix, Nat.zero_le _⟩ other

theorem Produces.refuse (violation : Violation) :
    Produces (throw (.violation violation)) False [] [] where
  spells := fun impossible => impossible.elim
  stops := fun planned _ => ⟨_, planned, rfl, rfl, fun _ => by simp⟩

theorem Produces.onWriter {step : Step Writer Unit} (produces : Writer.Produces step octets) :
    Produces (onWriter step) True [] octets where
  spells := fun _ => by
    rintro ⟨writer, _⟩ later rfl fits
    simp only [PlannedWriter.onWriter, produces.writes writer fits]
  stops := fun planned other => by
    have large : planned.writer.remaining < octets.length := by
      by_contra fits
      exact other ⟨trivial, List.nil_prefix, Nat.not_lt.1 fits⟩
    obtain ⟨error, after, failed, kept, innocent⟩ := produces.overflows planned.writer large
    refine ⟨error, { planned with writer := after }, ?_, kept, fun _ => innocent⟩
    simp only [PlannedWriter.onWriter, failed]

theorem Produces.bind {next : Unit → Step PlannedWriter Unit} {later : List Nat} {back : Bytes}
    (first : Produces step permitted lengths octets)
    (second : Produces (next ()) further later back) :
    Produces (step >>= next) (permitted ∧ further) (lengths ++ later) (octets ++ back) where
  spells := by
    rintro ⟨allowed, allowedFurther⟩ planned others planning fits
    rw [List.append_assoc] at planning
    rw [List.length_append] at fits
    rw [Step.bind_of_ok _ (first.spells allowed planned (later ++ others) planning (by omega)),
      second.spells allowedFurther _ others rfl (by rw [Writer.remaining_append]; omega),
      Writer.append_append]
  stops := fun planned other => by
    by_cases begins : permitted ∧ lengths <+: planned.lengths
        ∧ octets.length ≤ planned.writer.remaining
    · obtain ⟨allowed, ⟨others, planning⟩, fits⟩ := begins
      have wrote := first.spells allowed planned others planning.symm fits
      have stuck : ¬ (further ∧ later <+: others
          ∧ back.length ≤ (planned.writer.append octets).remaining) := by
        rintro ⟨allowedFurther, continues, room⟩
        refine other ⟨⟨allowed, allowedFurther⟩, ?_, ?_⟩
        · rw [← planning]
          exact (List.prefix_append_right_inj lengths).2 continues
        · rw [Writer.remaining_append] at room
          rw [List.length_append]
          omega
      obtain ⟨error, after, failed, kept, innocent⟩ :=
        second.stops { writer := planned.writer.append octets, lengths := others } stuck
      refine ⟨error, after, ?_, kept.trans (Writer.length_buffer_append fits), fun enough => ?_⟩
      · rw [Step.bind_of_ok _ wrote, failed]
      · refine innocent ?_
        rw [← planning, List.length_append, List.length_append] at enough
        dsimp only
        omega
    · obtain ⟨error, after, failed, kept, innocent⟩ := first.stops planned begins
      refine ⟨error, after, Step.bind_of_error _ failed, kept, fun enough => innocent ?_⟩
      rw [List.length_append] at enough
      omega

/-- Content that is compared with the length planned for it. -/
theorem Produces.compared (content : Produces step permitted lengths octets) (expected : Nat) :
    Produces (do
        let start := (← get).position
        step
        let written := (← get).position - start
        if written ≠ expected then throw (.lengthMismatch expected written))
      (permitted ∧ octets.length = expected) lengths octets := by
  have counted : ∀ writer : Writer,
      (writer.append octets).position - writer.position = octets.length := by
    intro writer
    rw [Writer.position_append]
    omega
  refine ⟨?_, fun planned other => ?_⟩
  · rintro ⟨allowed, same⟩ planned later planning fits
    have wrote := content.spells allowed planned later planning fits
    rw [Step.get_bind, Step.bind_of_ok _ wrote, Step.get_bind]
    simp only [PlannedWriter.position, counted, same, ne_eq, not_true_eq_false, if_false]
    rfl
  · rw [Step.get_bind]
    by_cases begins : permitted ∧ lengths <+: planned.lengths
        ∧ octets.length ≤ planned.writer.remaining
    · obtain ⟨allowed, ⟨later, planning⟩, fits⟩ := begins
      have wrote := content.spells allowed planned later planning.symm fits
      have differs : octets.length ≠ expected := fun same =>
        other ⟨⟨allowed, same⟩, ⟨later, planning⟩, fits⟩
      rw [Step.bind_of_ok _ wrote, Step.get_bind]
      simp only [PlannedWriter.position, counted, ne_eq, differs, not_false_eq_true, if_true]
      exact ⟨_, _, rfl, Writer.length_buffer_append fits, fun _ => by simp⟩
    · obtain ⟨error, after, failed, kept, innocent⟩ := content.stops planned begins
      exact ⟨error, after, Step.bind_of_error _ failed, kept, innocent⟩

/-- What is written behind a header. -/
theorem Produces.headed (content : Produces step permitted lengths octets) (tag : UInt8)
    (expected : Nat) :
    Produces (do
        PlannedWriter.onWriter (Writer.writeTag tag)
        PlannedWriter.onWriter (Writer.writeLength expected)
        step)
      permitted lengths (tag :: (Length.bytes expected ++ octets)) := by
  have measured : Produces (do
      PlannedWriter.onWriter (Writer.writeLength expected)
      step) (True ∧ permitted) ([] ++ lengths) (Length.bytes expected ++ octets) :=
    (onWriter (Writer.produces_length expected)).bind content
  have tagged : Produces (do
      PlannedWriter.onWriter (Writer.writeTag tag)
      PlannedWriter.onWriter (Writer.writeLength expected)
      step) (True ∧ True ∧ permitted) ([] ++ ([] ++ lengths))
        ([tag] ++ (Length.bytes expected ++ octets)) :=
    (onWriter (Writer.produces_octets [tag])).bind measured
  rwa [true_and, true_and] at tagged

/-- An element is written where its content turns out as long as planned. -/
theorem Produces.element (content : Produces step permitted lengths octets) (tag : UInt8) :
    Produces (element tag step) permitted (octets.length :: lengths) (elementBytes tag octets) := by
  have body := fun expected => (content.compared expected).headed tag expected
  refine ⟨fun allowed => ?_, fun planned other => ?_⟩
  · rintro ⟨writer, _⟩ later rfl fits
    have took : nextLength ⟨writer, octets.length :: lengths ++ later⟩
        = .ok octets.length ⟨writer, lengths ++ later⟩ := rfl
    rw [PlannedWriter.element, Step.bind_of_ok _ took]
    exact (body octets.length).spells ⟨allowed, rfl⟩ _ later rfl fits
  · obtain ⟨writer, plan⟩ := planned
    cases plan with
    | nil =>
        have exhausted : nextLength ⟨writer, []⟩ = .error .planExhausted ⟨writer, []⟩ := rfl
        refine ⟨_, _, Step.bind_of_error _ exhausted, rfl, fun enough => ?_⟩
        exact absurd enough (Nat.not_succ_le_zero _)
    | cons expected rest =>
        have took : nextLength ⟨writer, expected :: rest⟩ = .ok expected ⟨writer, rest⟩ := rfl
        have stuck : ¬ ((permitted ∧ octets.length = expected) ∧ lengths <+: rest
            ∧ (tag :: (Length.bytes expected ++ octets)).length ≤ writer.remaining) := by
          rintro ⟨⟨allowed, rfl⟩, continues, room⟩
          exact other ⟨allowed, (List.prefix_cons_inj octets.length).2 continues, room⟩
        obtain ⟨error, after, failed, kept, innocent⟩ := (body expected).stops ⟨writer, rest⟩ stuck
        refine ⟨error, after, ?_, kept, fun enough => innocent ?_⟩
        · rw [PlannedWriter.element, Step.bind_of_ok _ took]
          exact failed
        · exact Nat.le_of_succ_le_succ enough

end PlannedWriter

namespace Layout

mutual

theorem produces_write : ∀ layout : Layout,
    PlannedWriter.Produces layout.write layout.Permitted layout.written layout.bytes
  | .primitive tag content => by
      rw [write, Permitted, written, bytes]
      exact .onWriter (Writer.produces_element tag content)
  | .constructed tag parts => by
      rw [write, Permitted, written, bytes]
      exact (produces_writeAll parts).element tag
  | .payload value => by
      rw [write, Permitted, written, bytes]
      exact (PlannedWriter.Produces.onWriter value.produces).element Tag.octetString
  | .refusal violation => by
      rw [write, Permitted, written, bytes]
      exact .refuse violation

theorem produces_writeAll : ∀ layouts : List Layout,
    PlannedWriter.Produces (writeAll layouts) (AllPermitted layouts) (writtenAll layouts)
      (bytesAll layouts)
  | [] => by
      rw [writeAll, AllPermitted, writtenAll, bytesAll]
      exact .pure
  | part :: rest => by
      rw [writeAll, AllPermitted, writtenAll, bytesAll]
      exact (produces_write part).bind (produces_writeAll rest)

end

end Layout

/-! ## Messages -/

namespace Message

variable {message other : Message} {plan : Plan} {buffer : Bytes}

/-- A message has a plan where nothing of it is refused. -/
theorem plan_eq_ok_iff : message.plan = .ok plan ↔ message.layout.Permitted
    ∧ plan = { lengths := message.layout.lengths, total := message.layout.size } :=
  Layout.measure_eq_ok_iff

theorem exists_plan_iff : (∃ plan, message.plan = .ok plan) ↔ message.layout.Permitted := by
  simp only [plan_eq_ok_iff, exists_and_left, exists_eq, and_true]

/-- A message whose lengths are the first of a plan is as long as planned. -/
theorem length_bytes_of_planned (planned : other.plan = .ok plan)
    (begins : message.layout.written <+: plan.lengths) :
    message.layout.bytes.length = plan.total := by
  obtain ⟨_, rfl⟩ := plan_eq_ok_iff.1 planned
  rw [Message.layout, Message.layout, Layout.written, Layout.lengths] at begins
  obtain ⟨same, _⟩ := List.cons_prefix_cons.1 begins
  rw [Message.layout, Message.layout, Layout.bytes, length_elementBytes, same,
    Layout.size_constructed]
  rfl

/-- What a planned writer leaves in a buffer of which it has the first octets. -/
theorem drop_after {writer : Writer} {total : Nat} (fits : total ≤ buffer.length)
    (kept : writer.buffer.length = (Writer.ofBuffer (buffer.take total)).buffer.length) :
    (writer.buffer ++ buffer.drop total).drop total = buffer.drop total := by
  have size : writer.buffer.length = total := by
    rw [kept, Writer.length_buffer]
    simp [Writer.ofBuffer, Writer.position, Writer.remaining, fits]
  rw [← size, List.drop_left]

theorem encodeInto_of_fits (permitted : message.layout.Permitted)
    (fits : plan.total ≤ buffer.length) (begins : message.layout.written <+: plan.lengths)
    (size : message.layout.bytes.length = plan.total) :
    message.encodeInto plan buffer
      = (.ok plan.total, message.layout.bytes ++ buffer.drop plan.total) := by
  obtain ⟨later, planning⟩ := begins
  have whole : (buffer.take plan.total).length = plan.total := by
    rw [List.length_take]
    exact Nat.min_eq_left fits
  have wrote := (Layout.produces_write message.layout).spells permitted
    { writer := Writer.ofBuffer (buffer.take plan.total), lengths := plan.lengths } later
    planning.symm (by
      change _ ≤ (buffer.take plan.total).length
      rw [size, whole])
  have position : ((Writer.ofBuffer (buffer.take plan.total)).append
      message.layout.bytes).position = plan.total := by
    rw [Writer.position_append, size]
    exact Nat.zero_add _
  have filled : ((Writer.ofBuffer (buffer.take plan.total)).append
      message.layout.bytes).buffer = message.layout.bytes := by
    simp [Writer.buffer, Writer.append, Writer.ofBuffer, size, List.reverseAux_eq]
  unfold encodeInto EStateM.run
  simp only [if_neg (Nat.not_lt.2 fits), wrote, PlannedWriter.position, position, ne_eq,
    not_true_eq_false, if_false, filled]

theorem encodeInto_of_stuck
    (stuck : ¬ (message.layout.Permitted ∧ plan.total ≤ buffer.length
      ∧ message.layout.written <+: plan.lengths ∧ message.layout.bytes.length ≤ plan.total)) :
    ∃ error after, message.encodeInto plan buffer = (.error error, after)
      ∧ after.drop plan.total = buffer.drop plan.total
      ∧ (message.layout.written.length ≤ plan.lengths.length → error ≠ .planExhausted) := by
  by_cases fits : plan.total ≤ buffer.length
  · have whole : (buffer.take plan.total).length = plan.total := by
      rw [List.length_take]
      exact Nat.min_eq_left fits
    obtain ⟨error, after, failed, kept, innocent⟩ :=
      (Layout.produces_write message.layout).stops
        { writer := Writer.ofBuffer (buffer.take plan.total), lengths := plan.lengths } (by
          rintro ⟨permitted, begins, room⟩
          change _ ≤ (buffer.take plan.total).length at room
          exact stuck ⟨permitted, fits, begins, whole ▸ room⟩)
    refine ⟨error, after.writer.buffer ++ buffer.drop plan.total, ?_, drop_after fits kept,
      innocent⟩
    unfold encodeInto EStateM.run
    simp only [if_neg (Nat.not_lt.2 fits), failed]
  · refine ⟨.bufferTooSmall plan.total buffer.length, buffer, ?_, rfl, fun _ => by simp⟩
    exact if_pos (Nat.not_le.1 fits)

/-! ### A message with its own plan -/

/-- The plan of a message, and what the two passes of `encode` come to. -/
theorem encode_of_plan (planned : message.plan = .ok plan) :
    message.encode =
      match (message.encodeInto plan (List.replicate plan.total 0)).1 with
      | .ok _ => .ok (message.encodeInto plan (List.replicate plan.total 0)).2
      | .error error => .error error := by
  unfold encode
  rw [planned]
  cases outcome : message.encodeInto plan (List.replicate plan.total 0) with
  | mk result after => cases result <;> simp [bind, Except.bind, pure, Except.pure, outcome]

theorem encode_of_sound (sound : message.layout.Sound) :
    message.encode = .ok message.layout.bytes := by
  obtain ⟨permitted, _⟩ := Layout.sound_iff.1 sound
  have planned := plan_eq_ok_iff.2 ⟨permitted, rfl⟩
  have same := (Layout.written_eq_lengths_iff permitted).2 sound
  have begins : message.layout.written <+: message.layout.lengths := same ▸ List.prefix_rfl
  have fits : message.layout.size ≤ (List.replicate message.layout.size (0 : UInt8)).length :=
    Nat.le_of_eq List.length_replicate.symm
  rw [encode_of_plan planned, encodeInto_of_fits permitted fits begins
    (length_bytes_of_planned planned begins)]
  simp

theorem encode_of_unsound (unsound : ¬ message.layout.Sound) :
    ∃ error, message.encode = .error error ∧ error ≠ .planExhausted := by
  cases planned : message.plan with
  | error error =>
      refine ⟨error, ?_, ?_⟩
      · unfold encode
        rw [planned]
        rfl
      · obtain ⟨violation, rfl⟩ := Layout.violation_of_measure planned
        simp
  | ok plan =>
      obtain ⟨permitted, rfl⟩ := plan_eq_ok_iff.1 planned
      have differs : ¬ message.layout.written <+: message.layout.lengths := fun begins =>
        unsound ((Layout.written_eq_lengths_iff permitted).1
          (begins.eq_of_length (Layout.length_written message.layout)))
      obtain ⟨error, after, failed, _, innocent⟩ :=
        @encodeInto_of_stuck message
          { lengths := message.layout.lengths, total := message.layout.size }
          (List.replicate message.layout.size 0) fun ⟨_, _, begins, _⟩ => differs begins
      refine ⟨error, ?_, innocent (Nat.le_of_eq (Layout.length_written message.layout))⟩
      rw [encode_of_plan planned, failed]

/-- **Encoding** spells the layout of a message out, if and only if no part of it is
refused and the payloads keep the lengths they claim. -/
theorem encode_eq_ok_iff {octets : Bytes} :
    message.encode = .ok octets ↔ message.layout.Sound ∧ octets = message.layout.bytes := by
  by_cases sound : message.layout.Sound
  · rw [encode_of_sound sound, Except.ok.injEq, eq_comm]
    exact (and_iff_right sound).symm
  · obtain ⟨error, failed, _⟩ := encode_of_unsound sound
    rw [failed]
    exact iff_of_false (by simp) fun other => sound other.1

/-! ### A message with any plan -/

/-- **A plan never produces wrong octets**: by the plan of any message, another one is
written into a buffer if and only if none of its parts is refused, the buffer is as
large as planned, and the lengths of its contents are the first of the plan. Then the
first octets of the buffer are the encoding of the message, and no call touches those
behind them. With its own plan a message is encoded if and only if every payload keeps
its word, and the plan is never exhausted. -/
theorem encodeInto_spec (message : Message) (planned : other.plan = .ok plan) :
    (∀ buffer : Bytes,
      ((∃ count, (message.encodeInto plan buffer).1 = .ok count) ↔
        (∃ own, message.plan = .ok own) ∧ plan.total ≤ buffer.length
          ∧ message.layout.written <+: plan.lengths)
      ∧ (∀ count, (message.encodeInto plan buffer).1 = .ok count →
          count = plan.total
            ∧ (message.encodeInto plan buffer).2.take count = message.layout.bytes)
      ∧ (message.encodeInto plan buffer).2.drop plan.total = buffer.drop plan.total)
    ∧ ((∃ octets, message.encode = .ok octets) ↔
        (∃ own, message.plan = .ok own) ∧ ∀ control ∈ message.controls, ∀ value,
          control.value = .decoded value → value.bytes.length = value.encodedLength)
    ∧ message.encode ≠ .error .planExhausted := by
  refine ⟨fun buffer => ?_, ?_, ?_⟩
  · rw [exists_plan_iff]
    by_cases fine : message.layout.Permitted ∧ plan.total ≤ buffer.length
        ∧ message.layout.written <+: plan.lengths
    · obtain ⟨permitted, fits, begins⟩ := fine
      have size := length_bytes_of_planned planned begins
      rw [encodeInto_of_fits permitted fits begins size]
      refine ⟨iff_of_true ⟨_, rfl⟩ ⟨permitted, fits, begins⟩, ?_, ?_⟩
      · rintro _ ⟨⟩
        exact ⟨rfl, by rw [← size, List.take_left]⟩
      · rw [← size, List.drop_left]
    · obtain ⟨error, after, failed, kept, _⟩ :=
        @encodeInto_of_stuck message plan buffer fun ⟨permitted, fits, begins, _⟩ =>
          fine ⟨permitted, fits, begins⟩
      rw [failed]
      refine ⟨iff_of_false (by rintro ⟨_, ⟨⟩⟩) fine, ?_, kept⟩
      rintro _ ⟨⟩
  · simp only [encode_eq_ok_iff, exists_and_left, exists_eq, and_true, exists_plan_iff,
      Layout.sound_iff]
    refine and_congr_right fun permitted => ?_
    simp only [mem_payloads_iff permitted]
    exact ⟨fun honest control listed value carried => honest value ⟨control, listed, carried⟩,
      fun honest value ⟨control, listed, carried⟩ => honest control listed value carried⟩
  · by_cases sound : message.layout.Sound
    · rw [encode_of_sound sound]
      simp
    · obtain ⟨error, failed, innocent⟩ := encode_of_unsound sound
      rw [failed]
      simpa using innocent

/-- An unbind request that asks for pages. -/
def pagedUnbind (id : Int32) : Message where
  id
  operation := .unbindRequest
  controls := [.ofPayload false (.paged { size := 10 })]

/-- The plan of such a request, whatever its identifier, if that takes one octet: the lengths of
the message, of the controls, of the one control and of its payload. -/
def pagedPlan : Plan := { lengths := [42, 35, 33, 7], total := 44 }

/-- An unbind request with a payload that claims more octets than it writes. -/
def boastfulUnbind : Message where
  id := 1
  operation := .unbindRequest
  controls := [.ofPayload false (.custom "1.2" 3 [0x05, 0x00])]

/-- One request by the plan of another, into a buffer that is larger. The request has been
encoded by its own plan as well, and one with a payload that does not keep its word has not. -/
theorem encodeInto_spec_unbind :
    (pagedUnbind 1).plan = .ok pagedPlan
      ∧ ((pagedUnbind 2).encodeInto pagedPlan (List.replicate 46 0xFF)).1 = .ok 44
      ∧ ((pagedUnbind 2).encodeInto pagedPlan (List.replicate 46 0xFF)).2.take 44
        = [0x30, 0x2A, 0x02, 0x01, 0x02, 0x42, 0x00, 0xA0, 0x23, 0x30, 0x21,
          0x04, 0x16, 0x31, 0x2E, 0x32, 0x2E, 0x38, 0x34, 0x30, 0x2E, 0x31, 0x31, 0x33,
          0x35, 0x35, 0x36, 0x2E, 0x31, 0x2E, 0x34, 0x2E, 0x33, 0x31, 0x39,
          0x04, 0x07, 0x30, 0x05, 0x02, 0x01, 0x0A, 0x04, 0x00]
      ∧ ((pagedUnbind 2).encodeInto pagedPlan (List.replicate 46 0xFF)).2.drop 44 = [0xFF, 0xFF]
      ∧ (∃ octets, (pagedUnbind 2).encode = .ok octets)
      ∧ (¬ ∃ octets, boastfulUnbind.encode = .ok octets)
      ∧ boastfulUnbind.encode ≠ .error .planExhausted := by
  have planned : (pagedUnbind 1).plan = .ok pagedPlan := by decide +kernel
  have own : (pagedUnbind 2).plan = .ok pagedPlan := by decide +kernel
  obtain ⟨into, encodes, _⟩ := encodeInto_spec (pagedUnbind 2) planned
  obtain ⟨succeeds, spelled, kept⟩ := into (List.replicate 46 0xFF)
  obtain ⟨count, written⟩ := succeeds.2 ⟨⟨_, own⟩, by decide, by decide +kernel⟩
  obtain ⟨rfl, octets⟩ := spelled count written
  obtain ⟨_, boasts, innocent⟩ := encodeInto_spec boastfulUnbind planned
  refine ⟨planned, written, octets.trans (by decide +kernel), kept, ?_, ?_, innocent⟩
  · refine encodes.2 ⟨⟨_, own⟩, fun control listed value carried => ?_⟩
    obtain rfl := List.mem_singleton.1 listed
    cases carried
    decide +kernel
  · intro encoded
    have honest := (boasts.1 encoded).2 _ (List.mem_singleton_self _) _ rfl
    exact absurd honest (by decide +kernel)

end Message

end LdapWire
