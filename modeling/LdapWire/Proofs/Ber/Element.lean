import LdapWire.Ber.Writer
import LdapWire.Proofs.Step

/-!
# Elements in their shortest form

`elementBytes` spells an element with its length in the shortest form. A writer
with enough room writes these octets, and fails for lack of room where they do not fit
(`Writer.fills_element`).
-/

set_option autoImplicit false

namespace LdapWire.Ber

/-- The octets of an element, its length in the shortest form. -/
def elementBytes (tag : UInt8) (content : Bytes) : Bytes :=
  tag :: (Length.bytes content.length ++ content)

@[simp] theorem length_elementBytes (tag : UInt8) (content : Bytes) :
    (elementBytes tag content).length = 1 + Length.width content.length + content.length := by
  rw [elementBytes, List.length_cons, List.length_append, Length.length_bytes]
  omega

/-! ## Writing -/

namespace Writer

/-- A writer that has written some octets more. -/
def append (writer : Writer) (content : Bytes) : Writer :=
  { written := content.reverseAux writer.written, rest := writer.rest.drop content.length }

@[simp] theorem append_append (writer : Writer) (first second : Bytes) :
    (writer.append first).append second = writer.append (first ++ second) := by
  simp [append, List.reverseAux_eq, List.drop_drop]

@[simp] theorem remaining_append (writer : Writer) (content : Bytes) :
    (writer.append content).remaining = writer.remaining - content.length := by
  simp [append, remaining]

@[simp] theorem position_append (writer : Writer) (content : Bytes) :
    (writer.append content).position = writer.position + content.length := by
  simp [append, position, List.reverseAux_eq, Nat.add_comm]

theorem length_buffer_append {writer : Writer} {content : Bytes}
    (fits : content.length ≤ writer.remaining) :
    (writer.append content).buffer.length = writer.buffer.length := by
  rw [length_buffer, length_buffer, position_append, remaining_append]
  omega

/-- Whether a step writes the given octets, on every writer with room for them. -/
def Writes (step : Step Writer Unit) (content : Bytes) : Prop :=
  ∀ writer : Writer, content.length ≤ writer.remaining →
    step writer = .ok () (writer.append content)

/-- What is written one after the other. -/
theorem Writes.bind {step : Step Writer Unit} {next : Unit → Step Writer Unit}
    {first second : Bytes} (writes : Writes step first) (further : Writes (next ()) second) :
    Writes (step >>= next) (first ++ second) := by
  intro writer fits
  rw [List.length_append] at fits
  rw [Step.bind_of_ok _ (writes writer (by omega)),
    further _ (by rw [remaining_append]; omega), append_append]

/-- Whether a step writes the given octets and fails where they do not fit. Its buffer
keeps its size, and no plan is to blame. -/
structure Produces (step : Step Writer Unit) (content : Bytes) : Prop where
  writes : Writes step content
  overflows : ∀ writer : Writer, writer.remaining < content.length →
    ∃ error after, step writer = .error error after
      ∧ after.buffer.length = writer.buffer.length ∧ error ≠ .planExhausted

theorem Produces.pure : Produces (pure ()) [] where
  writes := fun _ _ => rfl
  overflows := fun _ large => absurd large (Nat.not_lt_zero _)

theorem Produces.bind {step : Step Writer Unit} {next : Unit → Step Writer Unit}
    {first second : Bytes} (produces : Produces step first) (further : Produces (next ()) second) :
    Produces (step >>= next) (first ++ second) where
  writes := produces.writes.bind further.writes
  overflows := fun writer large => by
    rw [List.length_append] at large
    by_cases fits : first.length ≤ writer.remaining
    · have wrote := produces.writes writer fits
      obtain ⟨error, after, failed, kept, innocent⟩ :=
        further.overflows (writer.append first) (by rw [remaining_append]; omega)
      rw [Step.bind_of_ok _ wrote]
      exact ⟨error, after, failed, kept.trans (length_buffer_append fits), innocent⟩
    · obtain ⟨error, after, failed, kept, innocent⟩ :=
        produces.overflows writer (Nat.not_le.1 fits)
      exact ⟨error, after, Step.bind_of_error _ failed, kept, innocent⟩

/-- Whether a step writes the given octets, and fails for lack of room where they do not
fit, with no more than a front of them written. -/
structure Fills (step : Step Writer Unit) (content : Bytes) : Prop where
  writes : Writes step content
  overflows : ∀ writer : Writer, writer.remaining < content.length →
    ∃ needed front,
      step writer = .error (.bufferTooSmall needed writer.buffer.length) (writer.append front)
        ∧ writer.buffer.length < needed ∧ front <+: content ∧ front.length ≤ writer.remaining

theorem Fills.pure : Fills (pure ()) [] where
  writes := fun _ _ => rfl
  overflows := fun _ large => absurd large (Nat.not_lt_zero _)

theorem Fills.bind {step : Step Writer Unit} {next : Unit → Step Writer Unit}
    {first second : Bytes} (fills : Fills step first) (further : Fills (next ()) second) :
    Fills (step >>= next) (first ++ second) where
  writes := fills.writes.bind further.writes
  overflows := fun writer large => by
    rw [List.length_append] at large
    by_cases fits : first.length ≤ writer.remaining
    · obtain ⟨needed, front, failed, more, begun, room⟩ :=
        further.overflows (writer.append first) (by rw [remaining_append]; omega)
      rw [remaining_append] at room
      rw [length_buffer_append fits] at failed more
      rw [append_append] at failed
      refine ⟨needed, first ++ front, ?_, more, (List.prefix_append_right_inj first).2 begun, ?_⟩
      · rw [Step.bind_of_ok _ (fills.writes writer fits), failed]
      · rw [List.length_append]
        omega
    · obtain ⟨needed, front, failed, more, begun, room⟩ :=
        fills.overflows writer (Nat.not_le.1 fits)
      exact ⟨needed, front, Step.bind_of_error _ failed, more,
        begun.trans (List.prefix_append first second), room⟩

/-- A step that fails for lack of room blames no plan and keeps the size of its buffer. -/
theorem Fills.produces {step : Step Writer Unit} {content : Bytes} (fills : Fills step content) :
    Produces step content where
  writes := fills.writes
  overflows := fun writer large => by
    obtain ⟨needed, front, failed, _, _, room⟩ := fills.overflows writer large
    exact ⟨_, _, failed, length_buffer_append room, by simp⟩

theorem fills_octets (content : Bytes) : Fills (write content) content where
  writes := fun _ fits => if_neg (Nat.not_lt.2 fits)
  overflows := fun writer large => by
    refine ⟨writer.position + content.length, [], ?_, ?_, List.nil_prefix, Nat.zero_le _⟩
    · rw [write, if_pos large, length_buffer]
      rfl
    · rw [length_buffer]
      omega

theorem fills_length (length : Nat) : Fills (writeLength length) (Length.bytes length) := by
  unfold writeLength Length.bytes
  split
  · exact fills_octets _
  · exact (fills_octets _).bind (fills_octets _)

theorem fills_element (tag : UInt8) (content : Bytes) :
    Fills (writeElement tag content) (elementBytes tag content) :=
  (fills_octets [tag]).bind ((fills_length _).bind (fills_octets content))

theorem produces_octets (content : Bytes) : Produces (write content) content :=
  (fills_octets content).produces

theorem produces_length (length : Nat) : Produces (writeLength length) (Length.bytes length) :=
  (fills_length length).produces

theorem produces_element (tag : UInt8) (content : Bytes) :
    Produces (writeElement tag content) (elementBytes tag content) :=
  (fills_element tag content).produces

end Writer

end LdapWire.Ber
