import LdapWire.Encode.Basic
import LdapWire.Proofs.Control.Payload
import LdapWire.Proofs.Encode.Size

/-!
# The octets of a layout

`Layout.bytes` spells a layout out. The length pass succeeds where the layout refuses
nothing (`Layout.measure_eq_ok_iff`) and finds the lengths that the payloads claim;
the lengths of what is written are the same if and only if the payloads keep them
(`Layout.written_eq_lengths_iff`).
-/

set_option autoImplicit false

namespace LdapWire

open Ber

/-- The octets that a payload writes. -/
def Payload.bytes : Payload → Bytes
  | .paged value => value.bytes
  | .sync value => value.bytes
  | .custom _ _ content => content

theorem Payload.produces (payload : Payload) : Writer.Produces payload.encode payload.bytes := by
  cases payload with
  | paged value => exact value.produces
  | sync value => exact value.produces
  | custom oid claimedLength content => exact Writer.produces_octets content

namespace Layout

mutual

/-- The octets of a layout. -/
def bytes : Layout → Bytes
  | .primitive tag content => elementBytes tag content
  | .constructed tag parts => elementBytes tag (bytesAll parts)
  | .payload value => elementBytes Tag.octetString value.bytes
  | .refusal _ => []

/-- The octets of layouts next to each other. -/
def bytesAll : List Layout → Bytes
  | [] => []
  | part :: rest => bytes part ++ bytesAll rest

end

mutual

/-- Whether a layout refuses nothing, and its payloads keep the lengths they claim. -/
def Sound : Layout → Prop
  | .primitive .. => True
  | .constructed _ parts => AllSound parts
  | .payload value => value.bytes.length = value.encodedLength
  | .refusal _ => False

def AllSound : List Layout → Prop
  | [] => True
  | part :: rest => Sound part ∧ AllSound rest

end

mutual

/-- Whether a layout refuses nothing. -/
def Permitted : Layout → Prop
  | .constructed _ parts => AllPermitted parts
  | .primitive .. | .payload _ => True
  | .refusal _ => False

def AllPermitted : List Layout → Prop
  | [] => True
  | part :: rest => Permitted part ∧ AllPermitted rest

end

mutual

/-- The payloads inside a layout. -/
def payloads : Layout → List Payload
  | .constructed _ parts => payloadsAll parts
  | .payload value => [value]
  | .primitive .. | .refusal _ => []

def payloadsAll : List Layout → List Payload
  | [] => []
  | part :: rest => payloads part ++ payloadsAll rest

end

mutual

/-- The lengths that the plan of a layout holds. -/
def lengths : Layout → List Nat
  | .constructed _ parts => sizeAll parts :: lengthsAll parts
  | .payload value => [value.encodedLength]
  | .primitive .. | .refusal _ => []

def lengthsAll : List Layout → List Nat
  | [] => []
  | part :: rest => lengths part ++ lengthsAll rest

end

mutual

/-- The lengths of the contents that are written, each before those inside it. -/
def written : Layout → List Nat
  | .constructed _ parts => (bytesAll parts).length :: writtenAll parts
  | .payload value => [value.bytes.length]
  | .primitive .. | .refusal _ => []

def writtenAll : List Layout → List Nat
  | [] => []
  | part :: rest => written part ++ writtenAll rest

end

/-! ## Neighbours -/

theorem bytesAll_append (front back : List Layout) :
    bytesAll (front ++ back) = bytesAll front ++ bytesAll back := by
  induction front with
  | nil => rw [List.nil_append, bytesAll, List.nil_append]
  | cons part rest further =>
      rw [List.cons_append, bytesAll, further, bytesAll, List.append_assoc]

theorem allSound_append {front back : List Layout} :
    AllSound (front ++ back) ↔ AllSound front ∧ AllSound back := by
  induction front with
  | nil => rw [List.nil_append, AllSound, true_and]
  | cons part rest further => rw [List.cons_append, AllSound, further, AllSound, and_assoc]

/-! ## Sizes -/

mutual

theorem length_bytes : ∀ {layout : Layout}, layout.Sound → layout.bytes.length = layout.size
  | .primitive tag content, _ => by
      rw [bytes, length_elementBytes, size_primitive]
      rfl
  | .constructed tag parts, sound => by
      rw [Sound] at sound
      rw [bytes, length_elementBytes, length_bytesAll sound, size_constructed]
      rfl
  | .payload value, sound => by
      rw [Sound] at sound
      rw [bytes, length_elementBytes, sound, size_payload]
      rfl
  | .refusal _, sound => by
      rw [Sound] at sound
      exact sound.elim

theorem length_bytesAll : ∀ {layouts : List Layout}, AllSound layouts →
    (bytesAll layouts).length = sizeAll layouts
  | [], _ => by rw [bytesAll, sizeAll_nil, List.length_nil]
  | part :: rest, sound => by
      rw [AllSound] at sound
      rw [bytesAll, List.length_append, length_bytes sound.1, length_bytesAll sound.2, sizeAll_cons]

end

/-- A layout that refuses nothing takes some octets. -/
theorem size_pos {layout : Layout} (sound : layout.Sound) : 0 < layout.size := by
  cases layout with
  | refusal violation =>
      rw [Sound] at sound
      exact sound.elim
  | primitive | constructed | payload =>
      rw [size]
      exact Plan.elementLength_pos _

/-! ## Payloads -/

mutual

theorem sound_iff : ∀ {layout : Layout}, layout.Sound ↔
    layout.Permitted ∧ ∀ value ∈ layout.payloads, value.bytes.length = value.encodedLength
  | .primitive tag content => by simp [Sound, Permitted, payloads]
  | .payload value => by simp [Sound, Permitted, payloads]
  | .refusal violation => by simp [Sound, Permitted]
  | .constructed tag parts => by
      rw [Sound, Permitted, payloads]
      exact allSound_iff

theorem allSound_iff : ∀ {layouts : List Layout}, AllSound layouts ↔
    AllPermitted layouts
      ∧ ∀ value ∈ payloadsAll layouts, value.bytes.length = value.encodedLength
  | [] => by simp [AllSound, AllPermitted, payloadsAll]
  | part :: rest => by
      have first := @sound_iff part
      have others := @allSound_iff rest
      rw [AllSound, AllPermitted, payloadsAll, first, others, List.forall_mem_append]
      exact and_and_and_comm

end

mutual

theorem length_written : ∀ layout : Layout, layout.written.length = layout.lengths.length
  | .primitive .. | .payload _ | .refusal _ => by
      simp only [written, lengths, List.length_singleton]
  | .constructed tag parts => by
      rw [written, lengths, List.length_cons, List.length_cons, length_writtenAll parts]

theorem length_writtenAll : ∀ layouts : List Layout,
    (writtenAll layouts).length = (lengthsAll layouts).length
  | [] => rfl
  | part :: rest => by
      rw [writtenAll, lengthsAll, List.length_append, List.length_append, length_written part,
        length_writtenAll rest]

end

mutual

/-- The lengths of what is written are the claimed ones where payloads keep them. -/
theorem written_eq_lengths_iff : ∀ {layout : Layout}, layout.Permitted →
    (layout.written = layout.lengths ↔ layout.Sound)
  | .primitive tag content, _ => by simp [written, lengths, Sound]
  | .payload value, _ => by simp [written, lengths, Sound]
  | .refusal violation, permitted => by
      rw [Permitted] at permitted
      exact permitted.elim
  | .constructed tag parts, permitted => by
      rw [Permitted] at permitted
      have inner := writtenAll_eq_lengthsAll_iff permitted
      rw [written, lengths, Sound, List.cons.injEq, inner]
      exact ⟨And.right, fun sound => ⟨length_bytesAll sound, sound⟩⟩

theorem writtenAll_eq_lengthsAll_iff : ∀ {layouts : List Layout}, AllPermitted layouts →
    (writtenAll layouts = lengthsAll layouts ↔ AllSound layouts)
  | [], _ => by simp [writtenAll, lengthsAll, AllSound]
  | part :: rest, permitted => by
      rw [AllPermitted] at permitted
      have first := written_eq_lengths_iff permitted.1
      have others := writtenAll_eq_lengthsAll_iff permitted.2
      rw [writtenAll, lengthsAll, AllSound, ← first, ← others]
      constructor
      · exact fun same => List.append_inj same (length_written part)
      · rintro ⟨same, sameRest⟩
        rw [same, sameRest]

end

/-! ## The length pass -/

mutual

/-- **The length pass** succeeds where nothing is refused. -/
theorem measure_eq_ok_iff : ∀ {layout : Layout} {plan : Plan}, layout.measure = .ok plan ↔
    layout.Permitted ∧ plan = { lengths := layout.lengths, total := layout.size }
  | .primitive tag content, plan => by
      rw [measure, Permitted, lengths, size_primitive, true_and, Except.ok.injEq, eq_comm]
      rfl
  | .payload value, plan => by
      rw [measure, Permitted, lengths, size_payload, true_and, Except.ok.injEq, eq_comm]
      rfl
  | .refusal violation, plan => by
      rw [measure, Permitted, false_and, iff_false]
      simp
  | .constructed tag parts, plan => by
      have inner := @measureAll_eq_ok_iff parts
      rw [measure, Permitted, lengths, size_constructed]
      cases measured : measureAll parts with
      | error error =>
          refine iff_of_false (by rintro ⟨⟩) ?_
          rintro ⟨permitted, _⟩
          cases measured.symm.trans (inner.2 ⟨permitted, rfl⟩)
      | ok found =>
          obtain ⟨permitted, rfl⟩ := inner.1 measured
          constructor
          · rintro ⟨⟩
            exact ⟨permitted, rfl⟩
          · rintro ⟨_, rfl⟩
            rfl

theorem measureAll_eq_ok_iff : ∀ {layouts : List Layout} {plan : Plan},
    measureAll layouts = .ok plan ↔
      AllPermitted layouts ∧ plan = { lengths := lengthsAll layouts, total := sizeAll layouts }
  | [], plan => by
      rw [measureAll, AllPermitted, lengthsAll, sizeAll_nil, true_and, Except.ok.injEq, eq_comm]
  | part :: rest, plan => by
      have first := @measure_eq_ok_iff part
      have others := @measureAll_eq_ok_iff rest
      rw [measureAll, AllPermitted, lengthsAll, sizeAll_cons]
      cases measured : measure part with
      | error error =>
          refine iff_of_false (by rintro ⟨⟩) ?_
          rintro ⟨⟨permitted, _⟩, _⟩
          cases measured.symm.trans (first.2 ⟨permitted, rfl⟩)
      | ok found =>
          obtain ⟨permitted, rfl⟩ := first.1 measured
          cases measuredAll : measureAll rest with
          | error error =>
              refine iff_of_false (by rintro ⟨⟩) ?_
              rintro ⟨⟨_, allPermitted⟩, _⟩
              cases measuredAll.symm.trans (others.2 ⟨allPermitted, rfl⟩)
          | ok found =>
              obtain ⟨allPermitted, rfl⟩ := others.1 measuredAll
              constructor
              · rintro ⟨⟩
                exact ⟨⟨permitted, allPermitted⟩, rfl⟩
              · rintro ⟨_, rfl⟩
                rfl

end

mutual

/-- The length pass fails at a part that is refused. -/
theorem violation_of_measure : ∀ {layout : Layout} {error : CodecError},
    layout.measure = .error error → ∃ violation, error = .violation violation
  | .primitive .., error, failed => by
      rw [measure] at failed
      cases failed
  | .payload _, error, failed => by
      rw [measure] at failed
      cases failed
  | .refusal violation, error, failed => by
      rw [measure] at failed
      cases failed
      exact ⟨violation, rfl⟩
  | .constructed tag parts, error, failed => by
      rw [measure] at failed
      cases measured : measureAll parts with
      | error inner =>
          rw [measured] at failed
          cases failed
          exact violation_of_measureAll measured
      | ok plan =>
          rw [measured] at failed
          cases failed

theorem violation_of_measureAll : ∀ {layouts : List Layout} {error : CodecError},
    measureAll layouts = .error error → ∃ violation, error = .violation violation
  | [], error, failed => by
      rw [measureAll] at failed
      cases failed
  | part :: rest, error, failed => by
      rw [measureAll] at failed
      cases measured : measure part with
      | error inner =>
          rw [measured] at failed
          cases failed
          exact violation_of_measure measured
      | ok plan =>
          rw [measured] at failed
          cases measuredAll : measureAll rest with
          | error inner =>
              rw [measuredAll] at failed
              cases failed
              exact violation_of_measureAll measuredAll
          | ok plan =>
              rw [measuredAll] at failed
              cases failed

end

end Layout

end LdapWire
