import LdapWire.Proofs.Path.Breach
import LdapWire.Proofs.RoundTrip

/-!
# What the encoder overlooks

The encoder means to refuse every message that the decoder would reject. Of two rules
it takes no notice: the code of a result must not be negative, and neither must the
size of a page (`Message.wellFormed_iff`). A session that is fed with the encoding of a
message fails with the first breach of these rules, and returns the message if there
is none (`Message.feed_encoded`).
-/

set_option autoImplicit false

namespace LdapWire

open Ber
open Grammar (Flavor State)

/-! ## Controls that agree with the registry -/

/-- Whether a payload has one of the shapes that the built-in registry reads. -/
def Payload.IsBuiltin : Payload → Prop
  | .paged _ | .sync _ => True
  | .custom .. => False

/-- Whether a control has a value of the kind that the built-in registry would make for
its OID. What is in the value does not matter. -/
structure Control.Agrees (control : Control) : Prop where
  known : Registry.builtin.isRegistered control.oid = true →
    control.value = .absent ∨ ∃ payload, control.value = .decoded payload
      ∧ payload.IsBuiltin ∧ payload.oid = control.oid
  unknown : Registry.builtin.isRegistered control.oid = false →
    control.critical = false ∧ ∀ payload, control.value ≠ .decoded payload

/-! ## Rules that the encoder overlooks -/

/-- What the decoder alone finds wrong with a result. -/
def LdapResult.overlooked? (result : LdapResult) : Option Violation :=
  if result.code < 0 then some (.invalid "result code" result.code.toInt) else none

/-- What the decoder alone finds wrong with a control. -/
def Control.overlooked? (control : Control) : Option Violation :=
  match control.value with
  | .decoded (.paged paged) =>
      if paged.size < 0 then some (.negative "page size" paged.size.toInt) else none
  | _ => none

/-- What the decoder alone finds wrong with a message, and finds first. -/
def Message.overlooked? (message : Message) : Option Violation :=
  (message.operation.result?.bind LdapResult.overlooked?).or
    (message.controls.findSome? Control.overlooked?)

theorem LdapResult.overlooked?_eq_none_iff {result : LdapResult} :
    result.overlooked? = none ↔ 0 ≤ result.code := by
  unfold overlooked?
  rw [← Int32.not_lt]
  split <;> simp [*]

theorem LdapResult.overlooked?_eq_some_iff {result : LdapResult} {violation : Violation} :
    result.overlooked? = some violation ↔
      result.code < 0 ∧ violation = .invalid "result code" result.code.toInt := by
  unfold overlooked?
  split <;> simp [*, eq_comm]

theorem Control.overlooked?_eq_some_iff {control : Control} {violation : Violation} :
    control.overlooked? = some violation ↔
      ∃ paged : PagedResults, control.value = .decoded (.paged paged) ∧ paged.size < 0
        ∧ violation = .negative "page size" paged.size.toInt := by
  unfold overlooked?
  split
  · rename_i paged carried
    rw [carried]
    split <;> simp [*, eq_comm]
  · rename_i other
    refine iff_of_false (by simp) ?_
    rintro ⟨paged, carried, _⟩
    exact other paged carried

theorem Operation.wellFormed_iff_overlooked? {operation : Operation} :
    operation.WellFormed ↔
      operation.layout.Permitted ∧ operation.result?.bind LdapResult.overlooked? = none := by
  simp only [wellFormed_iff, Option.bind_eq_none_iff, LdapResult.overlooked?_eq_none_iff]

theorem Control.wellFormed_iff {control : Control} (agrees : control.Agrees) :
    control.WellFormed ↔ control.layout.Permitted ∧ control.overlooked? = none := by
  constructor
  · intro valid
    refine ⟨permitted_layout_iff.2 ⟨valid.oid, mismatch?_eq_none valid⟩, ?_⟩
    apply Option.eq_none_iff_forall_ne_some.2
    intro violation overlooked
    obtain ⟨paged, carried, negative, _⟩ := overlooked?_eq_some_iff.1 overlooked
    have sendable := valid.value
    rw [carried] at sendable
    exact Int32.not_le.2 negative sendable.2
  · rintro ⟨permitted, unnoticed⟩
    refine ⟨(permitted_layout_iff.1 permitted).1, ?_⟩
    cases registered : Registry.builtin.isRegistered control.oid with
    | false =>
        obtain ⟨tolerable, undecoded⟩ := agrees.unknown registered
        cases carried : control.value with
        | absent =>
            intro critical
            cases tolerable.symm.trans critical
        | raw content => exact ⟨tolerable, registered⟩
        | decoded payload => exact absurd carried (undecoded payload)
    | true =>
        rcases agrees.known registered with absent | ⟨payload, carried, builtin, own⟩
        · rw [absent]
          intro _
          exact registered
        · rw [carried]
          cases payload with
          | custom => exact builtin.elim
          | sync request => exact own.symm
          | paged paged =>
              refine ⟨own.symm, Int32.not_lt.1 fun negative => ?_⟩
              cases unnoticed.symm.trans
                (overlooked?_eq_some_iff.2 ⟨paged, carried, negative, rfl⟩)

/-- **The encoder and the decoder agree** on all rules but the two that the encoder
overlooks. -/
theorem Message.wellFormed_iff {message : Message}
    (agrees : ∀ control ∈ message.controls, control.Agrees) :
    message.WellFormed ↔ message.layout.Permitted ∧ message.overlooked? = none := by
  rw [permitted_layout_iff, overlooked?, Option.or_eq_none_iff, List.findSome?_eq_none_iff]
  constructor
  · intro valid
    obtain ⟨operation, result⟩ := Operation.wellFormed_iff_overlooked?.1 valid.operation
    have controls := fun control listed =>
      (Control.wellFormed_iff (agrees control listed)).1 (valid.controls control listed)
    exact ⟨⟨operation, fun control listed => (controls control listed).1⟩, result,
      fun control listed => (controls control listed).2⟩
  · rintro ⟨⟨operation, controls⟩, result, unnoticed⟩
    refine ⟨Operation.wellFormed_iff_overlooked?.2 ⟨operation, result⟩, ?_⟩
    intro control listed
    exact (Control.wellFormed_iff (agrees control listed)).2
      ⟨controls control listed, unnoticed control listed⟩

/-! ## Where the decoder stops -/

/-- A negative code is the first thing that the decoder reads of a result. -/
theorem LdapResult.breach {registry : Registry} {flavor : Flavor} {result : LdapResult}
    {violation : Violation} (overlooked : result.overlooked? = some violation)
    (rest : List Layout) (draft : Draft) :
    Breach registry (.violation violation) (result.layouts ++ rest) (.resultCode flavor) draft := by
  obtain ⟨negative, rfl⟩ := overlooked?_eq_some_iff.1 overlooked
  refine .primitive rfl rfl (fun tlv spelled => ⟨draft, ?_⟩)
  have refused := Draft.resultCode_bytes result.code
  rw [if_pos negative, ← spelled] at refused
  simp only [Draft.perform, Draft.act, refused]
  rfl

theorem Operation.breach {registry : Registry} {operation : Operation} {violation : Violation}
    (overlooked : operation.result?.bind LdapResult.overlooked? = some violation)
    (rest : List Layout) {id : Int32} :
    Breach registry (.violation violation) (operation.layout :: rest) .protocolOp
      { id := some id } := by
  obtain ⟨result, carried, overlooked⟩ := Option.bind_eq_some_iff.1 overlooked
  cases operation <;> cases carried
  case bindResponse response =>
    exact .inside rfl rfl (fun _ => rfl) (LdapResult.breach overlooked _ _)
  case extendedResponse response =>
    refine .inside rfl rfl (fun _ => rfl) ?_
    rw [parts, ExtendedResponse.layouts, List.append_assoc]
    exact LdapResult.breach overlooked _ _
  case plain response =>
    have found : State.protocolOp.transition? (OperationKind.plain response).tag
        = some (Grammar.Rule.plainResponse response).transition := by
      cases response <;> rfl
    refine .inside found rfl (fun _ => rfl) ?_
    rw [parts, ← List.append_nil result.layouts]
    exact LdapResult.breach overlooked _ _

/-- The size of a page is looked at when its control ends. -/
theorem Control.breach {control : Control} {violation : Violation}
    (overlooked : control.overlooked? = some violation) (permitted : control.layout.Permitted)
    (short : control.Short) (rest : List Layout) (draft : Draft) :
    Breach .builtin (.violation violation) (control.layout :: rest) .controlsStart draft := by
  obtain ⟨paged, carried, negative, rfl⟩ := overlooked?_eq_some_iff.1 overlooked
  obtain ⟨nonempty, matching⟩ := permitted_layout_iff.1 permitted
  have own : PagedResults.oid = control.oid := by
    by_contra foreign
    simp [mismatch?, carried, Payload.oid, foreign] at matching
  have refused : Registry.builtin.readControl control.oid control.critical control.value.sent
      = .error (.violation (.negative "page size" paged.size.toInt)) := by
    have inside : paged.contentLength < 256 ^ Length.maxOctets :=
      Nat.lt_of_le_of_lt (Nat.le_add_left _ _) (short _ carried)
    have parsed := PagedResults.parse_bytes inside
    rw [if_pos negative] at parsed
    rw [← own, carried]
    simp only [Registry.readControl, ControlValue.sent, Registry.reader?_builtin_paged,
      Payload.readPaged, Payload.bytes, parsed]
    rfl
  have honest : ∀ payload, control.value = .decoded payload →
      payload.bytes.length = payload.encodedLength := by
    intro payload decoded
    cases carried.symm.trans decoded
    exact paged.length_bytes
  obtain ⟨last, complete, fields⟩ := @path_fields .builtin draft control nonempty honest
  rw [layout_eq nonempty matching]
  apply Breach.atEnd rfl rfl (fun _ => rfl) fields complete
  intro tlv
  refine ⟨{ draft with openControl := none }, ?_⟩
  simp only [Draft.perform, Draft.act, Draft.finishControl, refused]

/-- What the encoder overlooks in a message is a breach of the grammar, with only sound
elements before it. The controls before the first bad one are well formed, so the decoder gets
past them. -/
theorem Message.breach {message : Message} {violation : Violation}
    (overlooked : message.overlooked? = some violation)
    (agrees : ∀ control ∈ message.controls, control.Agrees)
    (permitted : message.layout.Permitted)
    (short : ∀ control ∈ message.controls, control.Short) :
    Breach .builtin (.violation violation)
      (headLayouts message.id message.operation ++ Control.layoutAll message.controls)
      .messageId {} := by
  obtain ⟨id, operation, controls⟩ := message
  obtain ⟨allowed, sendable⟩ := permitted_layout_iff.1 permitted
  rcases Option.or_eq_some_iff.1 overlooked with inResult | ⟨fine, inControls⟩
  · have identified : Path .builtin [Layout.integer Tag.integer id.toInt] .messageId {} .protocolOp
        { id := some id } :=
      .field Content.integer trivial (fun _ => rfl) rfl rfl .done
    have whole := Breach.behind identified
      (Operation.breach inResult (Control.layoutAll controls))
    exact whole
  · have operates : operation.WellFormed :=
      Operation.wellFormed_iff_overlooked?.2 ⟨allowed, fine⟩
    obtain ⟨front, control, back, rfl, bad, unnoticed⟩ := List.findSome?_eq_some_iff.1 inControls
    refine .behind (.field Content.integer trivial (fun _ => rfl) rfl rfl
      (Operation.path operates)) ?_
    have present : ¬ (front ++ control :: back).isEmpty = true := by simp
    rw [Control.layoutAll, if_neg present, List.map_append, List.map_cons]
    have before : ∀ other ∈ front, other.WellFormed := by
      intro other listed
      have among := List.mem_append_left (control :: back) listed
      exact (Control.wellFormed_iff (agrees other among)).2
        ⟨sendable other among, unnoticed other listed⟩
    have here : control ∈ front ++ control :: back := by simp
    refine .inside rfl rfl (fun _ => rfl) (.behind (Control.path_all ?_ ?_) ?_)
    · exact fun other listed => Control.sound (before other listed)
    · intro other listed
      exact Registry.readControl_sent (before other listed)
        (short other (List.mem_append_left _ listed))
    · exact Control.breach bad (sendable control here) (short control here) _ _

/-- A fresh machine does not get past the rule that was overlooked. -/
theorem Message.run_overlooked {message : Message} {limits : Limits} {violation : Violation}
    (overlooked : message.overlooked? = some violation)
    (agrees : ∀ control ∈ message.controls, control.Agrees) (sound : message.layout.Sound)
    (within : message.Within limits) :
    ∃ after, Machine.run { limits } message.layout.bytes {}
      = .error (.violation violation) after := by
  obtain ⟨permitted, _⟩ := Layout.sound_iff.1 sound
  have reached := breach overlooked agrees permitted
    (short_of_contentSize permitted within.content)
  have size := within.size
  have depth := within.depth
  rw [layout, Layout.size_constructed] at size
  rw [layout, Layout.height_constructed] at depth
  rw [layout, Layout.Sound] at sound
  exact Machine.run_sequence_of_breach reached sound size within.content depth

/-! ## Encoding and feeding -/

/-- **What becomes of an encoded message**: a session that is fed with the octets fails
with the rule that the encoder overlooked, and returns the message if there is none. -/
theorem Message.feed_encoded {message : Message} {octets : Bytes} {limits : Limits}
    (agrees : ∀ control ∈ message.controls, control.Agrees)
    (encoded : message.encode = .ok octets) (within : message.Within limits) :
    (message.overlooked? = none → Session.Accepts { limits } octets message)
    ∧ ∀ violation, message.overlooked? = some violation →
        ∃ after, Session.feed { limits } octets {} = .error (.violation violation) after := by
  obtain ⟨sound, rfl⟩ := encode_eq_ok_iff.1 encoded
  obtain ⟨permitted, _⟩ := Layout.sound_iff.1 sound
  constructor
  · intro fine
    have valid := (wellFormed_iff agrees).2 ⟨permitted, fine⟩
    exact Session.accepts_of_run (run_bytes valid within)
  · intro violation overlooked
    obtain ⟨machine, failed⟩ := run_overlooked overlooked agrees sound within
    rw [Session.feed_fresh, failed]
    exact ⟨_, rfl⟩

/-- An unbind request that asks for a page of negative size. -/
def Message.negativePage : Message where
  id := 1
  operation := .unbindRequest
  controls := [.ofPayload false (.paged { size := -1 })]

/-- The request is sent, and not received. -/
theorem Message.feed_encoded_negativePage :
    ∃ octets after, negativePage.encode = .ok octets
      ∧ Session.feed {} octets {} = .error (.violation (.negative "page size" (-1))) after := by
  have agrees : ∀ control ∈ negativePage.controls, control.Agrees := by
    intro control listed
    obtain rfl := List.mem_singleton.1 listed
    exact ⟨fun _ => .inr ⟨_, rfl, trivial, rfl⟩, fun unregistered => by cases unregistered⟩
  have encoded : negativePage.encode = .ok negativePage.layout.bytes := by
    decide +kernel
  have within : negativePage.Within {} := ⟨by decide +kernel, by decide +kernel, by decide +kernel⟩
  obtain ⟨_, refused⟩ := feed_encoded agrees encoded within
  obtain ⟨after, failed⟩ := refused (.negative "page size" (-1)) (by decide)
  exact ⟨_, after, encoded, failed⟩

/-- The octets of a response to a delete request with the result code -1. -/
def Session.negativeCode : Bytes :=
  [0x30, 0x0C, 0x02, 0x01, 0x01, 0x6B, 0x07, 0x0A, 0x01, 0xFF, 0x04, 0x00, 0x04, 0x00]

/-- **The encoder does not refuse whatever the decoder rejects**: a response with a
negative code is sent, and not received. -/
theorem Message.not_forall_received :
    ¬ ∀ (message : Message) (octets : Bytes) (limits : Limits),
        (∀ control ∈ message.controls, control.Agrees) → message.encode = .ok octets →
        octets.length < 2 ^ 32 → message.Within limits →
        ∃ returned after, Session.feed { limits } octets {} = .ok (some returned) after := by
  intro refuses
  obtain ⟨returned, after, fed⟩ := refuses { id := 1, operation := .plain .del { code := -1 } }
    Session.negativeCode {} (by simp) (by decide +kernel) (by decide)
    ⟨by decide +kernel, by decide +kernel, by decide +kernel⟩
  have failed : (match Session.feed {} Session.negativeCode {} with
      | .ok _ _ => false
      | .error error _ => error == .violation (.invalid "result code" (-1))) = true := by
    rw [Session.feed_fresh]
    decide +kernel
  rw [fed] at failed
  cases failed

end LdapWire
