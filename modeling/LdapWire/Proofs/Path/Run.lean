import LdapWire.Proofs.Path.Basic
import LdapWire.Proofs.Session.Elements
import LdapWire.Proofs.Session.Headers

/-!
# A machine on a path

A machine that is fed with the octets of a path takes the path, provided that the
elements fit into the innermost open one and are not nested too deep
(`Machine.run_path`). A whole message is the case of one sequence and of a
fresh machine (`Machine.run_sequence`).
-/

set_option autoImplicit false

namespace LdapWire

open Ber
open Grammar (Close State Transition)

/-! ## Headers -/

/-- An element of which the header has been read, in its shortest form. -/
def Ber.Tlv.begun (tag : UInt8) (length : Nat) : Tlv :=
  { tag, length, headerLength := 1 + Length.width length }

namespace Grammar.State

/-- No state accepts an identifier that continues in another octet. -/
theorem rules_single (state : State) :
    (state.rules.all fun rule => checkTag rule.tag matches .ok ()) = true := by
  cases state <;> first | rfl | (rename_i flavor; cases flavor <;> rfl)

theorem checkTag_of_transition? {state : State} {tag : UInt8} {transition : Transition}
    (accepted : state.transition? tag = some transition) : checkTag tag = .ok () := by
  obtain ⟨rule, listed, rfl, _⟩ := exists_rule_of_transition? accepted
  have single := List.all_eq_true.1 state.rules_single rule listed
  cases checked : checkTag rule.tag with
  | ok => rfl
  | error error =>
      rw [checked] at single
      cases single

end Grammar.State

namespace Machine

variable {decoder : Decoder} {machine : Machine}

/-- The header of an element in its shortest form. -/
theorem run_header {tag : UInt8} (single : checkTag tag = .ok ()) {length : Nat}
    (fits : length < 256 ^ Length.maxOctets) (idle : machine.current = none)
    (fresh : machine.header = {}) (rest : Bytes) :
    run decoder (tag :: (Length.bytes length ++ rest)) machine
      = (do let message ← beginElement decoder (.begun tag length)
            resume decoder (message, rest)) machine := by
  obtain ⟨header, current, frames, state, draft⟩ := machine
  cases idle
  cases fresh
  have read : Reader.header (tag :: (Length.bytes length ++ rest)) = .ok (tag, length) rest := by
    rw [Reader.header_of_single single, Step.bind_of_ok _ (Reader.length_append fits rest)]
    rfl
  have size : (tag :: (Length.bytes length ++ rest)).length - rest.length
      = 1 + Length.width length := by
    rw [List.length_cons, List.length_append, Length.length_bytes]
    omega
  have taken := Header.header_eq_ok_iff.1 read
  rw [size] at taken
  rw [run_eq_take rfl, taken]
  rfl

end Machine

/-! ## Elements -/

/-- A constructed element is complete when it has been charged with its parts. -/
theorem Frame.isComplete_opened (tag : UInt8) (length : Nat) (close : Close) :
    ((Frame.opened (.begun tag length) close).advance length).tlv.isComplete = true := by
  simp [Frame.opened, Frame.advance, Tlv.advance, Tlv.begun, Tlv.isComplete_iff]

namespace Machine

variable {decoder : Decoder} {frame : Frame} {outer : List Frame} {state : State} {draft : Draft}

theorem charge_begun {length : Nat} (fits : Plan.elementLength length ≤ frame.tlv.remaining)
    (tag : UInt8) (limits : Limits) :
    charge limits (.begun tag length) { frames := frame :: outer, state, draft }
      = .ok () { frames := frame.advance (Plan.elementLength length) :: outer, state, draft } := by
  have total : (Tlv.begun tag length).total = Plan.elementLength length := rfl
  rw [charge_of_le (total ▸ fits), total]

/-- An element on the way, from its first octet to the octets of its content. -/
theorem settle_element {tag : UInt8} (single : checkTag tag = .ok ()) {length : Nat}
    (fits : Plan.elementLength length ≤ frame.tlv.remaining)
    (short : length < 256 ^ Length.maxOctets) (rest : Bytes) :
    settle decoder (frame :: outer) (tag :: (Length.bytes length ++ rest))
        { frames := frame :: outer, state, draft }
      = (do let message ← beginElement decoder (.begun tag length)
            resume decoder (message, rest)) { frames := frame :: outer, state, draft } := by
  have lacking : 0 < frame.tlv.remaining :=
    Nat.lt_of_lt_of_le (Plan.elementLength_pos length) fits
  rw [settle_of_lacking lacking, run_header single short rfl rfl]

/-- A primitive element on the way. -/
theorem settle_primitive {tag : UInt8} {content : Bytes} {length : Nat}
    (size : content.length = length) {transition : Transition}
    (accepted : state.transition? tag = some transition) (plain : transition.close = none)
    (fits : Plan.elementLength length ≤ frame.tlv.remaining)
    (short : length < 256 ^ Length.maxOctets) (rest : Bytes) :
    settle decoder (frame :: outer) (elementBytes tag content ++ rest)
        { frames := frame :: outer, state, draft } =
      match Draft.perform decoder.registry transition.action ((Tlv.begun tag length).fill content)
          draft with
      | .ok () after =>
          settle decoder (frame.advance (Plan.elementLength length) :: outer) rest
            { frames := frame.advance (Plan.elementLength length) :: outer,
              state := transition.next, draft := after }
      | .error error after =>
          .error error
            { frames := frame.advance (Plan.elementLength length) :: outer, state,
              draft := after } := by
  rw [elementBytes, size, List.cons_append, List.append_assoc,
    settle_element (State.checkTag_of_transition? accepted) fits short]
  exact beginElement_primitive rfl size (charge_begun fits tag decoder.limits) accepted plain rest

/-- A constructed element on the way. -/
theorem settle_constructed {tag : UInt8} {content : Bytes} {length : Nat}
    (size : content.length = length) {transition : Transition} {close : Close}
    (accepted : state.transition? tag = some transition)
    (closing : transition.close = some close)
    (fits : Plan.elementLength length ≤ frame.tlv.remaining)
    (short : length < 256 ^ Length.maxOctets)
    (shallow : outer.length + 1 < decoder.limits.maxDepth) (rest : Bytes) :
    settle decoder (frame :: outer) (elementBytes tag content ++ rest)
        { frames := frame :: outer, state, draft } =
      match Draft.perform decoder.registry transition.action (.begun tag length) draft with
      | .ok () opened =>
          settle decoder
            (.opened (.begun tag length) close
              :: frame.advance (Plan.elementLength length) :: outer)
            (content ++ rest)
            { frames := .opened (.begun tag length) close
                :: frame.advance (Plan.elementLength length) :: outer,
              state := transition.next, draft := opened }
      | .error error after =>
          .error error
            { frames := frame.advance (Plan.elementLength length) :: outer, state,
              draft := after } := by
  rw [elementBytes, size, List.cons_append, List.append_assoc,
    settle_element (State.checkTag_of_transition? accepted) fits short]
  exact beginElement_constructed (charge_begun fits tag decoder.limits) accepted closing shallow _

/-- **A machine takes a path** when it is fed with the octets of its layouts. -/
theorem run_path {layouts : List Layout} {final : State} {after : Draft}
    (path : Path decoder.registry layouts state draft final after)
    (fits : Layout.sizeAll layouts ≤ frame.tlv.remaining)
    (short : Layout.sizeAll layouts < 256 ^ Length.maxOctets)
    (shallow : Layout.heightAll layouts + outer.length < decoder.limits.maxDepth) (rest : Bytes) :
    settle decoder (frame :: outer) (Layout.bytesAll layouts ++ rest)
        { frames := frame :: outer, state, draft }
      = settle decoder (frame.advance (Layout.sizeAll layouts) :: outer) rest
          { frames := frame.advance (Layout.sizeAll layouts) :: outer, state := final,
            draft := after } := by
  induction path generalizing frame outer rest with
  | done =>
      rw [Layout.bytesAll, Layout.sizeAll_nil, Frame.advance_zero]
      rfl
  | @primitive tag content layouts _ _ _ _ _ _ accepted plain acts _ further =>
      rw [Layout.sizeAll_cons, Layout.size_primitive] at fits short ⊢
      rw [Layout.heightAll_cons, Layout.height_primitive, Nat.zero_max] at shallow
      have inner := Plan.le_elementLength content.length
      have performed := acts ((Tlv.begun tag content.length).fill content)
        (Tlv.value_fill _ _) rfl
      rw [Layout.bytesAll, Layout.bytes, List.append_assoc,
        settle_primitive rfl accepted plain (by omega) (by omega), performed]
      exact (further (by rw [Frame.remaining_advance]; omega) (by omega) shallow rest).trans
        (by rw [Frame.advance_advance])
  | @payload value layouts _ _ _ _ _ _ honest accepted plain acts _ further =>
      rw [Layout.sizeAll_cons, Layout.size_payload] at fits short ⊢
      rw [Layout.heightAll_cons, Layout.height_payload, Nat.zero_max] at shallow
      have inner := Plan.le_elementLength value.encodedLength
      have performed := acts ((Tlv.begun Tag.octetString value.encodedLength).fill value.bytes)
        (Tlv.value_fill _ _) honest.symm
      rw [Layout.bytesAll, Layout.bytes, List.append_assoc,
        settle_primitive honest accepted plain (by omega) (by omega), performed]
      exact (further (by rw [Frame.remaining_advance]; omega) (by omega) shallow rest).trans
        (by rw [Frame.advance_advance])
  | @constructed tag parts layouts _ _ _ _ _ _ _ _ _ close accepted closing opens content canEnd
      ends _ inside further =>
      rw [Layout.sizeAll_cons, Layout.size_constructed] at fits short ⊢
      rw [Layout.heightAll_cons, Layout.height_constructed] at shallow
      have inner := Plan.le_elementLength (Layout.sizeAll parts)
      have size := Layout.length_bytesAll content.sound
      have room : Layout.sizeAll parts
          ≤ (Frame.opened (.begun tag (Layout.sizeAll parts)) close).tlv.remaining := Nat.le_refl _
      have complete := Frame.isComplete_opened tag (Layout.sizeAll parts) close
      rw [Layout.bytesAll, Layout.bytes, List.append_assoc,
        settle_constructed size accepted closing (by omega) (by omega) (by omega),
        opens (.begun tag (Layout.sizeAll parts)) rfl]
      dsimp only
      rw [inside room (by omega) (by rw [List.length_cons]; omega),
        settle_of_ended complete canEnd (ends _)]
      exact (further (by rw [Frame.remaining_advance]; omega) (by omega) (by omega) rest).trans
        (by rw [Frame.advance_advance])

/-- A fresh machine that is fed with a sequence reads its content. -/
theorem run_outermost {parts : List Layout} (sound : Layout.AllSound parts)
    (size : Plan.elementLength (Layout.sizeAll parts) ≤ decoder.limits.maxPduSize)
    (short : Layout.sizeAll parts < 256 ^ Length.maxOctets)
    (shallow : 0 < decoder.limits.maxDepth) :
    run decoder (Layout.constructed Tag.sequence parts).bytes {}
      = settle decoder
          [.opened (.begun Tag.sequence (Layout.sizeAll parts))
            { action := none, resume := .start }]
          (Layout.bytesAll parts ++ [])
          { frames := [.opened (.begun Tag.sequence (Layout.sizeAll parts))
              { action := none, resume := .start }],
            state := .messageId } := by
  have spelled : (Layout.constructed Tag.sequence parts).bytes
      = Tag.sequence :: (Length.bytes (Layout.sizeAll parts) ++ (Layout.bytesAll parts ++ [])) := by
    rw [Layout.bytes, elementBytes, Layout.length_bytesAll sound, List.append_nil]
  have accepted : State.start.transition? Tag.sequence
      = some (Grammar.Rule.wrapper Tag.sequence .messageId .start).transition := rfl
  have charges : charge decoder.limits (.begun Tag.sequence (Layout.sizeAll parts)) {}
      = .ok () {} := charge_outermost size
  rw [spelled, run_header (State.checkTag_of_transition? accepted) short rfl rfl,
    beginElement_constructed charges accepted rfl shallow]
  rfl

/-- **A fresh machine** returns the message to which the content of a sequence leads,
where the sequence keeps within the limits. -/
theorem run_sequence {parts : List Layout} {final : State} {after : Draft} {message : Message}
    (path : Path decoder.registry parts .messageId {} final after) (canEnd : final.canEnd = true)
    (made : after.toMessage = .ok message)
    (size : Plan.elementLength (Layout.sizeAll parts) ≤ decoder.limits.maxPduSize)
    (short : Layout.sizeAll parts < 256 ^ Length.maxOctets)
    (shallow : Layout.heightAll parts < decoder.limits.maxDepth) :
    run decoder (Layout.constructed Tag.sequence parts).bytes {} = .ok (some message, []) {} := by
  have complete := Frame.isComplete_opened Tag.sequence (Layout.sizeAll parts)
    { action := none, resume := .start }
  rw [run_outermost path.sound size short (Nat.lt_of_le_of_lt (Nat.zero_le _) shallow),
    run_path path (Nat.le_refl _) short (by rwa [List.length_nil, Nat.add_zero]),
    settle_of_ended complete canEnd rfl]
  exact leave_outermost made []

end Machine

end LdapWire
