import LdapWire.Proofs.Path.Run

/-!
# Where a path breaks off

`Breach` says that layouts lead along a path and then to an element on which an
action fails: on the content of a primitive element, or at the end of a constructed
one. A machine that is fed with the octets fails with the error of that action
(`Machine.run_breach`), and has not looked at what is behind the element.
-/

set_option autoImplicit false

namespace LdapWire

open Ber
open Grammar (Close State Transition)

/-- Layouts that lead from a state and a draft to an action that fails. -/
inductive Breach (registry : Registry) (error : CodecError) :
    List Layout → State → Draft → Prop where
  | primitive {tag : UInt8} {content : Bytes} {rest : List Layout} {state : State} {draft : Draft}
      {transition : Transition} (accepted : state.transition? tag = some transition)
      (plain : transition.close = none)
      (fails : ∀ tlv : Tlv, tlv.value = content →
        ∃ after, Draft.perform registry transition.action tlv draft = .error error after) :
      Breach registry error (.primitive tag content :: rest) state draft
  | inside {tag : UInt8} {parts rest : List Layout} {state : State} {draft opened : Draft}
      {transition : Transition} {close : Close}
      (accepted : state.transition? tag = some transition)
      (closing : transition.close = some close)
      (opens : ∀ tlv : Tlv, Draft.perform registry transition.action tlv draft = .ok () opened)
      (content : Breach registry error parts transition.next opened) :
      Breach registry error (.constructed tag parts :: rest) state draft
  | atEnd {tag : UInt8} {parts rest : List Layout} {state last : State}
      {draft opened inside : Draft} {transition : Transition} {close : Close}
      (accepted : state.transition? tag = some transition)
      (closing : transition.close = some close)
      (opens : ∀ tlv : Tlv, Draft.perform registry transition.action tlv draft = .ok () opened)
      (content : Path registry parts transition.next opened last inside)
      (canEnd : last.canEnd = true)
      (fails : ∀ tlv : Tlv,
        ∃ after, Draft.perform registry close.action tlv inside = .error error after) :
      Breach registry error (.constructed tag parts :: rest) state draft
  | behind {front back : List Layout} {state middle : State} {draft between : Draft}
      (path : Path registry front state draft middle between)
      (further : Breach registry error back middle between) :
      Breach registry error (front ++ back) state draft

namespace Machine

variable {decoder : Decoder} {error : CodecError} {frame : Frame} {outer : List Frame}
  {state : State} {draft : Draft}

/-- **A machine fails at a breach** when it is fed with the octets of its layouts. -/
theorem run_breach {layouts : List Layout}
    (breach : Breach decoder.registry error layouts state draft)
    (sound : Layout.AllSound layouts)
    (fits : Layout.sizeAll layouts ≤ frame.tlv.remaining)
    (short : Layout.sizeAll layouts < 256 ^ Length.maxOctets)
    (shallow : Layout.heightAll layouts + outer.length < decoder.limits.maxDepth) (rest : Bytes) :
    ∃ after, settle decoder (frame :: outer) (Layout.bytesAll layouts ++ rest)
      { frames := frame :: outer, state, draft } = .error error after := by
  induction breach generalizing frame outer rest with
  | @primitive tag content layouts _ _ _ accepted plain fails =>
      rw [Layout.sizeAll_cons, Layout.size_primitive] at fits short
      have inner := Plan.le_elementLength content.length
      obtain ⟨after, failed⟩ := fails ((Tlv.begun tag content.length).fill content)
        (Tlv.value_fill _ _)
      rw [Layout.bytesAll, Layout.bytes, List.append_assoc,
        settle_primitive rfl accepted plain (by omega) (by omega), failed]
      exact ⟨_, rfl⟩
  | @inside tag parts layouts _ _ _ _ close accepted closing opens _ further =>
      rw [Layout.AllSound, Layout.Sound] at sound
      rw [Layout.sizeAll_cons, Layout.size_constructed] at fits short
      rw [Layout.heightAll_cons, Layout.height_constructed] at shallow
      have inner := Plan.le_elementLength (Layout.sizeAll parts)
      have size := Layout.length_bytesAll sound.1
      have room : Layout.sizeAll parts
          ≤ (Frame.opened (.begun tag (Layout.sizeAll parts)) close).tlv.remaining := Nat.le_refl _
      rw [Layout.bytesAll, Layout.bytes, List.append_assoc,
        settle_constructed size accepted closing (by omega) (by omega) (by omega), opens]
      exact further sound.1 room (by omega) (by rw [List.length_cons]; omega) _
  | @atEnd tag parts layouts _ _ _ _ _ _ close accepted closing opens content canEnd fails =>
      rw [Layout.sizeAll_cons, Layout.size_constructed] at fits short
      rw [Layout.heightAll_cons, Layout.height_constructed] at shallow
      have inner := Plan.le_elementLength (Layout.sizeAll parts)
      have size := Layout.length_bytesAll content.sound
      have room : Layout.sizeAll parts
          ≤ (Frame.opened (.begun tag (Layout.sizeAll parts)) close).tlv.remaining := Nat.le_refl _
      have complete := Frame.isComplete_opened tag (Layout.sizeAll parts) close
      rw [Layout.bytesAll, Layout.bytes, List.append_assoc,
        settle_constructed size accepted closing (by omega) (by omega) (by omega), opens]
      dsimp only
      rw [run_path content room (by omega) (by rw [List.length_cons]; omega)]
      obtain ⟨after, failed⟩ := fails
        ((Frame.opened (.begun tag (Layout.sizeAll parts)) close).advance
          (Layout.sizeAll parts)).tlv
      exact ⟨_, settle_of_failed complete canEnd failed _⟩
  | @behind front back _ _ _ _ path _ further =>
      rw [Layout.sizeAll_append] at fits short
      rw [Layout.heightAll_append] at shallow
      rw [Layout.bytesAll_append, List.append_assoc,
        run_path path (by omega) (by omega) (by omega)]
      exact further (Layout.allSound_append.1 sound).2
        (by rw [Frame.remaining_advance]; omega) (by omega) (by omega) rest

/-- **A fresh machine** fails at a breach in the content of a sequence, where the
sequence keeps within the limits. -/
theorem run_sequence_of_breach {parts : List Layout}
    (breach : Breach decoder.registry error parts .messageId {})
    (sound : Layout.AllSound parts)
    (size : Plan.elementLength (Layout.sizeAll parts) ≤ decoder.limits.maxPduSize)
    (short : Layout.sizeAll parts < 256 ^ Length.maxOctets)
    (shallow : Layout.heightAll parts < decoder.limits.maxDepth) :
    ∃ after, run decoder (Layout.constructed Tag.sequence parts).bytes {} = .error error after := by
  rw [run_outermost sound size short (Nat.lt_of_le_of_lt (Nat.zero_le _) shallow)]
  exact run_breach breach sound (Nat.le_refl _) short (by rwa [List.length_nil, Nat.add_zero]) []

end Machine

end LdapWire
