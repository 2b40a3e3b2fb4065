import LdapWire.Proofs.Ber.Header
import LdapWire.Proofs.Reading.Message
import LdapWire.Proofs.Session.Elements

/-!
# The stack of a machine

`Tracks` ties the stack of a machine to the open elements of a situation. Every
frame has been charged with the elements begun in it, so its counter tells how
many octets the parts read in it have taken, and they take no more when the
encoder writes them.

`Machine.Consistent` says that a machine is in some situation after a number of
octets of a message. Ending elements keeps it, or delivers a message
(`closeFrames_meets`).
-/

set_option autoImplicit false

namespace LdapWire

open Ber (Header Tlv)
open Grammar (Action Close Rule State Transition)

/-! ## Frames and open elements -/

/-- What happens at the end of the element of a frame. -/
def Frame.close (frame : Frame) : Close := { action := frame.atEnd, resume := frame.resume }

/-- Whether some rule of the grammar has an element end so. -/
def Grammar.Close.Listed (close : Close) : Prop :=
  ∃ state : State, ∃ rule ∈ state.rules, rule.transition.close = some close

/-- Whether a frame with `depth` others below it belongs to an open element, the
parts of which have taken `taken` octets. -/
structure Frame.Holds (decoder : Decoder) (frame : Frame) (element : OpenElement)
    (depth taken : Nat) : Prop where
  close : frame.close = element.close
  listed : frame.close.Listed
  announced : frame.tlv.Announced
  bounded : frame.tlv.consumed ≤ frame.tlv.length
  size : decoder.registry.Compact → Layout.sizeAll element.parts ≤ taken
  height : Layout.heightAll element.parts + depth < decoder.limits.maxDepth
  connective : element.close.action = some .closeConnective → frame.tlv.length ≠ 0
  visible : element.close.action = some .closeConnective → element.parts = [] → taken = 0

/-- Whether the frames belong to the open elements after `octets` octets of a
message, of which the element under way has `read`. It has been charged to the
innermost frame with `charged` octets. -/
inductive Tracks (decoder : Decoder) (octets : Nat) :
    (charged read : Nat) → List Frame → List OpenElement → Prop where
  | outermost {charged : Nat} (fits : charged ≤ decoder.limits.maxPduSize) :
      Tracks decoder octets charged octets [] []
  | inside {charged read taken : Nat} {frame : Frame} {element : OpenElement}
      {frames : List Frame} {elements : List OpenElement}
      (holds : frame.Holds decoder element frames.length taken)
      (consumed : frame.tlv.consumed = taken + charged)
      (outer : Tracks decoder octets frame.tlv.total (frame.tlv.headerLength + taken + read)
        frames elements) :
      Tracks decoder octets charged read (frame :: frames) (element :: elements)

namespace Tracks

variable {decoder : Decoder} {octets charged read : Nat} {frame : Frame} {frames : List Frame}
  {element : OpenElement} {elements : List OpenElement}

/-- An element that has just been opened holds nothing yet. -/
theorem opened {tlv : Tlv}
    (tracks : Tracks decoder octets tlv.total tlv.headerLength frames elements)
    (announced : tlv.Announced) (fresh : tlv.consumed = 0)
    (room : frames.length < decoder.limits.maxDepth) {close : Close} (listed : close.Listed)
    (connective : close.action = some .closeConnective → tlv.length ≠ 0) :
    Tracks decoder octets 0 0 ({ tlv, resume := close.resume, atEnd := close.action } :: frames)
      ({ close } :: elements) := by
  have holds : Frame.Holds decoder { tlv, resume := close.resume, atEnd := close.action }
      { close } frames.length 0 :=
    { close := rfl
      listed
      announced
      bounded := fresh ▸ Nat.zero_le _
      size := fun _ => Nat.le_of_eq Layout.sizeAll_nil
      height := by rwa [Layout.heightAll_nil, Nat.zero_add]
      connective
      visible := fun _ _ => rfl }
  exact .inside holds fresh tracks

/-- An element that is complete becomes a part of the one around it. -/
theorem add {total content height : Nat} {further : List Layout}
    (tracks : Tracks decoder octets total total (frame :: frames) elements)
    (adds : Layout.Adds decoder.registry elements further content height)
    (shorter : decoder.registry.Compact → Plan.elementLength content ≤ total)
    (shallow : height + frames.length < decoder.limits.maxDepth) :
    Tracks decoder octets 0 0 (frame :: frames) (OpenElement.add further elements) := by
  cases tracks with
  | @inside _ _ taken _ element _ elements holds consumed outer =>
      have grown : frame.Holds decoder { element with parts := element.parts ++ further }
          frames.length (taken + total) :=
        { close := holds.close
          listed := holds.listed
          announced := holds.announced
          bounded := holds.bounded
          size := fun compact => by
            have before := holds.size compact
            have added := adds.size compact
            have charged := shorter compact
            rw [Layout.sizeAll_append]
            omega
          height := by
            have before := holds.height
            have added := adds.height
            rw [Layout.heightAll_append]
            omega
          connective := holds.connective
          visible := fun connective empty =>
            absurd (List.append_eq_nil_iff.1 empty).2 (adds.visible ⟨element, rfl, connective⟩) }
      exact .inside grown consumed (by rwa [Nat.add_zero, ← Nat.add_assoc])

theorem length_eq (tracks : Tracks decoder octets charged read frames elements) :
    frames.length = elements.length := by
  induction tracks with
  | outermost => rfl
  | inside _ _ _ same => rw [List.length_cons, List.length_cons, same]

end Tracks

/-! ## Consistent machines -/

/-- A message that a decoder has made of a number of octets. -/
structure Message.Delivered (decoder : Decoder) (message : Message) (octets : Nat) : Prop where
  operation : message.operation.WellFormed
  controls : ∀ control ∈ message.controls, control.Received decoder.registry
  fits : octets ≤ decoder.limits.maxPduSize
  size : decoder.registry.Compact → message.layout.size ≤ octets
  content : decoder.registry.Compact → message.layout.contentSize < 256 ^ Ber.Length.maxOctets
  height : message.layout.height ≤ decoder.limits.maxDepth

namespace Machine

/-- A primitive element under way that the state of a machine accepts. -/
structure Takes (machine : Machine) (pending : Pending) : Prop where
  current : machine.current = some pending
  header : machine.header = {}
  announced : pending.tlv.Announced
  accepted : ∃ rule ∈ machine.state.rules, rule.transition = pending.transition
  primitive : pending.transition.close = none
  lacking : pending.tlv.consumed < pending.tlv.length
  kept : pending.tlv.received.length = pending.tlv.consumed

/-- How many octets the element under way has been charged with, and how many of
them have been read. -/
inductive UnderWay (machine : Machine) : (charged read : Nat) → Prop where
  | header (idle : machine.current = none) (sound : machine.header.Sound) :
      UnderWay machine 0 machine.header.bytesRead
  | content {pending : Pending} (takes : machine.Takes pending) :
      UnderWay machine pending.tlv.total (pending.tlv.headerLength + pending.tlv.consumed)

/-- Whether a machine is in one of the situations after some octets of a message. -/
def Consistent (decoder : Decoder) (machine : Machine) (octets : Nat) : Prop :=
  ∃ elements charged read,
    Reading decoder.registry machine.state machine.draft elements
      ∧ Tracks decoder octets charged read machine.frames elements
      ∧ machine.UnderWay charged read

theorem consistent_fresh (decoder : Decoder) : Consistent decoder {} 0 :=
  ⟨[], 0, 0, .start, .outermost (Nat.zero_le _), .header rfl Header.sound_idle⟩

/-- What reading leads to: a consistent machine, or a message and a machine that
starts again. -/
def Outcome (decoder : Decoder) (octets : Nat) (after : Machine) : Option Message → Prop
  | none => after.Consistent decoder octets
  | some message => after = {} ∧ message.Delivered decoder octets

/-! ## Ending elements -/

variable {decoder : Decoder} {octets : Nat} {machine : Machine}

/-- An action on the draft leaves the rest of the machine alone. -/
theorem perform_meets {action : Option Action} {tlv : Tlv} {post : Draft → Prop}
    (meets : Step.Meets (Draft.perform decoder.registry action tlv) machine.draft
      (fun _ => post) (CodecError.Blameless decoder.registry)) :
    Step.Meets (perform decoder.registry action tlv) machine
      (fun _ after => ∃ draft, after = { machine with draft } ∧ post draft)
      (CodecError.Blameless decoder.registry) := by
  rw [Step.Meets, perform_eq]
  cases acted : Draft.perform decoder.registry action tlv machine.draft with
  | ok _ draft => exact ⟨draft, rfl, meets.ok acted⟩
  | error error draft => exact meets.error acted

/-- The end of an element where its content may end. -/
theorem closeFrame_meets {frame : Frame} {post : Draft → Prop}
    (ends : machine.state.canEnd = true →
      Step.Meets (Draft.perform decoder.registry frame.atEnd frame.tlv) machine.draft
        (fun _ => post) (CodecError.Blameless decoder.registry)) :
    Step.Meets (closeFrame decoder.registry frame) machine
      (fun _ after => ∃ draft, after = { machine with draft, state := frame.resume } ∧ post draft)
      (CodecError.Blameless decoder.registry) := by
  by_cases canEnd : machine.state.canEnd = true
  · have going : closeFrame decoder.registry frame machine
        = (do perform decoder.registry frame.atEnd frame.tlv
              modify fun machine => { machine with state := frame.resume } : Step Machine Unit)
            machine := by
      rw [closeFrame, Step.get_bind]
      simp only [canEnd, Bool.not_true, Bool.false_eq_true, if_false]
    rw [Step.Meets, going]
    refine (perform_meets (ends canEnd)).bind fun _ middle reached => ?_
    obtain ⟨draft, rfl, holds⟩ := reached
    exact Step.Meets.of_ok rfl ⟨draft, rfl, holds⟩
  · have stopped : closeFrame decoder.registry frame machine
        = .error (.violation (.endedEarly frame.tlv.tag machine.state)) machine := by
      rw [closeFrame, Step.get_bind]
      simp only [canEnd]
      rfl
    exact Step.Meets.of_error stopped (CodecError.blameless_of_eq_false rfl)

/-- A complete element inside another one becomes a part of that. -/
theorem closeInner_meets {frame next : Frame} {outer : List Frame} {elements : List OpenElement}
    (reading : Reading decoder.registry machine.state machine.draft elements)
    (tracks : Tracks decoder octets 0 0 (frame :: next :: outer) elements)
    (full : frame.tlv.consumed = frame.tlv.length) :
    Step.Meets (closeFrame decoder.registry frame) machine
      (fun _ after => ∃ draft, after = { machine with draft, state := frame.resume }
        ∧ ∃ elements, Reading decoder.registry frame.resume draft elements
          ∧ Tracks decoder octets 0 0 (next :: outer) elements)
      (CodecError.Blameless decoder.registry) := by
  cases tracks with
  | @inside _ _ taken _ top _ elements holds consumed outerTracks =>
      obtain ⟨second, rest, rfl⟩ : ∃ second rest, elements = second :: rest := by
        cases outerTracks with
        | inside => exact ⟨_, _, rfl⟩
      have all : taken = frame.tlv.length := consumed.symm.trans full
      have nonempty : top.close.action = some .closeConnective → top.parts ≠ [] := by
        intro connective empty
        have none := holds.visible connective empty
        exact holds.connective connective (all.symm.trans none)
      have whole : frame.tlv.headerLength + taken + 0 = frame.tlv.total := by
        rw [all]
        rfl
      rw [whole] at outerTracks
      have sameClose : frame.atEnd = top.close.action := congrArg Close.action holds.close
      have sameResume : frame.resume = top.close.resume := congrArg Close.resume holds.close
      refine closeFrame_meets fun canEnd => ?_
      rw [sameClose, sameResume]
      refine (reading.ending rfl canEnd nonempty frame.tlv).mono fun _ draft reached => ?_
      obtain ⟨further, holdsNext, adds⟩ := reached
      refine ⟨_, holdsNext, outerTracks.add adds (fun compact => ?_) ?_⟩
      · have shorter := Plan.elementLength_mono ((holds.size compact).trans (Nat.le_of_eq all))
        have wide := holds.announced.wide
        unfold Plan.elementLength at shorter
        unfold Plan.elementLength Tlv.total
        omega
      · have shallow := holds.height
        rw [List.length_cons] at shallow
        omega

/-- The end of the outermost element finds a message. -/
theorem closeOutermost_meets {frame : Frame} {top : OpenElement}
    (reading : Reading decoder.registry machine.state machine.draft [top])
    (close : frame.close = top.close) :
    Step.Meets (closeFrame decoder.registry frame) machine
      (fun _ after => ∃ draft, after = { machine with draft, state := frame.resume }
        ∧ draft = machine.draft ∧ draft.Delivers decoder.registry top)
      (CodecError.Blameless decoder.registry) := by
  refine closeFrame_meets fun canEnd => ?_
  have delivers := reading.finish rfl canEnd
  have silent : frame.atEnd = none :=
    congrArg Close.action (close.trans delivers.close)
  rw [silent]
  exact Step.Meets.of_ok rfl ⟨rfl, delivers⟩

/-- A message that is handed over takes no more octets than were read. -/
theorem delivered {frame : Frame} {top : OpenElement} {message : Message}
    (tracks : Tracks decoder octets 0 0 [frame] [top])
    (full : frame.tlv.consumed = frame.tlv.length) (operation : message.operation.WellFormed)
    (controls : ∀ control ∈ message.controls, control.Received decoder.registry)
    (layout : message.layout = .constructed Ber.Tag.sequence top.parts) :
    message.Delivered decoder octets := by
  cases tracks with
  | @inside _ _ taken _ _ _ _ holds consumed outer =>
      have all : taken = frame.tlv.length := consumed.symm.trans full
      have wide := holds.announced.wide
      have content : decoder.registry.Compact → Layout.sizeAll top.parts ≤ frame.tlv.length :=
        fun compact => (holds.size compact).trans (Nat.le_of_eq all)
      cases outer with
      | outermost fits =>
          refine ⟨operation, controls, ?_, fun compact => ?_, fun compact => ?_, ?_⟩
          · rw [all]
            exact fits
          · have shorter := Plan.elementLength_mono (content compact)
            rw [layout, Layout.size_constructed]
            unfold Plan.elementLength at shorter ⊢
            omega
          · rw [layout]
            exact Nat.lt_of_le_of_lt (content compact) holds.announced.short
          · have shallow := holds.height
            rw [layout, Layout.height_constructed]
            rw [List.length_nil] at shallow
            omega

/-- A machine between two elements. -/
theorem consistent_between {frames : List Frame} {elements : List OpenElement}
    (reading : Reading decoder.registry machine.state machine.draft elements)
    (tracks : Tracks decoder octets 0 0 frames elements) (stack : machine.frames = frames)
    (idle : machine.current = none) (fresh : machine.header = {}) :
    machine.Consistent decoder octets := by
  refine ⟨elements, 0, 0, reading, stack ▸ tracks, ?_⟩
  have between := UnderWay.header idle (fresh ▸ Header.sound_idle)
  rwa [fresh] at between

/-- **Ending every element that is complete** keeps a machine consistent, or
delivers a message. -/
theorem closeFrames_meets {frames : List Frame} {elements : List OpenElement}
    (reading : Reading decoder.registry machine.state machine.draft elements)
    (tracks : Tracks decoder octets 0 0 frames elements) (stack : machine.frames = frames)
    (idle : machine.current = none) (fresh : machine.header = {}) :
    Step.Meets (closeFrames decoder.registry frames) machine
      (fun message after => Outcome decoder octets after message)
      (CodecError.Blameless decoder.registry) := by
  induction frames generalizing machine elements with
  | nil => exact Step.Meets.of_ok rfl (consistent_between reading tracks stack idle fresh)
  | cons frame outer further =>
      cases complete : frame.tlv.isComplete with
      | false =>
          exact Step.Meets.of_ok (closeFrames_of_incomplete decoder.registry outer complete)
            (consistent_between reading tracks stack idle fresh)
      | true =>
          rw [Step.Meets, closeFrames_of_complete decoder.registry outer complete]
          have full := Tlv.isComplete_iff.1 complete
          cases outer with
          | nil =>
              obtain ⟨top, rfl⟩ : ∃ top, elements = [top] :=
                List.length_eq_one_iff.1 tracks.length_eq.symm
              have close : frame.close = top.close := by
                cases tracks with
                | inside holds => exact holds.close
              refine (@closeOutermost_meets _ { machine with frames := [] } _ _
                reading close).bind fun _ middle reached => ?_
              obtain ⟨_, rfl, rfl, closes, message, made, operation, controls, layout⟩ := reached
              have starts : frame.resume = .start := congrArg Close.resume (close.trans closes)
              rw [starts, Step.Meets, idle, fresh]
              simp only [Step.bind_apply, deliver, made]
              exact ⟨rfl, delivered tracks full operation controls layout⟩
          | cons next outer =>
              refine (@closeInner_meets _ _ { machine with frames := next :: outer } _ _ _ _
                reading tracks full).bind fun _ middle reached => ?_
              obtain ⟨draft, rfl, elements, readingNext, tracksNext⟩ := reached
              exact further readingNext tracksNext rfl idle fresh

end Machine

end LdapWire
