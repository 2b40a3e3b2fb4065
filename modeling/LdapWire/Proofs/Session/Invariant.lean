import LdapWire.Proofs.Session.Tracking

/-!
# What every octet preserves

An octet leads a consistent machine to a consistent one, or completes a message,
or is refused for a reason that is not the decoder's own (`Machine.push_meets`).
So do octets one after another (`Machine.run_meets`).
-/

set_option autoImplicit false

namespace LdapWire

open Ber (Header Tlv)
open Grammar (Action Close Rule State Transition)

/-! ## Rules -/

namespace Situation.Reads

variable {S : Situation} {registry : Registry} {draft : Draft} {elements : List OpenElement}
  {rule : Rule}

theorem primitive (reads : S.Reads registry draft elements rule)
    (plain : rule.transition.close = none) (tlv : Tlv) (full : tlv.value.length = tlv.length) :
    Step.Meets (Draft.perform registry rule.transition.action tlv) draft
      (fun _ after => ∃ further,
        S rule.transition.next after (OpenElement.add further elements)
          ∧ Layout.Adds registry elements further tlv.length 0)
      (CodecError.Blameless registry) := by
  unfold Reads at reads
  rw [plain] at reads
  exact reads tlv full

theorem constructed (reads : S.Reads registry draft elements rule) {close : Close}
    (closing : rule.transition.close = some close) (tlv : Tlv) :
    Step.Meets (Draft.perform registry rule.transition.action tlv) draft
      (fun _ after => S rule.transition.next after ({ close } :: elements)
        ∧ (close.action = some .closeConnective → tlv.length ≠ 0))
      (CodecError.Blameless registry) := by
  unfold Reads at reads
  rw [closing] at reads
  exact reads tlv

end Situation.Reads

/-- Outside of all elements only a message may begin. -/
theorem Reading.elements_ne_nil {registry : Registry} {state : State} {draft : Draft}
    {elements : List OpenElement} (reading : Reading registry state draft elements) {rule : Rule}
    (listed : rule ∈ state.rules) (plain : rule.transition.close = none) : elements ≠ [] := by
  cases reading with
  | start =>
      cases List.mem_singleton.1 listed
      cases plain
  | operation => exact List.concat_ne_nil _ _
  | _ => exact List.cons_ne_nil _ _

/-- Further octets of the element under way. -/
theorem Tracks.advance {decoder : Decoder} {octets charged read : Nat} {frames : List Frame}
    {elements : List OpenElement} (tracks : Tracks decoder octets charged read frames elements)
    (further : Nat) :
    Tracks decoder (octets + further) charged (read + further) frames elements := by
  induction tracks with
  | outermost fits => exact .outermost fits
  | inside holds consumed outer advanced =>
      rw [Nat.add_assoc] at advanced
      exact .inside holds consumed advanced

namespace Machine

variable {decoder : Decoder} {octets : Nat} {machine : Machine} {elements : List OpenElement}

/-! ## Elements -/

/-- A primitive element that is complete. -/
theorem finishPrimitive_meets {pending : Pending}
    (reading : Reading decoder.registry machine.state machine.draft elements)
    (tracks : Tracks decoder octets pending.tlv.total pending.tlv.total machine.frames elements)
    (fresh : machine.header = {}) (announced : pending.tlv.Announced)
    (accepted : ∃ rule ∈ machine.state.rules, rule.transition = pending.transition)
    (plain : pending.transition.close = none)
    (full : pending.tlv.value.length = pending.tlv.length) :
    Step.Meets (finishPrimitive decoder.registry pending) machine
      (fun message after => Outcome decoder octets after message)
      (CodecError.Blameless decoder.registry) := by
  obtain ⟨rule, listed, same⟩ := accepted
  have unclosed : rule.transition.close = none := same ▸ plain
  have reads := (reading.element.of_mem listed).primitive unclosed pending.tlv full
  rw [same] at reads
  have split : finishPrimitive decoder.registry pending machine
      = (do perform decoder.registry pending.transition.action pending.tlv
            modify fun machine => { machine with state := pending.transition.next }
            closeFrames decoder.registry (← get).frames : Step Machine (Option Message))
          { machine with current := none } := rfl
  rw [Step.Meets, split]
  refine (@perform_meets decoder { machine with current := none } _ _ _ reads).bind
    fun _ middle reached => ?_
  obtain ⟨draft, rfl, further, holds, adds⟩ := reached
  rw [Step.Meets, Step.modify_bind, Step.get_bind]
  obtain ⟨header, current, frames, state, before⟩ := machine
  cases frames with
  | nil =>
      cases tracks
      exact absurd rfl (reading.elements_ne_nil listed unclosed)
  | cons frame frames =>
      have wide := announced.wide
      have shallow : 0 + frames.length < decoder.limits.maxDepth := by
        cases tracks with
        | inside parent =>
            have room := parent.height
            omega
      refine closeFrames_meets holds (tracks.add adds (fun _ => ?_) shallow) rfl rfl fresh
      unfold Plan.elementLength Tlv.total
      omega

/-- A constructed element that begins. -/
theorem openFrame_meets {tlv : Tlv} {transition : Transition} {close : Close}
    (reading : Reading decoder.registry machine.state machine.draft elements)
    (tracks : Tracks decoder octets tlv.total tlv.headerLength machine.frames elements)
    (fresh : machine.header = {}) (idle : machine.current = none) (announced : tlv.Announced)
    (empty : tlv.consumed = 0)
    (accepted : ∃ rule ∈ machine.state.rules, rule.transition = transition)
    (closing : transition.close = some close) :
    Step.Meets (openFrame decoder tlv transition close) machine
      (fun message after => Outcome decoder octets after message)
      (CodecError.Blameless decoder.registry) := by
  obtain ⟨rule, listed, rfl⟩ := accepted
  have reads := (reading.element.of_mem listed).constructed closing tlv
  rw [Step.Meets, openFrame, Step.get_bind]
  by_cases deep : decoder.limits.maxDepth ≤ machine.depth
  · simp only [if_pos deep]
    exact CodecError.blameless_of_eq_false rfl
  · simp only [if_neg deep]
    refine (perform_meets reads).bind fun _ middle reached => ?_
    obtain ⟨draft, rfl, holds, connective⟩ := reached
    rw [Step.Meets, Step.modify_bind, Step.get_bind]
    exact closeFrames_meets holds
      (tracks.opened announced empty (Nat.not_le.1 deep) ⟨machine.state, rule, listed, closing⟩
        connective) rfl idle fresh

/-- An element is charged to the one around it, unless it does not fit. -/
theorem charge_meets {tlv : Tlv} {read : Nat}
    (tracks : Tracks decoder octets 0 read machine.frames elements) :
    Step.Meets (charge decoder.limits tlv) machine
      (fun _ after => ∃ frames, after = { machine with frames }
        ∧ Tracks decoder octets tlv.total read frames elements)
      (CodecError.Blameless decoder.registry) := by
  obtain ⟨header, current, frames, state, draft⟩ := machine
  cases tracks with
  | outermost =>
      by_cases large : decoder.limits.maxPduSize < tlv.total
      · simp only [Step.Meets, charge, if_pos large]
        exact CodecError.blameless_of_eq_false rfl
      · simp only [Step.Meets, charge, if_neg large]
        exact ⟨_, rfl, .outermost (Nat.not_lt.1 large)⟩
  | @inside _ _ taken parent element frames elements holds consumed outer =>
      by_cases large : parent.tlv.remaining < tlv.total
      · simp only [Step.Meets, charge, if_pos large]
        exact CodecError.blameless_of_eq_false rfl
      · simp only [Step.Meets, charge, if_neg large]
        refine ⟨_, rfl, .inside ⟨holds.close, holds.listed,
          ⟨holds.announced.wide, holds.announced.short⟩, ?_, holds.size, holds.height,
          holds.connective, holds.visible⟩ ?_ outer⟩
        · have bounded := holds.bounded
          unfold Tlv.remaining at large
          simp only [Tlv.advance]
          omega
        · simp only [Tlv.advance, consumed, Nat.add_zero]

/-- An element whose header is complete. -/
theorem beginElement_meets {tlv : Tlv}
    (reading : Reading decoder.registry machine.state machine.draft elements)
    (tracks : Tracks decoder octets 0 tlv.headerLength machine.frames elements)
    (fresh : machine.header = {}) (idle : machine.current = none) (announced : tlv.Announced)
    (empty : tlv.consumed = 0) (unread : tlv.received = []) :
    Step.Meets (beginElement decoder tlv) machine
      (fun message after => Outcome decoder octets after message)
      (CodecError.Blameless decoder.registry) := by
  refine (charge_meets tracks).bind fun _ middle reached => ?_
  obtain ⟨frames, rfl, charged⟩ := reached
  rw [Step.Meets, Step.get_bind]
  cases found : machine.state.transition? tlv.tag with
  | none =>
      exact CodecError.blameless_of_eq_false rfl
  | some transition =>
      have accepted : ∃ rule ∈ machine.state.rules, rule.transition = transition := by
        obtain ⟨rule, listed, _, same⟩ := State.exists_rule_of_transition? found
        exact ⟨rule, listed, same⟩
      cases closing : transition.close with
      | some close =>
          simp only [closing]
          exact @openFrame_meets _ _ { machine with frames } _ _ _ _ reading charged fresh idle
            announced empty accepted closing
      | none =>
          simp only [closing]
          by_cases complete : tlv.isComplete = true
          · rw [if_pos complete]
            have none : tlv.length = 0 := (Tlv.isComplete_iff.1 complete).symm.trans empty
            have whole : tlv.headerLength = tlv.total := by rw [Tlv.total, none, Nat.add_zero]
            rw [whole] at charged
            refine @finishPrimitive_meets _ _ { machine with frames } _ { tlv, transition } reading
              charged fresh announced accepted closing ?_
            simp only [Tlv.value, unread, none, List.reverse_nil, List.length_nil]
          · rw [if_neg complete]
            have lacking : tlv.consumed < tlv.length := by
              have partly := mt Tlv.isComplete_iff.2 complete
              omega
            have start : tlv.headerLength = tlv.headerLength + tlv.consumed := by
              rw [empty, Nat.add_zero]
            rw [start] at charged
            have takes : Takes { machine with frames, current := some { tlv, transition } }
                { tlv, transition } :=
              ⟨rfl, fresh, announced, accepted, closing, lacking, by simp [unread, empty]⟩
            exact ⟨elements, _, _, reading, charged, .content takes⟩

/-! ## Octets -/

theorem pushHeader_meets (octet : UInt8) (sound : machine.header.Sound) :
    Step.Meets (pushHeader octet) machine
      (fun announced after => ∃ header, after = { machine with header }
        ∧ Header.Advanced machine.header.bytesRead header announced)
      (CodecError.Blameless decoder.registry) := by
  have meets := Header.push_meets octet sound
  cases pushed : Header.push octet machine.header with
  | ok announced header =>
      simp only [Step.Meets, pushHeader, pushed]
      exact ⟨header, rfl, meets.ok pushed⟩
  | error error header =>
      simp only [Step.Meets, pushHeader, pushed]
      exact CodecError.blameless_of_eq_false (meets.error pushed)

/-- **One octet** leads a consistent machine to a consistent one or to a message. -/
theorem push_meets (octet : UInt8) (consistent : machine.Consistent decoder octets) :
    Step.Meets (push decoder octet) machine
      (fun message after => Outcome decoder (octets + 1) after message)
      (CodecError.Blameless decoder.registry) := by
  obtain ⟨elements, charged, read, reading, tracks, underWay⟩ := consistent
  have later := tracks.advance 1
  cases underWay with
  | header idle sound =>
      have pushed : push decoder octet machine = takeHeaderOctet decoder octet machine := by
        simp only [push, idle]
      rw [Step.Meets, pushed, ← Step.Meets]
      refine (pushHeader_meets octet sound).bind fun announced middle reached => ?_
      obtain ⟨header, rfl, advanced⟩ := reached
      cases announced with
      | none =>
          obtain ⟨sound, bytesRead⟩ := advanced
          rw [← bytesRead] at later
          exact Step.Meets.of_ok rfl ⟨elements, 0, _, reading, later, .header idle sound⟩
      | some tlv =>
          obtain ⟨fresh, announced, headerLength, empty, unread⟩ := advanced
          rw [← headerLength] at later
          exact beginElement_meets reading later fresh idle announced empty unread
  | @content pending takes =>
      have grown : (pending.fill [octet]).tlv.consumed = pending.tlv.consumed + 1 := rfl
      have lacking := takes.lacking
      have kept : (pending.fill [octet]).tlv.received.length = pending.tlv.consumed + 1 :=
        congrArg (· + 1) takes.kept
      by_cases last : pending.tlv.consumed + 1 = pending.tlv.length
      · rw [Step.Meets, push_of_complete decoder octet last takes.current, ← Step.Meets]
        have whole : pending.tlv.headerLength + pending.tlv.consumed + 1 = pending.tlv.total := by
          rw [Nat.add_assoc, last, Tlv.total]
        rw [whole] at later
        refine @finishPrimitive_meets _ _ _ _ (pending.fill [octet]) reading later takes.header
          ⟨takes.announced.wide, takes.announced.short⟩ takes.accepted takes.primitive ?_
        rw [Tlv.value, List.length_reverse, kept, last]
        rfl
      · refine Step.Meets.of_ok (push_of_incomplete decoder octet (by omega) takes.current) ?_
        have takesMore :
            (machine.withCurrent (pending.fill [octet])).Takes (pending.fill [octet]) :=
          { current := rfl
            header := takes.header
            announced := ⟨takes.announced.wide, takes.announced.short⟩
            accepted := takes.accepted
            primitive := takes.primitive
            lacking := by
              rw [grown, Pending.fill, Tlv.length_fill]
              omega
            kept := kept.trans grown.symm }
        exact ⟨elements, _, _, reading, later, .content takesMore⟩

/-- **Octets one after another** lead a consistent machine to a consistent one, or
to the end of a message with some octets left. -/
theorem run_meets (input : Bytes) (consistent : machine.Consistent decoder octets) :
    Step.Meets (run decoder input) machine
      (fun result after => ∃ taken, input = taken ++ result.2
        ∧ Outcome decoder (octets + taken.length) after result.1)
      (CodecError.Blameless decoder.registry) := by
  induction input generalizing machine octets with
  | nil => exact Step.Meets.of_ok rfl ⟨[], rfl, consistent⟩
  | cons octet rest further =>
      rw [run_cons]
      refine (push_meets octet consistent).bind fun message middle reached => ?_
      cases message with
      | some message => exact Step.Meets.of_ok rfl ⟨[octet], rfl, reached⟩
      | none =>
          refine (further reached).mono fun result after ends => ?_
          obtain ⟨taken, split, outcome⟩ := ends
          refine ⟨octet :: taken, by rw [split, List.cons_append], ?_⟩
          rw [List.length_cons, Nat.add_comm taken.length, ← Nat.add_assoc]
          exact outcome

end Machine

end LdapWire
