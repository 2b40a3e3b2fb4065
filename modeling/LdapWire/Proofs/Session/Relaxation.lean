import LdapWire.Proofs.Session.Chunks

/-!
# Larger limits

The limits of a decoder only ever refuse. A machine with wider limits takes the very step
that a machine with stricter ones takes, unless the stricter one finds a limit exceeded
(`Machine.relaxes_push`), and from there on nothing ties the two together. So a stream
that keeps to the stricter limits delivers the same under the wider ones, errors of other
kinds included, and a stream that does not delivers what it had delivered up to then
(`Session.drain_of_wider_limits`).

The limits are held against an element between the charge to the element around it and
the action that opens it, so the relation between the two machines is proved step by step
(`Step.Relaxes`): each step either is the same for both or fails for the stricter one.
-/

set_option autoImplicit false

namespace LdapWire

open Ber (Tlv)
open Grammar (Close Transition)

/-- Whether limits allow all that stricter ones do. -/
structure Limits.Within (strict wide : Limits) : Prop where
  maxPduSize : strict.maxPduSize ≤ wide.maxPduSize
  maxDepth : strict.maxDepth ≤ wide.maxDepth

/-- Whether an error says that a limit is exceeded. -/
def CodecError.exceedsLimit : CodecError → Bool
  | .limitExceeded .. => true
  | _ => false

/-! ## Steps -/

namespace Step

variable {σ α β : Type}

/-- Whether a step is the same as a stricter one, except where the stricter one finds a
limit exceeded. -/
def Relaxes (strict wide : Step σ α) : Prop :=
  ∀ state, wide state = strict state
    ∨ ∃ error after, strict state = .error error after ∧ error.exceedsLimit = true

namespace Relaxes

variable {strict wide : Step σ α}

theorem refl (step : Step σ α) : Relaxes step step := fun _ => .inl rfl

theorem bind {next other : α → Step σ β} (first : Relaxes strict wide)
    (further : ∀ value, Relaxes (next value) (other value)) :
    Relaxes (strict >>= next) (wide >>= other) := by
  intro state
  rcases first state with same | ⟨error, after, refused, exceeds⟩
  · cases ran : strict state with
    | error error after =>
        rw [ran] at same
        rw [bind_of_error _ ran, bind_of_error _ same]
        exact .inl rfl
    | ok value middle =>
        rw [ran] at same
        rw [bind_of_ok _ ran, bind_of_ok _ same]
        exact further value middle
  · exact .inr ⟨error, after, bind_of_error _ refused, exceeds⟩

end Relaxes

end Step

/-! ## The machine -/

namespace Machine

variable {strict wide : Limits}

/-- A message that is small enough for the stricter limits is so for the wider ones. -/
theorem relaxes_charge (within : strict.Within wide) (tlv : Tlv) :
    (charge strict tlv).Relaxes (charge wide tlv) := by
  intro machine
  simp only [charge]
  cases machine.frames with
  | cons parent outer => exact .inl rfl
  | nil =>
      by_cases large : strict.maxPduSize < tlv.total
      · refine .inr ⟨_, _, if_pos large, rfl⟩
      · have fits : ¬ wide.maxPduSize < tlv.total :=
          Nat.not_lt.2 (Nat.le_trans (Nat.not_lt.1 large) within.maxPduSize)
        simp only [if_neg large, if_neg fits, true_or]

/-- An element that is not too deep for the stricter limits is not for the wider ones. -/
theorem relaxes_openFrame (registry : Registry) (within : strict.Within wide) (tlv : Tlv)
    (transition : Transition) (close : Close) :
    (openFrame { registry, limits := strict } tlv transition close).Relaxes
      (openFrame { registry, limits := wide } tlv transition close) := by
  refine .bind (.refl get) fun machine => ?_
  by_cases deep : strict.maxDepth ≤ machine.depth
  · simp only [if_pos deep]
    intro state
    exact .inr ⟨_, _, Step.bind_of_error _ rfl, rfl⟩
  · have shallow : ¬ wide.maxDepth ≤ machine.depth :=
      Nat.not_le.2 (Nat.lt_of_lt_of_le (Nat.not_le.1 deep) within.maxDepth)
    simp only [if_neg deep, if_neg shallow]
    exact .refl _

theorem relaxes_beginElement (registry : Registry) (within : strict.Within wide) (tlv : Tlv) :
    (beginElement { registry, limits := strict } tlv).Relaxes
      (beginElement { registry, limits := wide } tlv) := by
  refine .bind (relaxes_charge within tlv) fun _ => .bind (.refl get) fun machine => ?_
  dsimp only
  cases machine.state.transition? tlv.tag with
  | none => exact .refl _
  | some transition =>
      dsimp only
      cases transition.close with
      | none => exact .refl _
      | some close => exact relaxes_openFrame registry within tlv transition close

/-- **Every octet** is taken as under stricter limits, unless it is the last of a header
that announces more than these allow. -/
theorem relaxes_push (registry : Registry) (within : strict.Within wide) (octet : UInt8) :
    (push { registry, limits := strict } octet).Relaxes
      (push { registry, limits := wide } octet) := by
  have header : (takeHeaderOctet { registry, limits := strict } octet).Relaxes
      (takeHeaderOctet { registry, limits := wide } octet) := by
    refine .bind (.refl (pushHeader octet)) fun announced => ?_
    cases announced with
    | none => exact .refl _
    | some tlv => exact relaxes_beginElement registry within tlv
  intro machine
  simp only [push]
  cases machine.current with
  | none => exact header machine
  | some pending => exact .inl rfl

/-- **Octets one after another** deliver what they deliver under stricter limits, or more
if the stricter limits are exceeded. -/
theorem drainOctets_relaxes {narrow relaxed : Decoder}
    (relaxes : ∀ octet, (push narrow octet).Relaxes (push relaxed octet)) (octets : Bytes)
    (machine : Machine) :
    drainOctets relaxed octets machine = drainOctets narrow octets machine
      ∨ (∃ error ∈ (drainOctets narrow octets machine).1.error, error.exceedsLimit = true)
        ∧ (drainOctets narrow octets machine).1.messages
          <+: (drainOctets relaxed octets machine).1.messages := by
  induction octets generalizing machine with
  | nil => exact .inl rfl
  | cons octet rest further =>
      simp only [drainOctets]
      rcases relaxes octet machine with same | ⟨error, after, refused, exceeds⟩
      · rw [same]
        cases push narrow octet machine with
        | error error after => exact .inl rfl
        | ok message after =>
            dsimp only
            rcases further after with alike | ⟨exceeded, delivered⟩
            · rw [alike]
              exact .inl rfl
            · exact .inr ⟨exceeded, (List.prefix_append_right_inj _).2 delivered⟩
      · rw [refused]
        exact .inr ⟨⟨error, rfl, exceeds⟩, List.nil_prefix⟩

end Machine

/-! ## Sessions -/

namespace Session

/-- **Wider limits change no result that the stricter ones have accepted.** A stream that
ends without an error, or with one that is about no limit, delivers the same messages under
wider limits and leaves the same session with the same error. If a limit is exceeded, the
messages that were delivered up to then come first under wider limits too. Neither depends
on how the stream is cut into chunks. -/
theorem drain_of_wider_limits (registry : Registry) {strict wide : Limits}
    (within : strict.Within wide) {chunks others : List Bytes}
    (same : others.flatten = chunks.flatten) :
    let narrow := drainEach { registry, limits := strict } {} chunks
    let relaxed := drainEach { registry, limits := wide } {} others
    ((∀ error ∈ narrow.1.error, error.exceedsLimit = false) → relaxed = narrow)
    ∧ ((∃ error ∈ narrow.1.error, error.exceedsLimit = true) →
        narrow.1.messages <+: relaxed.1.messages) := by
  dsimp only
  rw [drainEach_fresh, drainEach_fresh, same]
  rcases Machine.drainOctets_relaxes (Machine.relaxes_push registry within) chunks.flatten {} with
    alike | ⟨⟨error, failed, exceeds⟩, delivered⟩
  · rw [alike]
    exact ⟨fun _ => rfl, fun _ => List.prefix_refl _⟩
  · refine ⟨fun otherwise => ?_, fun _ => delivered⟩
    have harmless := otherwise error failed
    rw [exceeds] at harmless
    cases harmless

/-- An unbind request of 7 octets and a bind request of 14 octets behind it. -/
def unbindThenBind : Bytes :=
  [0x30, 0x05, 0x02, 0x01, 0x01, 0x42, 0x00,
    0x30, 0x0C, 0x02, 0x01, 0x02, 0x60, 0x07, 0x02, 0x01, 0x03, 0x04, 0x00, 0x80, 0x00]

theorem drainEach_unbindThenBind :
    (drainEach { limits := { maxPduSize := 7 } } {} [unbindThenBind]).1
      = { messages := [{ id := 1, operation := .unbindRequest }],
          error := some (.limitExceeded .pduSize 7 14) } := by
  rw [drainEach_fresh]
  decide +kernel

/-- Where at most 7 octets are allowed, the unbind request is delivered before the limit is
exceeded, and so it is where more are allowed. With a limit of 14 octets the stream
delivers what it delivers with the default limits, whatever the chunks. -/
theorem drain_of_wider_limits_unbindThenBind :
    [{ id := 1, operation := .unbindRequest }]
        <+: (drainEach {} {} [unbindThenBind.take 9, unbindThenBind.drop 9]).1.messages
      ∧ drainEach {} {} [unbindThenBind.take 9, unbindThenBind.drop 9]
          = drainEach { limits := { maxPduSize := 14, maxDepth := 2 } } {} [unbindThenBind] := by
  have seven : Limits.Within { maxPduSize := 7 } {} := ⟨by decide, by decide⟩
  have fourteen : Limits.Within { maxPduSize := 14, maxDepth := 2 } {} := ⟨by decide, by decide⟩
  have same : [unbindThenBind.take 9, unbindThenBind.drop 9].flatten = [unbindThenBind].flatten :=
    rfl
  have exceeded := (drain_of_wider_limits .builtin seven same).2
  have accepted := (drain_of_wider_limits .builtin fourteen same).1
  rw [drainEach_unbindThenBind] at exceeded
  refine ⟨exceeded ⟨_, rfl, rfl⟩, accepted ?_⟩
  have succeeded : (drainEach { limits := { maxPduSize := 14, maxDepth := 2 } } {}
      [unbindThenBind]).1.error = none := by
    rw [drainEach_fresh]
    decide +kernel
  rw [succeeded]
  exact fun _ none => by cases none

end Session

end LdapWire
