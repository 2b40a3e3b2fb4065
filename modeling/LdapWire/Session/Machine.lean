import LdapWire.Ber.Header
import LdapWire.Draft.Action
import LdapWire.Grammar.Rule

/-!
# The decoding machine

`Machine.consume` takes input. The machine keeps the header or the primitive
element that is under way, a stack of the constructed elements that are open,
the state of the grammar and the draft of the message, so the input may be cut
anywhere.

An element is charged to the element around it as a whole as soon as its header
is known: an element that would run past the end of the one around it is refused
before any of its content is read.
-/

set_option autoImplicit false

namespace LdapWire

open Ber (Header Tlv)
open Grammar (Action State Transition)

/-- Bounds on what a decoder accepts. -/
structure Limits where
  /-- The largest accepted message, its header included. -/
  maxPduSize : Nat := 2097152
  /-- The largest number of constructed elements open at once. -/
  maxDepth : Nat := 64
deriving DecidableEq

/-- What a decoder knows before it starts. -/
structure Decoder where
  registry : Registry := .builtin
  limits : Limits := {}

/-- A constructed element that is open. -/
structure Frame where
  tlv : Tlv
  /-- The state after the element. -/
  resume : State
  /-- The action at the end of the element. -/
  atEnd : Option Action
deriving DecidableEq

/-- A primitive element whose content is arriving. -/
structure Pending where
  tlv : Tlv
  transition : Transition
deriving DecidableEq

/-- A decoder between two pieces of its input. -/
structure Machine where
  header : Header := {}
  current : Option Pending := none
  /-- The open elements, the innermost first. -/
  frames : List Frame := []
  state : State := .start
  draft : Draft := {}
deriving DecidableEq

namespace Machine

/-- The number of open constructed elements. -/
def depth (machine : Machine) : Nat := machine.frames.length

/-- Whether part of a message has been read. -/
def isMidway (machine : Machine) : Bool :=
  !machine.frames.isEmpty || machine.current.isSome || !machine.header.isIdle

/-- Charges an element to the innermost open one, or holds a message against the
size limit. -/
def charge (limits : Limits) (tlv : Tlv) : Step Machine Unit := fun machine =>
  match machine.frames with
  | [] =>
      if limits.maxPduSize < tlv.total then
        .error (.limitExceeded .pduSize limits.maxPduSize tlv.total) machine
      else .ok () machine
  | parent :: outer =>
      if parent.tlv.remaining < tlv.total then
        .error
          (.corrupt (.overflow tlv.tag tlv.total parent.tlv.tag parent.tlv.remaining)) machine
      else
        let charged := { parent with tlv := parent.tlv.advance tlv.total }
        .ok () { machine with frames := charged :: outer }

/-- Carries out an action, if there is one, on the draft. -/
def perform (registry : Registry) (action : Option Action) (tlv : Tlv) : Step Machine Unit :=
  match action with
  | none => pure ()
  | some action => fun machine =>
      match machine.draft.act registry action tlv with
      | .ok () draft => .ok () { machine with draft }
      | .error error draft => .error error { machine with draft }

/-- Hands the finished message over and starts a new draft. -/
def deliver : Step Machine Message := fun machine =>
  match machine.draft.toMessage with
  | .ok message => .ok message { machine with draft := {} }
  | .error error => .error error machine

/-- Ends an element that has just been taken off the stack. -/
def closeFrame (registry : Registry) (frame : Frame) : Step Machine Unit := do
  let state := (← get).state
  if !state.canEnd then throw (.violation (.endedEarly frame.tlv.tag state))
  perform registry frame.atEnd frame.tlv
  modify fun machine => { machine with state := frame.resume }

/-- Ends every open element whose content has been read, from the innermost
outwards. The argument is the stack. The message is complete once the outermost
element ends. -/
def closeFrames (registry : Registry) : List Frame → Step Machine (Option Message)
  | [] => return none
  | frame :: outer => do
      if !frame.tlv.isComplete then return none
      modify fun machine => { machine with frames := outer }
      closeFrame registry frame
      match outer with
      | [] => return some (← deliver)
      | _ :: _ => closeFrames registry outer

/-- Ends a primitive element whose content is complete. -/
def finishPrimitive (registry : Registry) (pending : Pending) : Step Machine (Option Message) := do
  modify fun machine => { machine with current := none }
  perform registry pending.transition.action pending.tlv
  modify fun machine => { machine with state := pending.transition.next }
  closeFrames registry (← get).frames

/-- Opens a constructed element, unless too many are open. -/
def openFrame (decoder : Decoder) (tlv : Tlv) (transition : Transition)
    (close : Grammar.Close) : Step Machine (Option Message) := do
  let depth := (← get).depth
  if decoder.limits.maxDepth ≤ depth then
    throw (.limitExceeded .nestingDepth decoder.limits.maxDepth (depth + 1))
  perform decoder.registry transition.action tlv
  modify fun machine =>
    { machine with
      state := transition.next
      frames := { tlv, resume := close.resume, atEnd := close.action } :: machine.frames }
  closeFrames decoder.registry (← get).frames

/-- Begins an element whose header has been read. -/
def beginElement (decoder : Decoder) (tlv : Tlv) : Step Machine (Option Message) := do
  charge decoder.limits tlv
  let state := (← get).state
  match state.transition? tlv.tag with
  | none => throw (.unexpectedTag state tlv.tag)
  | some transition =>
      match transition.close with
      | some close => openFrame decoder tlv transition close
      | none =>
          if tlv.isComplete then finishPrimitive decoder.registry { tlv, transition }
          else
            modify fun machine => { machine with current := some { tlv, transition } }
            return none

/-- Passes an octet to the header. -/
def pushHeader (octet : UInt8) : Step Machine (Option Tlv) := fun machine =>
  match Header.push octet machine.header with
  | .ok tlv header => .ok tlv { machine with header }
  | .error error header => .error error { machine with header }

/-- Takes one octet of a header, and begins the element with its last octet. -/
def takeHeaderOctet (decoder : Decoder) (octet : UInt8) : Step Machine (Option Message) := do
  match ← pushHeader octet with
  | none => return none
  | some tlv => beginElement decoder tlv

/-- Adds content to the primitive element under way. -/
def takeContent (content : Bytes) (pending : Pending) : Step Machine Pending := fun machine =>
  match Tlv.append content pending.tlv with
  | .ok () tlv =>
      let grown := { pending with tlv }
      .ok grown { machine with current := some grown }
  | .error error tlv => .error error { machine with current := some { pending with tlv } }

/-- Adds the rest of its content to the primitive element under way and ends it. -/
def takeLastContent (registry : Registry) (content : Bytes) (pending : Pending) :
    Step Machine (Option Message) := do
  finishPrimitive registry (← takeContent content pending)

/-! ## The element under way

Ending elements leaves the primitive element under way alone, so a machine that
has ended one has none. -/

theorem exists_draft_of_perform {registry : Registry} {action : Option Action} {tlv : Tlv}
    {machine after : Machine} (performed : perform registry action tlv machine = .ok () after) :
    ∃ draft, after = { machine with draft } := by
  cases action with
  | none =>
      cases performed
      exact ⟨machine.draft, rfl⟩
  | some action =>
      simp only [perform] at performed
      split at performed <;> cases performed
      exact ⟨_, rfl⟩

theorem deliver_current {machine after : Machine} {message : Message}
    (delivered : deliver machine = .ok message after) : after.current = machine.current := by
  simp only [deliver] at delivered
  split at delivered <;> cases delivered
  rfl

theorem exists_draft_of_closeFrame {registry : Registry} {frame : Frame}
    {machine after : Machine} (closed : closeFrame registry frame machine = .ok () after) :
    ∃ draft, after = { machine with draft, state := frame.resume } := by
  obtain ⟨_, _, got, closed⟩ := Step.exists_of_bind_eq_ok closed
  cases got
  dsimp only at closed
  split at closed
  · cases closed
  · obtain ⟨_, middle, performed, resumed⟩ := Step.exists_of_bind_eq_ok closed
    obtain ⟨draft, rfl⟩ := exists_draft_of_perform performed
    cases resumed
    exact ⟨draft, rfl⟩

theorem closeFrames_current {registry : Registry} {frames : List Frame}
    {machine after : Machine} {message : Option Message}
    (closed : closeFrames registry frames machine = .ok message after) :
    after.current = machine.current := by
  induction frames generalizing machine with
  | nil => cases closed; rfl
  | cons frame outer further =>
      unfold closeFrames at closed
      split at closed
      · cases closed; rfl
      · obtain ⟨_, _, popped, closed⟩ := Step.exists_of_bind_eq_ok closed
        cases popped
        obtain ⟨_, _, ended, closed⟩ := Step.exists_of_bind_eq_ok closed
        obtain ⟨draft, rfl⟩ := exists_draft_of_closeFrame ended
        cases outer with
        | nil =>
            obtain ⟨_, _, delivered, finished⟩ := Step.exists_of_bind_eq_ok closed
            cases finished
            have kept := deliver_current delivered
            exact kept
        | cons next outer =>
            have kept := further closed
            exact kept

/-- A primitive element that ends is no longer under way, and ends those that end with it. -/
theorem exists_closeFrames_of_finishPrimitive {registry : Registry} {pending : Pending}
    {machine after : Machine} {message : Option Message}
    (finished : finishPrimitive registry pending machine = .ok message after) :
    ∃ draft, closeFrames registry machine.frames
        { machine with current := none, state := pending.transition.next, draft }
      = .ok message after := by
  obtain ⟨_, _, taken, finished⟩ := Step.exists_of_bind_eq_ok finished
  cases taken
  obtain ⟨_, _, performed, finished⟩ := Step.exists_of_bind_eq_ok finished
  obtain ⟨draft, rfl⟩ := exists_draft_of_perform performed
  obtain ⟨_, _, moved, finished⟩ := Step.exists_of_bind_eq_ok finished
  cases moved
  obtain ⟨_, _, got, closed⟩ := Step.exists_of_bind_eq_ok finished
  cases got
  exact ⟨draft, closed⟩

theorem finishPrimitive_current {registry : Registry} {pending : Pending}
    {machine after : Machine} {message : Option Message}
    (finished : finishPrimitive registry pending machine = .ok message after) :
    after.current = none := by
  obtain ⟨draft, closed⟩ := exists_closeFrames_of_finishPrimitive finished
  have kept := closeFrames_current closed
  exact kept

theorem takeLastContent_current {registry : Registry} {content : Bytes} {pending : Pending}
    {machine after : Machine} {message : Option Message}
    (finished : takeLastContent registry content pending machine = .ok message after) :
    after.current = none := by
  obtain ⟨_, _, _, finished⟩ := Step.exists_of_bind_eq_ok finished
  exact finishPrimitive_current finished

/-! ## Reading input -/

/-- Takes one octet of a header. -/
def takeHeaderPiece (decoder : Decoder) : Bytes → Step Machine (Option Message × Bytes)
  | [] => return (none, [])
  | octet :: rest => return (← takeHeaderOctet decoder octet, rest)

/-- Takes the content of the primitive element under way, as far as it is there. -/
def takeContentPiece (registry : Registry) (pending : Pending) (input : Bytes) :
    Step Machine (Option Message × Bytes) := do
  let lacking := pending.tlv.remaining
  if input.length < lacking then
    let _ ← takeContent input pending
    return (none, [])
  else
    let message ← takeLastContent registry (input.take lacking) pending
    return (message, input.drop lacking)

/-- Takes the next piece of the input and returns what is left. -/
def takePiece (decoder : Decoder) (input : Bytes) : Step Machine (Option Message × Bytes) :=
  fun machine =>
    match machine.current with
    | none => takeHeaderPiece decoder input machine
    | some pending => takeContentPiece decoder.registry pending input machine

/-- What a machine has still to do with its input: to end the primitive element
under way counts as half of an octet. -/
def work (machine : Machine) (input : Bytes) : Nat :=
  2 * input.length + if machine.current.isSome then 1 else 0

/-- A piece of a non-empty input is some of the work. -/
theorem work_takePiece_lt {decoder : Decoder} {input left : Bytes} {machine after : Machine}
    {message : Option Message} (nonempty : input ≠ [])
    (taken : takePiece decoder input machine = .ok (message, left) after) :
    after.work left < machine.work input := by
  have positive : 0 < input.length := List.length_pos_iff.2 nonempty
  unfold takePiece at taken
  split at taken
  · cases input with
    | nil => exact absurd rfl nonempty
    | cons octet rest =>
        obtain ⟨_, _, _, returned⟩ := Step.exists_of_bind_eq_ok taken
        cases returned
        simp only [work, List.length_cons]
        split <;> omega
  · rename_i pending current
    unfold takeContentPiece at taken
    split at taken
    · obtain ⟨_, _, _, returned⟩ := Step.exists_of_bind_eq_ok taken
      cases returned
      simp only [work, List.length_nil]
      split <;> omega
    · obtain ⟨_, _, finished, returned⟩ := Step.exists_of_bind_eq_ok taken
      cases returned
      simp only [work, takeLastContent_current finished, current, List.length_drop,
        Option.isSome_none, Option.isSome_some, Bool.false_eq_true, if_true, if_false]
      omega

/-- Takes input up to the end of a message and returns what is left, or takes all
of it. -/
def consume (decoder : Decoder) (input : Bytes) : Step Machine (Option Message × Bytes) :=
  fun machine =>
    if nonempty : input ≠ [] then
      match taken : takePiece decoder input machine with
      | .error error after => .error error after
      | .ok (some message, left) after => .ok (some message, left) after
      | .ok (none, left) after =>
          have := work_takePiece_lt nonempty taken
          consume decoder left after
    else .ok (none, []) machine
termination_by machine => machine.work input

/-- A machine that has returned a message has less to do. -/
theorem work_consume_lt {decoder : Decoder} {input left : Bytes} {machine after : Machine}
    {message : Message} (ready : consume decoder input machine = .ok (some message, left) after) :
    after.work left < machine.work input := by
  fun_induction consume decoder input machine with
  | case1 => cases ready
  | case2 input machine nonempty message left after taken =>
      cases ready
      exact work_takePiece_lt nonempty taken
  | case3 input machine nonempty left after taken less further =>
      exact Nat.lt_trans (further ready) less
  | case4 => cases ready

end Machine

end LdapWire
