import LdapWire.Encode.Layout
import LdapWire.Grammar.Rule
import LdapWire.Proofs.Encode.Size
import LdapWire.Proofs.Reading.Content
import LdapWire.Proofs.Step
import LdapWire.Proofs.WellFormed

/-!
# Situations

A `Situation` says which draft and which open elements belong to a state of the
grammar. An open element carries the layouts that the encoder would write for the
parts read in it so far, so a situation ties the draft both to the path that the
grammar has taken and to the shortest encoding of what has been read.

`Situation.Reads` says what a rule does in a situation, and `Situation.Ends` what
the end of an element does: the draft reaches the next situation, and what the
encoder would write is no longer than what was read. The lemmas of this module
reduce both to a computation on the draft, one for each kind of field.
-/

set_option autoImplicit false

namespace LdapWire

open Ber
open Grammar (Action Close Rule State)

/-! ## Parts that have been read -/

/-- A constructed element that is open. -/
structure OpenElement where
  close : Close
  /-- What the encoder writes for the parts that have been read. -/
  parts : List Layout := []

/-- More parts in the innermost open element. -/
def OpenElement.add (further : List Layout) : List OpenElement → List OpenElement
  | [] => []
  | top :: outer => { top with parts := top.parts ++ further } :: outer

/-- Whether the innermost open element is a connective. -/
def OpenElement.IsConnective (elements : List OpenElement) : Prop :=
  ∃ top ∈ elements.head?, top.close.action = some .closeConnective

theorem OpenElement.not_isConnective {top : OpenElement} {outer : List OpenElement}
    (plain : top.close.action ≠ some .closeConnective) :
    ¬ OpenElement.IsConnective (top :: outer) := by
  rintro ⟨_, found, connective⟩
  cases found
  exact plain connective

/-- Whether no registered reader makes a payload that claims more octets than it
was read from. -/
def Registry.Compact (registry : Registry) : Prop :=
  ∀ oid reader content payload, registry.reader? oid = some reader →
    reader content = .ok payload → payload.encodedLength ≤ content.length

/-- Whether an error is no fault of the decoder. A registered reader may return
whatever it likes. -/
def CodecError.Blameless (registry : Registry) (error : CodecError) : Prop :=
  error.isInternal = true →
    ∃ oid reader content, registry.reader? oid = some reader ∧ reader content = .error error

theorem CodecError.blameless_of_eq_false {registry : Registry} {error : CodecError}
    (external : error.isInternal = false) : error.Blameless registry := by
  intro internal
  rw [external] at internal
  cases internal

/-- What an element with content of the given size adds to the open elements. An
element inside a connective always adds something. -/
structure Layout.Adds (registry : Registry) (elements : List OpenElement) (further : List Layout)
    (content height : Nat) : Prop where
  size : registry.Compact → Layout.sizeAll further ≤ Plan.elementLength content
  height : Layout.heightAll further ≤ height
  visible : OpenElement.IsConnective elements → further ≠ []

/-- Carries out the action of a transition, if it has one. -/
def Draft.perform (registry : Registry) (action : Option Action) (tlv : Tlv) : Step Draft Unit :=
  match action with
  | none => pure ()
  | some action => Draft.act registry action tlv

/-! ## What elements do -/

/-- Which drafts and which open elements belong to a state. -/
abbrev Situation := State → Draft → List OpenElement → Prop

namespace Situation

variable (S : Situation) (registry : Registry)

/-- The element of a rule leads from a draft and open elements to a situation. -/
def Reads (draft : Draft) (elements : List OpenElement) (rule : Rule) : Prop :=
  match rule.transition.close with
  | none => ∀ tlv : Tlv, tlv.value.length = tlv.length →
      Step.Meets (Draft.perform registry rule.transition.action tlv) draft
        (fun _ after => ∃ further,
          S rule.transition.next after (OpenElement.add further elements)
            ∧ Layout.Adds registry elements further tlv.length 0)
        (CodecError.Blameless registry)
  | some close => ∀ tlv : Tlv,
      Step.Meets (Draft.perform registry rule.transition.action tlv) draft
        (fun _ after => S rule.transition.next after ({ close } :: elements)
          ∧ (close.action = some .closeConnective → tlv.length ≠ 0))
        (CodecError.Blameless registry)

/-- Each of some rules does. -/
def ReadsAll (draft : Draft) (elements : List OpenElement) : List Rule → Prop
  | [] => True
  | rule :: rest => Reads S registry draft elements rule ∧ ReadsAll draft elements rest

/-- The end of an element leads to a situation. -/
def Ends (draft : Draft) (top : OpenElement) (outer : List OpenElement) : Prop :=
  ∀ tlv : Tlv,
    Step.Meets (Draft.perform registry top.close.action tlv) draft
      (fun _ after => ∃ further,
        S top.close.resume after (OpenElement.add further outer)
          ∧ Layout.Adds registry outer further (Layout.sizeAll top.parts)
              (Layout.heightAll top.parts + 1))
      (CodecError.Blameless registry)

variable {S registry} {draft : Draft} {elements : List OpenElement} {tag : UInt8}

theorem ReadsAll.of_mem {rules : List Rule} (reads : S.ReadsAll registry draft elements rules)
    {rule : Rule} (listed : rule ∈ rules) : S.Reads registry draft elements rule := by
  induction rules with
  | nil => cases listed
  | cons first rest further =>
      cases listed with
      | head => exact reads.1
      | tail _ later => exact further reads.2 later

theorem ReadsAll.append {front back : List Rule} (first : S.ReadsAll registry draft elements front)
    (second : S.ReadsAll registry draft elements back) :
    S.ReadsAll registry draft elements (front ++ back) := by
  induction front with
  | nil => exact second
  | cons rule rest further => exact ⟨first.1, further first.2⟩

/-! ## Primitive elements -/

/-- A single part is always visible. -/
theorem adds_primitive {content : Bytes} {length : Nat} (fits : content.length ≤ length) :
    Layout.Adds registry elements [Layout.primitive tag content] length 0 where
  size _ := by
    rw [Layout.sizeAll_cons, Layout.sizeAll_nil, Nat.add_zero, Layout.size_primitive]
    exact Plan.elementLength_mono fits
  height := by simp
  visible _ := List.cons_ne_nil _ _

section Fields

variable {α : Type} {read : Bytes → Codec α} {write : α → Bytes} {valid : α → Prop}
  {action : Action} {next : State} {set : α → Step Draft Unit}

/-- A field whose value is read and then put where it belongs, which may fail. -/
theorem Reads.fieldMeets (content : Content read write valid)
    (acts : ∀ tlv, Draft.act registry action tlv = (do set (← Step.lift (read tlv.value))))
    (sets : ∀ value, valid value → (set value).Meets draft
      (fun _ after => S next after (OpenElement.add [Layout.primitive tag (write value)] elements))
      (CodecError.Blameless registry)) :
    S.Reads registry draft elements (Rule.primitive tag action next) := by
  intro tlv full
  change Step.Meets (Draft.act registry action tlv) _ _ _
  rw [acts]
  refine Step.Meets.lift_bind
    (fun error failed => CodecError.blameless_of_eq_false (content.fails _ _ failed))
    fun value done => ?_
  obtain ⟨accepted, fits⟩ := content.accepts _ _ done
  refine (sets value accepted).mono fun _ after reached => ⟨_, reached, adds_primitive ?_⟩
  rwa [← full]

/-- A field whose value is read and then put where it belongs. -/
theorem Reads.field (content : Content read write valid)
    (acts : ∀ tlv, Draft.act registry action tlv = (do set (← Step.lift (read tlv.value))))
    (sets : ∀ value, valid value → ∃ after, set value draft = .ok () after
      ∧ S next after (OpenElement.add [Layout.primitive tag (write value)] elements)) :
    S.Reads registry draft elements (Rule.primitive tag action next) := by
  refine .fieldMeets content acts fun value accepted => ?_
  obtain ⟨after, ran, reached⟩ := sets value accepted
  exact Step.Meets.of_ok ran reached

/-- A field whose octets are taken as they are. -/
theorem Reads.octets
    (acts : ∀ tlv : Tlv, ∃ after, Draft.act registry action tlv draft = .ok () after
      ∧ S next after (OpenElement.add [Layout.primitive tag tlv.value] elements)) :
    S.Reads registry draft elements (Rule.primitive tag action next) := by
  intro tlv full
  obtain ⟨after, ran, reached⟩ := acts tlv
  exact Step.Meets.of_ok ran ⟨_, reached, adds_primitive (Nat.le_of_eq full)⟩

/-- A truth value that is left out when it is false. -/
theorem Reads.flag {set : Bool → Step Draft Unit}
    (outside : ¬ OpenElement.IsConnective elements)
    (acts : ∀ tlv,
      Draft.act registry action tlv = (do set (← Step.lift (Boolean.decode tlv.value))))
    (sets : ∀ value, ∃ after, set value draft = .ok () after
      ∧ S next after
        (OpenElement.add (if value then [Layout.boolean tag true] else []) elements)) :
    S.Reads registry draft elements (Rule.primitive tag action next) := by
  intro tlv full
  change Step.Meets (Draft.act registry action tlv) _ _ _
  rw [acts]
  refine Step.Meets.lift_bind
    (fun error failed => CodecError.blameless_of_eq_false (Boolean.decode_fault failed))
    fun value done => ?_
  have single : tlv.length = 1 := full.symm.trans (Boolean.length_of_decode done)
  obtain ⟨after, ran, reached⟩ := sets value
  refine Step.Meets.of_ok ran ⟨_, reached, ?_⟩
  cases value with
  | false => exact ⟨fun _ => Nat.zero_le _, Nat.le_refl _, fun inside => absurd inside outside⟩
  | true => exact adds_primitive (Nat.le_of_eq single.symm)

end Fields

/-! ## Constructed elements -/

/-- An element without an action for its header. -/
theorem Reads.wrapper {inner resume : State}
    (opens : S inner draft ({ close := { action := none, resume } } :: elements)) :
    S.Reads registry draft elements (Rule.wrapper tag inner resume) := by
  intro tlv
  exact Step.Meets.of_ok rfl ⟨opens, nofun⟩

/-- An element with an action for its header, which may fail. -/
theorem Reads.openingMeets {action : Action} {inner resume : State}
    (opens : ∀ tlv, Step.Meets (Draft.act registry action tlv) draft
      (fun _ after => S inner after ({ close := { action := none, resume } } :: elements))
      (CodecError.Blameless registry)) :
    S.Reads registry draft elements (Rule.opening tag action inner resume) := by
  intro tlv
  exact (opens tlv).mono fun _ after reached => ⟨reached, nofun⟩

/-- An element with an action for its header. -/
theorem Reads.opening {action : Action} {inner resume : State} {after : Draft}
    (acts : ∀ tlv, Draft.act registry action tlv draft = .ok () after)
    (opens : S inner after ({ close := { action := none, resume } } :: elements)) :
    S.Reads registry draft elements (Rule.opening tag action inner resume) :=
  .openingMeets fun tlv => Step.Meets.of_ok (acts tlv) opens

/-- An element with actions for its header and its end, which is no connective. -/
theorem Reads.bracket {action atEnd : Action} {inner resume : State}
    (plain : atEnd ≠ .closeConnective)
    (opens : ∀ tlv, Step.Meets (Draft.act registry action tlv) draft
      (fun _ after => S inner after ({ close := { action := some atEnd, resume } } :: elements))
      (CodecError.Blameless registry)) :
    S.Reads registry draft elements (Rule.bracket tag action inner atEnd resume) := by
  intro tlv
  refine (opens tlv).mono fun _ after reached => ⟨reached, fun closing => ?_⟩
  exact absurd (Option.some.inj closing) plain

/-! ## Ends -/

/-- An element whose layout is made of the parts read in it. -/
theorem adds_constructed (parts : List Layout) :
    Layout.Adds registry elements [Layout.constructed tag parts] (Layout.sizeAll parts)
      (Layout.heightAll parts + 1) where
  size _ := by simp
  height := by simp
  visible _ := List.cons_ne_nil _ _

/-- The end of an element without an action. -/
theorem Ends.wrapper (tag : UInt8) {resume : State} {parts : List Layout}
    {outer : List OpenElement}
    (reached : S resume draft (OpenElement.add [Layout.constructed tag parts] outer)) :
    S.Ends registry draft { close := { action := none, resume }, parts } outer := by
  intro tlv
  exact Step.Meets.of_ok rfl ⟨_, reached, adds_constructed parts⟩

/-- The end of an element with an action, which may fail. -/
theorem Ends.actionMeets (tag : UInt8) {action : Action} {resume : State} {parts : List Layout}
    {outer : List OpenElement}
    (acts : ∀ tlv, Step.Meets (Draft.act registry action tlv) draft
      (fun _ after => S resume after (OpenElement.add [Layout.constructed tag parts] outer))
      (CodecError.Blameless registry)) :
    S.Ends registry draft { close := { action := some action, resume }, parts } outer := by
  intro tlv
  exact (acts tlv).mono fun _ after reached => ⟨_, reached, adds_constructed parts⟩

end Situation

/-! ## Texts that are not empty -/

namespace Layout

theorem nonEmptyText_eq {tag : UInt8} {value : String} (nonempty : value ≠ "") (what : String) :
    nonEmptyText tag value what = text tag value := by
  have present : ¬ value.isEmpty = true := by simpa using nonempty
  rw [nonEmptyText, if_neg present]

theorem attributeName_eq {tag : UInt8} {value : String} (nonempty : value ≠ "") :
    attributeName tag value = text tag value :=
  nonEmptyText_eq nonempty _

theorem map_nonEmptyText {tag : UInt8} {values : List String} (nonempty : "" ∉ values)
    (what : String) : values.map (nonEmptyText tag · what) = values.map (text tag) := by
  refine List.map_congr_left fun value listed => nonEmptyText_eq ?_ what
  intro empty
  exact nonempty (empty ▸ listed)

theorem optional_nonEmptyText {tag : UInt8} {value : Option String} (nonempty : value ≠ some "")
    (what : String) : optional (nonEmptyText tag · what) value = optional (text tag) value := by
  cases value with
  | none => rfl
  | some value =>
      have present : value ≠ "" := fun empty => nonempty (congrArg some empty)
      rw [optional, Option.map_some, nonEmptyText_eq present]
      rfl

theorem optional_attributeName {tag : UInt8} {value : Option String} (nonempty : value ≠ some "") :
    optional (attributeName tag) value = optional (text tag) value :=
  optional_nonEmptyText nonempty _

end Layout

/-! ## Operations -/

/-- What happens at the end of an operation. -/
def Grammar.Close.afterOperation : Close := { action := none, resume := .afterOp }

/-- Whether the draft of a message holds a well-formed operation and nothing of
what is needed only on the way there, where the encoder writes the operation as
an element with the given parts. -/
structure Draft.Completes (id : Int32) (draft : Draft) (top : OpenElement) : Prop where
  close : top.close = Close.afterOperation
  operation : ∃ operation : Operation, draft = { id := some id, operation := some operation }
    ∧ operation.WellFormed ∧ operation.layout = .constructed operation.kind.tag top.parts

/-- The situations inside the element of an operation: every element leads on,
and the operation is complete where its element may end. -/
structure Situation.WithinOperation (S : Situation) (registry : Registry) (id : Int32) : Prop where
  nonempty : ∀ {state draft elements}, S state draft elements → elements ≠ []
  element : ∀ {state draft elements}, S state draft elements →
    S.ReadsAll registry draft elements state.rules
  ending : ∀ {state : State} {draft top next outer}, S state draft (top :: next :: outer) →
    state.canEnd = true → (top.close.action = some .closeConnective → top.parts ≠ []) →
    S.Ends registry draft top (next :: outer)
  finish : ∀ {state : State} {draft top}, S state draft [top] → state.canEnd = true →
    Draft.Completes id draft top

end LdapWire
