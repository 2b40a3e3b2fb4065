import LdapWire.Proofs.Encode.Bytes
import LdapWire.Proofs.Reading.Basic

/-!
# Paths through the grammar

`Path` says that layouts one after another lead from a state and a draft to
others: the grammar accepts every element, and no action fails on it. While
`Situation` is about all that may be read, a path is about what the encoder
writes. Every layout on a path is sound (`Path.sound`).
-/

set_option autoImplicit false

namespace LdapWire

open Ber
open Grammar (Action Close Rule State Transition)

/-- Layouts that lead from a state and a draft to a state and a draft. -/
inductive Path (registry : Registry) : List Layout → State → Draft → State → Draft → Prop where
  | done {state : State} {draft : Draft} : Path registry [] state draft state draft
  | primitive {tag : UInt8} {content : Bytes} {rest : List Layout} {state final : State}
      {draft middle after : Draft} {transition : Transition}
      (accepted : state.transition? tag = some transition) (plain : transition.close = none)
      (acts : ∀ tlv : Tlv, tlv.value = content → tlv.length = content.length →
        Draft.perform registry transition.action tlv draft = .ok () middle)
      (further : Path registry rest transition.next middle final after) :
      Path registry (.primitive tag content :: rest) state draft final after
  | payload {value : Payload} {rest : List Layout} {state final : State}
      {draft middle after : Draft} {transition : Transition}
      (honest : value.bytes.length = value.encodedLength)
      (accepted : state.transition? Tag.octetString = some transition)
      (plain : transition.close = none)
      (acts : ∀ tlv : Tlv, tlv.value = value.bytes → tlv.length = value.bytes.length →
        Draft.perform registry transition.action tlv draft = .ok () middle)
      (further : Path registry rest transition.next middle final after) :
      Path registry (.payload value :: rest) state draft final after
  | constructed {tag : UInt8} {parts rest : List Layout} {state last final : State}
      {draft opened inside middle after : Draft} {transition : Transition} {close : Close}
      (accepted : state.transition? tag = some transition)
      (closing : transition.close = some close)
      (opens : ∀ tlv : Tlv, tlv.length = Layout.sizeAll parts →
        Draft.perform registry transition.action tlv draft = .ok () opened)
      (content : Path registry parts transition.next opened last inside)
      (canEnd : last.canEnd = true)
      (ends : ∀ tlv : Tlv, Draft.perform registry close.action tlv inside = .ok () middle)
      (further : Path registry rest close.resume middle final after) :
      Path registry (.constructed tag parts :: rest) state draft final after

namespace Path

variable {registry : Registry} {state middle final : State} {draft between after : Draft}

/-- Paths one after another. -/
theorem append {front back : List Layout} (first : Path registry front state draft middle between)
    (second : Path registry back middle between final after) :
    Path registry (front ++ back) state draft final after := by
  induction first with
  | done => exact second
  | primitive accepted plain acts _ further => exact .primitive accepted plain acts (further second)
  | payload honest accepted plain acts _ further =>
      exact .payload honest accepted plain acts (further second)
  | constructed accepted closing opens content canEnd ends _ _ further =>
      exact .constructed accepted closing opens content canEnd ends (further second)

/-- **Nothing on a path is refused**, and payloads keep the lengths they claim. -/
theorem sound {layouts : List Layout} (path : Path registry layouts state draft final after) :
    Layout.AllSound layouts := by
  induction path with
  | done =>
      rw [Layout.AllSound]
      trivial
  | primitive _ _ _ _ further =>
      rw [Layout.AllSound, Layout.Sound]
      exact ⟨trivial, further⟩
  | payload honest _ _ _ _ further =>
      rw [Layout.AllSound, Layout.Sound]
      exact ⟨honest, further⟩
  | constructed _ _ _ _ _ _ _ content further =>
      rw [Layout.AllSound, Layout.Sound]
      exact ⟨content, further⟩

/-! ## Single elements -/

section Fields

variable {α : Type} {read : Bytes → Codec α} {write : α → Bytes} {valid : α → Prop}
  {tag : UInt8} {action : Action} {next : State} {set : α → Step Draft Unit} {rest : List Layout}

/-- A field whose value is written as it is read. -/
theorem field (content : Content read write valid) {value : α} (accepted : valid value)
    (acts : ∀ tlv, Draft.act registry action tlv = (do set (← Step.lift (read tlv.value))))
    (found : state.transition? tag = some (Rule.primitive tag action next).transition)
    (sets : set value draft = .ok () between)
    (further : Path registry rest next between final after) :
    Path registry (.primitive tag (write value) :: rest) state draft final after := by
  refine .primitive found rfl (fun tlv spelled _ => ?_) further
  have reads : Draft.act registry action tlv draft = set value draft := by
    rw [acts, spelled, content.returns value accepted]
    rfl
  exact reads.trans sets

/-- A field whose octets are taken as they are. -/
theorem octets {content : Bytes}
    (acts : ∀ tlv : Tlv, tlv.value = content →
      Draft.act registry action tlv draft = .ok () between)
    (found : state.transition? tag = some (Rule.primitive tag action next).transition)
    (further : Path registry rest next between final after) :
    Path registry (.primitive tag content :: rest) state draft final after :=
  .primitive found rfl (fun tlv spelled _ => acts tlv spelled) further

end Fields

/-! ## Constructed elements -/

section Elements

variable {tag : UInt8} {parts rest : List Layout} {inner last resume : State}
  {opened inside : Draft}

theorem wrapper
    (found : state.transition? tag = some (Rule.wrapper tag inner resume).transition)
    (content : Path registry parts inner draft last between) (canEnd : last.canEnd = true)
    (further : Path registry rest resume between final after) :
    Path registry (.constructed tag parts :: rest) state draft final after :=
  .constructed found rfl (fun _ _ => rfl) content canEnd (fun _ => rfl) further

theorem opening {action : Action}
    (found : state.transition? tag = some (Rule.opening tag action inner resume).transition)
    (acts : ∀ tlv : Tlv, Draft.act registry action tlv draft = .ok () opened)
    (content : Path registry parts inner opened last between)
    (canEnd : last.canEnd = true) (further : Path registry rest resume between final after) :
    Path registry (.constructed tag parts :: rest) state draft final after :=
  .constructed found rfl (fun tlv _ => acts tlv) content canEnd (fun _ => rfl) further

theorem bracket {action atEnd : Action}
    (found : state.transition? tag = some (Rule.bracket tag action inner atEnd resume).transition)
    (acts : ∀ tlv : Tlv, tlv.length = Layout.sizeAll parts →
      Draft.act registry action tlv draft = .ok () opened)
    (content : Path registry parts inner opened last inside)
    (ends : ∀ tlv, Draft.act registry atEnd tlv inside = .ok () between)
    (canEnd : last.canEnd = true) (further : Path registry rest resume between final after) :
    Path registry (.constructed tag parts :: rest) state draft final after :=
  .constructed found rfl acts content canEnd ends further

end Elements

/-! ## Repeated elements -/

/-- Elements of one kind, each of which adds a value to those before it. -/
theorem each {α : Type} {layout : α → Layout} (holding : List α → Draft) {values : List α}
    (adds : ∀ earlier, ∀ value ∈ values,
      Path registry [layout value] state (holding earlier) state (holding (earlier ++ [value])))
    (earlier : List α) :
    Path registry (values.map layout) state (holding earlier) state
      (holding (earlier ++ values)) := by
  induction values generalizing earlier with
  | nil =>
      rw [List.append_nil]
      exact .done
  | cons value values further =>
      have first := adds earlier value List.mem_cons_self
      have others := further (fun before value listed =>
        adds before value (List.mem_cons_of_mem _ listed)) (earlier ++ [value])
      rw [List.append_assoc] at others
      exact first.append others

end Path

end LdapWire
