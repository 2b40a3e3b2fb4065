import LdapWire.Proofs.Session.Balance
import LdapWire.Proofs.Session.Headers
import LdapWire.Proofs.Session.Invariant
import Mathlib.Data.List.Induction

/-!
# What a machine has read last

A machine that has read some octets and waits for more has either read the octets of a
header last (`Machine.endsWithHeader_of_run`), or those of a header and of a part of the
content behind it (`Machine.endsWithContent_of_run`). The octets before them leave it between
two elements, with the same state and the same draft. So an error that comes with the next
octet is about the element which that octet belongs to, and the element can be pointed out in
the input.
-/

set_option autoImplicit false

namespace LdapWire.Machine

open Ber (Header Reader Tlv)
open Grammar (Transition)

variable {decoder : Decoder} {registry : Registry} {machine middle after : Machine}
  {message : Option Message} {tlv : Tlv} {octet : UInt8} {octets : Bytes} {error : CodecError}

/-! ## The octet that is refused -/

/-- Octets that lead to an error end with the octet that is refused. -/
theorem exists_refused_of_run (failed : run decoder octets machine = .error error after) :
    ∃ front octet back middle, octets = front ++ octet :: back
      ∧ run decoder front machine = .ok (none, []) middle
      ∧ push decoder octet middle = .error error after := by
  induction octets generalizing machine with
  | nil => cases failed
  | cons octet rest further =>
      rw [run_cons] at failed
      cases pushed : push decoder octet machine with
      | error fault middle =>
          rw [Step.bind_of_error _ pushed] at failed
          cases failed
          exact ⟨[], octet, rest, machine, rfl, rfl, pushed⟩
      | ok ready middle =>
          rw [Step.bind_of_ok _ pushed] at failed
          cases ready with
          | some message => cases failed
          | none =>
              obtain ⟨front, last, back, before, rfl, ran, refused⟩ := further failed
              refine ⟨octet :: front, last, back, before, rfl, ?_, refused⟩
              rw [run_cons, Step.bind_of_ok _ pushed]
              exact ran

/-- The last of some octets that lead to no message is taken after the others. -/
theorem exists_last_of_run (ran : run decoder (octets ++ [octet]) machine = .ok (none, []) after) :
    ∃ middle, run decoder octets machine = .ok (none, []) middle
      ∧ push decoder octet middle = .ok none after := by
  rw [run_append] at ran
  cases before : run decoder octets machine with
  | error fault middle =>
      rw [before] at ran
      cases ran
  | ok result middle =>
      obtain ⟨ready, left⟩ := result
      rw [before] at ran
      cases ready with
      | some message => cases ran
      | none =>
          obtain rfl := run_left_eq_nil before
          refine ⟨middle, rfl, ?_⟩
          dsimp only at ran
          rw [run_cons] at ran
          obtain ⟨ready, last, pushed, ended⟩ := Step.exists_of_bind_eq_ok ran
          cases ready <;> cases ended
          exact pushed

theorem run_concat (before : run decoder octets machine = .ok (none, []) middle)
    (pushed : push decoder octet middle = .ok none after) :
    run decoder (octets ++ [octet]) machine = .ok (none, []) after := by
  rw [run_append, before]
  change run decoder [octet] middle = _
  rw [run_cons, Step.bind_of_ok _ pushed]
  rfl

theorem accounts_of_run (ran : run decoder octets {} = .ok (none, []) after) :
    after.Accounts octets := by
  obtain ⟨taken, same, accounts⟩ := accounted_of_run accounts_fresh ran
  rw [List.append_nil] at same
  rw [same]
  exact accounts

theorem consistent_of_run (ran : run decoder octets {} = .ok (none, []) after) :
    after.Consistent decoder octets.length := by
  obtain ⟨taken, same, consistent⟩ := (run_meets octets (consistent_fresh decoder)).ok ran
  rw [Nat.zero_add] at consistent
  rw [List.append_nil] at same
  rw [same]
  exact consistent

/-! ## The header under way -/

theorem header_of_closeFrames {frames : List Frame}
    (closed : closeFrames registry frames machine = .ok message after) :
    after.header = machine.header := by
  induction frames generalizing machine with
  | nil =>
      cases closed
      rfl
  | cons frame outer further =>
      rcases closeFrames_cases closed with ⟨_, _, rfl⟩ | ⟨_, _, draft, closed⟩ | ⟨_, _, _, rfl⟩
      · rfl
      · exact (further closed).trans rfl
      · rfl

theorem header_of_finishPrimitive {pending : Pending}
    (finished : finishPrimitive registry pending machine = .ok message after) :
    after.header = machine.header := by
  obtain ⟨draft, closed⟩ := exists_closeFrames_of_finishPrimitive finished
  exact (header_of_closeFrames closed).trans rfl

theorem header_of_openFrame {transition : Transition} {close : Grammar.Close}
    (opened : openFrame decoder tlv transition close machine = .ok message after) :
    after.header = machine.header := by
  obtain ⟨draft, closed⟩ := exists_closeFrames_of_openFrame opened
  exact (header_of_closeFrames closed).trans rfl

/-- An element that begins leaves the header to the next one. -/
theorem header_of_beginElement (begun : beginElement decoder tlv machine = .ok message after) :
    after.header = machine.header := by
  obtain ⟨_, transition, charged, _, ways⟩ := beginElement_cases begun
  obtain ⟨frames, rfl, _⟩ := exists_frames_of_charge charged
  rcases ways with ⟨_, _, opened⟩ | ⟨_, _, finished⟩ | ⟨_, _, _, rfl⟩
  · exact (header_of_openFrame opened).trans rfl
  · exact (header_of_finishPrimitive finished).trans rfl
  · rfl

/-- Whether some octets end with those of the header under way, and those before them leave
the machine as it is around that header. -/
def EndsWithHeader (decoder : Decoder) (machine : Machine) (octets : Bytes) : Prop :=
  ∃ outer header, octets = outer ++ header
    ∧ run decoder outer {}
        = .ok (none, [])
            { frames := machine.frames, state := machine.state, draft := machine.draft }
    ∧ Header.take header {} = .ok (none, []) machine.header

/-- Between two elements no octet of a header has been read. -/
theorem endsWithHeader_of_fresh (ran : run decoder octets {} = .ok (none, []) machine)
    (idle : machine.current = none) (fresh : machine.header = {}) :
    machine.EndsWithHeader decoder octets := by
  obtain ⟨_, _, frames, state, draft⟩ := machine
  cases fresh
  cases idle
  exact ⟨octets, [], (List.append_nil _).symm, ran, rfl⟩

/-- **The octets of the header under way** are the last ones that have been read. -/
theorem endsWithHeader_of_run (ran : run decoder octets {} = .ok (none, []) after)
    (idle : after.current = none) : after.EndsWithHeader decoder octets := by
  induction octets using List.reverseRecOn generalizing after with
  | nil =>
      cases ran
      exact ⟨[], [], rfl, rfl, rfl⟩
  | append_singleton octets octet further =>
      obtain ⟨middle, before, pushed⟩ := exists_last_of_run ran
      cases current : middle.current with
      | some pending =>
          have accounts := accounts_of_run before
          have fresh : middle.header = {} :=
            accounts.between (by rw [current]; exact Option.some_ne_none _)
          have lacking := accounts.waiting pending current
          by_cases last : pending.tlv.consumed + 1 = pending.tlv.length
          · rw [push_of_complete decoder octet last current] at pushed
            have kept := header_of_finishPrimitive pushed
            exact endsWithHeader_of_fresh ran idle (kept.trans fresh)
          · rw [push_of_incomplete decoder octet (by omega) current] at pushed
            cases pushed
            cases idle
      | none =>
          cases took : Header.push octet middle.header with
          | error fault header =>
              rw [push_of_refused current took] at pushed
              cases pushed
          | ok announced header =>
              cases announced with
              | none =>
                  rw [push_of_header current took] at pushed
                  cases pushed
                  obtain ⟨outer, begun, rfl, outside, taken⟩ := further before current
                  refine ⟨outer, begun ++ [octet], List.append_assoc .., outside, ?_⟩
                  rw [Header.take_append, taken]
                  exact Header.take_of_pushed took
              | some tlv =>
                  obtain ⟨rfl, _⟩ := Header.announced_of_push took
                  rw [push_of_announced current took] at pushed
                  exact endsWithHeader_of_fresh ran idle (header_of_beginElement pushed)

/-- A header that ends with the next octet is all there is between two elements. -/
theorem exists_header_of_announced {header : Header}
    (ran : run decoder octets {} = .ok (none, []) machine) (idle : machine.current = none)
    (took : Header.push octet machine.header = .ok (some tlv) header) :
    ∃ outer begun, octets = outer ++ begun
      ∧ run decoder outer {}
          = .ok (none, [])
              { frames := machine.frames, state := machine.state, draft := machine.draft }
      ∧ Header.take (begun ++ [octet]) {} = .ok (some tlv, []) {}
      ∧ push decoder octet machine
          = beginElement decoder tlv
              { frames := machine.frames, state := machine.state, draft := machine.draft } := by
  obtain ⟨outer, begun, split, outside, taken⟩ := endsWithHeader_of_run ran idle
  obtain ⟨rfl, _⟩ := Header.announced_of_push took
  refine ⟨outer, begun, split, outside, ?_, ?_⟩
  · rw [Header.take_append, taken]
    exact Header.take_of_announced took
  · rw [push_of_announced idle took, idle]

/-! ## The content under way -/

/-- Whether the octets `outer` lead between two elements, where those of `header` announce an
element that the state of the machine accepts. The element has been charged to `frames`. -/
structure Begins (decoder : Decoder) (outer header : Bytes) (tlv : Tlv) (transition : Transition)
    (frames : List Frame) (machine : Machine) : Prop where
  outside : run decoder outer {}
    = .ok (none, []) { frames, state := machine.state, draft := machine.draft }
  whole : Header.take header {} = .ok (some tlv, []) {}
  charged : charge decoder.limits tlv { frames, state := machine.state, draft := machine.draft }
    = .ok ()
        { frames := machine.frames, state := machine.state, draft := machine.draft }
  accepted : machine.state.transition? tlv.tag = some transition

/-- Whether some octets end with those of the primitive element under way. -/
def EndsWithContent (decoder : Decoder) (machine : Machine) (pending : Pending)
    (octets : Bytes) : Prop :=
  ∃ outer header content tlv frames, octets = outer ++ (header ++ content)
    ∧ pending.tlv = tlv.fill content
    ∧ Begins decoder outer header tlv pending.transition frames machine

/-- **The octets of the content under way** are the last ones that have been read. -/
theorem endsWithContent_of_run {pending : Pending}
    (ran : run decoder octets {} = .ok (none, []) after) (current : after.current = some pending) :
    after.EndsWithContent decoder pending octets := by
  induction octets using List.reverseRecOn generalizing after pending with
  | nil =>
      cases ran
      cases current
  | append_singleton octets octet further =>
      obtain ⟨middle, before, pushed⟩ := exists_last_of_run ran
      cases started : middle.current with
      | some earlier =>
          have lacking := (accounts_of_run before).waiting earlier started
          by_cases last : earlier.tlv.consumed + 1 = earlier.tlv.length
          · rw [push_of_complete decoder octet last started] at pushed
            cases (finishPrimitive_current pushed).symm.trans current
          · rw [push_of_incomplete decoder octet (by omega) started] at pushed
            cases pushed
            cases current
            obtain ⟨outer, header, content, tlv, frames, rfl, filled, begins⟩ :=
              further before started
            refine ⟨outer, header, content ++ [octet], tlv, frames, ?_, ?_,
              ⟨begins.outside, begins.whole, begins.charged, begins.accepted⟩⟩
            · rw [List.append_assoc, List.append_assoc]
            · rw [Pending.fill, filled, Tlv.fill_fill]
      | none =>
          cases took : Header.push octet middle.header with
          | error fault header =>
              rw [push_of_refused started took] at pushed
              cases pushed
          | ok announced header =>
              cases announced with
              | none =>
                  rw [push_of_header started took] at pushed
                  cases pushed
                  cases started.symm.trans current
              | some tlv =>
                  obtain ⟨outer, begun, rfl, outside, whole, pushes⟩ :=
                    exists_header_of_announced before started took
                  rw [pushes] at pushed
                  obtain ⟨_, transition, charged, accepted, ways⟩ := beginElement_cases pushed
                  obtain ⟨frames, rfl, _⟩ := exists_frames_of_charge charged
                  rcases ways with ⟨_, _, opened⟩ | ⟨_, _, finished⟩ | ⟨_, _, _, rfl⟩
                  · cases (openFrame_current opened).symm.trans current
                  · cases (finishPrimitive_current finished).symm.trans current
                  · cases current
                    refine ⟨outer, begun ++ [octet], [], tlv, middle.frames, ?_, rfl,
                      ⟨outside, whole, charged, accepted⟩⟩
                    rw [List.append_nil, List.append_assoc]

end LdapWire.Machine
