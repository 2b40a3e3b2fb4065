import LdapWire.Proofs.Session.Masking

/-!
# Limits

Only the outermost element is held against the size limit. Those inside it are held
against what the elements around them lack, so none of them is larger, and neither is
what is kept of a primitive one (`Machine.Bounded`). The number of open elements is
held against its own limit.

The limits are not stricter than that. A session that finds a limit exceeded has just
read the header of an element that exceeds it, and the figures in the error are those
of that element (`Exceeds`), unless the reader of a control says so of the value that has
just been read. Both are put together in `Session.Reachable.keeps_limits`.
-/

set_option autoImplicit false

namespace LdapWire

open Ber (Header Reader Tlv)
open Grammar (State Transition)

/-! ## What the limits bound -/

theorem Tracks.within {decoder : Decoder} {octets charged read : Nat} {frames : List Frame}
    {elements : List OpenElement} (tracks : Tracks decoder octets charged read frames elements) :
    charged ≤ decoder.limits.maxPduSize
      ∧ ∀ frame ∈ frames, frame.tlv.total ≤ decoder.limits.maxPduSize := by
  induction tracks with
  | outermost fits => exact ⟨fits, fun _ listed => absurd listed List.not_mem_nil⟩
  | inside holds consumed outer further =>
      obtain ⟨total, others⟩ := further
      have bounded := holds.bounded
      refine ⟨?_, List.forall_mem_cons.2 ⟨total, others⟩⟩
      unfold Tlv.total at total
      omega

theorem Tracks.shallow {decoder : Decoder} {octets charged read : Nat} {frames : List Frame}
    {elements : List OpenElement} (tracks : Tracks decoder octets charged read frames elements) :
    frames.length ≤ decoder.limits.maxDepth := by
  cases tracks with
  | outermost => exact Nat.zero_le _
  | inside holds =>
      have height := holds.height
      rw [List.length_cons]
      omega

namespace Machine

/-- Whether a machine keeps to some limits. -/
structure Bounded (limits : Limits) (machine : Machine) : Prop where
  depth : machine.depth ≤ limits.maxDepth
  frames : ∀ frame ∈ machine.frames, frame.tlv.total ≤ limits.maxPduSize
  current : ∀ pending ∈ machine.current, pending.tlv.total ≤ limits.maxPduSize
  value : ∀ pending ∈ machine.current, pending.tlv.value.length ≤ limits.maxPduSize

theorem Consistent.bounded {decoder : Decoder} {machine : Machine} {count : Nat}
    (consistent : machine.Consistent decoder count) : machine.Bounded decoder.limits := by
  obtain ⟨elements, charged, read, _, tracks, underWay⟩ := consistent
  obtain ⟨fits, frames⟩ := tracks.within
  cases underWay with
  | header idle =>
      have nothing : ∀ pending, pending ∉ machine.current := by
        intro pending listed
        rw [idle] at listed
        cases listed
      exact ⟨tracks.shallow, frames, fun pending listed => absurd listed (nothing pending),
        fun pending listed => absurd listed (nothing pending)⟩
  | @content pending takes =>
      have only : ∀ other ∈ machine.current, other = pending := by
        intro other listed
        exact Option.some.inj (listed.symm.trans takes.current)
      have kept : pending.tlv.value.length ≤ pending.tlv.total := by
        have lacking := takes.lacking
        rw [Tlv.value, List.length_reverse, takes.kept]
        unfold Tlv.total
        omega
      refine ⟨tracks.shallow, frames, fun other listed => ?_, fun other listed => ?_⟩
      · rw [only other listed]
        exact fits
      · rw [only other listed]
        exact Nat.le_trans kept fits

end Machine

/-! ## Limits that are exceeded -/

/-- Whether the element that is announced by the last of some octets exceeds a limit, and
which figures show it: a message of which these octets are the header, or a constructed
element for which there is no room among the open ones. -/
inductive Exceeds (decoder : Decoder) : Bytes → Limit → (bound actual : Nat) → Prop where
  | size {header : Bytes} {tag : UInt8} {length : Nat}
      (announced : Reader.header header = .ok (tag, length) [])
      (large : decoder.limits.maxPduSize < header.length + length) :
      Exceeds decoder header .pduSize decoder.limits.maxPduSize (header.length + length)
  | depth {outer header : Bytes} {frames : List Frame} {state : State} {draft : Draft}
      {tag : UInt8} {length : Nat} {transition : Transition}
      (outside : Session.feed decoder outer {} = .ok none { machine := { frames, state, draft } })
      (full : frames.length = decoder.limits.maxDepth)
      (announced : Reader.header header = .ok (tag, length) [])
      (accepted : state.transition? tag = some transition)
      (constructed : transition.close.isSome = true) :
      Exceeds decoder (outer ++ header) .nestingDepth decoder.limits.maxDepth
        (decoder.limits.maxDepth + 1)

/-- Whether a limit is exceeded does not depend on what the readers return. -/
theorem Exceeds.of_masked {decoder : Decoder} {octets : Bytes} {limit : Limit}
    {bound actual : Nat} (exceeds : Exceeds decoder.masked octets limit bound actual) :
    Exceeds decoder octets limit bound actual := by
  cases exceeds with
  | size announced large => exact .size announced large
  | depth outside full announced accepted constructed =>
      exact .depth (Session.feed_masked.2 outside) full announced accepted constructed

theorem Registry.Refuses.reports {registry : Registry} {limit : Limit} {bound actual : Nat}
    (refuses : registry.Refuses (.limitExceeded limit bound actual)) :
    registry.Reports (.limitExceeded limit bound actual) := by
  rcases refuses with faults | ⟨oid, other⟩ | reports
  · cases faults
  · cases other
  · exact reports

namespace Machine

variable {decoder : Decoder} {middle after : Machine} {read : Bytes} {octet : UInt8}
  {limit : Limit} {bound actual : Nat}

/-- A limit for which an element is refused is exceeded by that element. -/
theorem exceeds_of_beginElement {outer header : Bytes} {tlv : Tlv} {frames : List Frame}
    {state : State} {draft : Draft}
    (outside : run decoder outer {} = .ok (none, []) { frames, state, draft })
    (whole : Header.take header {} = .ok (some tlv, []) {})
    (refused : beginElement decoder tlv { frames, state, draft }
      = .error (.limitExceeded limit bound actual) after) :
    Exceeds decoder (outer ++ header) limit bound actual
      ∨ decoder.registry.Reports (.limitExceeded limit bound actual) := by
  have found := Header.header_of_take whole
  cases refusal_of_beginElement refused with
  | large outermost large =>
      have counted := Header.bytesRead_of_take ((accounts_of_run outside).outside outermost).2.2
      have first : outer = [] := by
        refine List.length_eq_zero_iff.1 ?_
        change 0 = 0 + outer.length at counted
        omega
      rw [Header.total_of_take whole] at large ⊢
      rw [first]
      exact .inl (.size found large)
  | deep accepted constructed deep =>
      have full : frames.length = decoder.limits.maxDepth :=
        Nat.le_antisymm (consistent_of_run outside).bounded.depth deep
      have reached : Session.feed decoder outer {}
          = .ok none { machine := { frames, state, draft } } := by
        rw [Session.feed_fresh, outside]
      refine .inl ?_
      change Exceeds decoder _ _ _ (frames.length + 1)
      rw [full]
      exact .depth reached full found accepted constructed
  | refused refuses => exact .inr refuses.reports

/-- **A limit that an octet exceeds** is exceeded by the element that it announces. -/
theorem exceeds_of_push (ran : run decoder read {} = .ok (none, []) middle)
    (refused : push decoder octet middle = .error (.limitExceeded limit bound actual) after) :
    Exceeds decoder (read ++ [octet]) limit bound actual
      ∨ decoder.registry.Reports (.limitExceeded limit bound actual) := by
  cases current : middle.current with
  | some pending =>
      simp only [push, current] at refused
      split at refused
      · exact .inr (finishPrimitive_failsAs _ _ _ _ _ refused).reports
      · cases refused
  | none =>
      cases took : Header.push octet middle.header with
      | error fault header =>
          rw [push_of_refused current took] at refused
          obtain ⟨corruption, rfl⟩ := (Header.refused_of_push took).1
          cases refused
      | ok announced header =>
          cases announced with
          | none =>
              rw [push_of_header current took] at refused
              cases refused
          | some tlv =>
              obtain ⟨outer, begun, rfl, outside, whole, pushes⟩ :=
                exists_header_of_announced ran current took
              rw [pushes] at refused
              rw [List.append_assoc]
              exact exceeds_of_beginElement outside whole refused

end Machine

/-! ## Sessions -/

namespace Session

variable {decoder : Decoder} {session after : Session} {read chunk : Bytes}

/-- A message takes no more octets than the size limit allows. -/
theorem Reads.length_le {message : Message} (reads : Reads decoder session read)
    (fed : feed decoder chunk session = .ok (some message) after) :
    ∃ taken, session.pending ++ chunk = taken ++ after.pending
      ∧ (read ++ taken).length ≤ decoder.limits.maxPduSize := by
  obtain ⟨taken, split, _⟩ := accounted_of_feed reads.machine_accounts fed
  refine ⟨taken, split, ?_⟩
  obtain ⟨others, same, _, delivered⟩ :=
    (Machine.run_meets _ (Machine.consistent_fresh decoder)).ok (reads.run_of_feed fed)
  rw [split, ← List.append_assoc] at same
  have same : read ++ taken = others := List.append_cancel_right same
  rw [same, ← Nat.zero_add others.length]
  exact delivered.fits

/-- An element that is found to exceed a limit does so, unless the reader of a control says so of
the value that has just been read. -/
theorem Reads.exceeds {limit : Limit} {bound actual : Nat} (reads : Reads decoder session read)
    (alive : session.poisoned = false)
    (failed : feed decoder chunk session = .error (.limitExceeded limit bound actual) after) :
    ∃ taken left, session.pending ++ chunk = taken ++ left
      ∧ (Exceeds decoder (read ++ taken) limit bound actual
        ∨ ReaderRefuses decoder (read ++ taken) (.limitExceeded limit bound actual)) := by
  obtain ⟨taken, octet, left, middle, split, ran, ways⟩ := reads.refused alive failed
  refine ⟨taken ++ [octet], left, split, ?_⟩
  rcases ways with refuses | refused
  · exact .inr refuses
  · rcases Machine.exceeds_of_push ran refused with exceeds | reports
    · rw [List.append_assoc] at exceeds
      exact .inl exceeds.of_masked
    · obtain ⟨oid, other⟩ := Registry.Reports.masked reports
      cases other

/-- **The limits are kept, and nothing else is refused for them.** Up to the first error the
elements that are open or under way are within the limits, and so is every message. A call
that finds a limit exceeded has read the octets up to the header of an element that exceeds
it, with the figures of the error, or up to the end of a control of which the reader has
returned this error for the value. -/
theorem Reachable.keeps_limits (reachable : Reachable decoder session)
    (alive : session.poisoned = false) :
    session.machine.Bounded decoder.limits
    ∧ (∃ read, Reads decoder session read)
    ∧ ∀ read, Reads decoder session read →
        (∀ chunk message after, feed decoder chunk session = .ok (some message) after →
          ∃ taken, session.pending ++ chunk = taken ++ after.pending
            ∧ (read ++ taken).length ≤ decoder.limits.maxPduSize)
        ∧ ∀ chunk limit bound actual after,
            feed decoder chunk session = .error (.limitExceeded limit bound actual) after →
              ∃ taken left, session.pending ++ chunk = taken ++ left
                ∧ (Exceeds decoder (read ++ taken) limit bound actual
                  ∨ ReaderRefuses decoder (read ++ taken) (.limitExceeded limit bound actual)) := by
  obtain ⟨octets, consistent⟩ := reachable.consistent alive
  refine ⟨consistent.bounded, reachable.exists_reads alive, fun read reads => ⟨?_, ?_⟩⟩
  · exact fun chunk message after => reads.length_le
  · exact fun chunk limit bound actual after => reads.exceeds alive

/-- A decoder whose limits a bind request of 14 octets just keeps to. -/
def tight : Decoder := { limits := { maxPduSize := 14, maxDepth := 2 } }

/-- The rest of a bind request with SASL credentials. -/
def saslHalf : Bytes := [0x02, 0x01, 0x03, 0x04, 0x00, 0xA3, 0x00]

theorem feed_tight :
    (match feed tight bindHalf {} with
      | .ok none after => !after.poisoned && after.pending.isEmpty && after.depth == 2
          && (match Machine.run tight saslHalf after.machine with
              | .error error _ => error == .limitExceeded .nestingDepth 2 3
              | _ => false)
      | _ => false) = true := by
  rw [feed_fresh]
  decide +kernel

/-- In the midst of the bind request two elements are open, as many as may be, so the
credentials that would be a third one are refused. -/
theorem Reachable.keeps_limits_bindRequest :
    ∃ after final, Reachable tight after ∧ after.machine.Bounded tight.limits ∧ after.depth = 2
      ∧ feed tight saslHalf after
          = .error (.limitExceeded .nestingDepth 2 3) final
      ∧ ∃ taken left, saslHalf = taken ++ left
          ∧ Exceeds tight (bindHalf ++ taken)
              .nestingDepth 2 3 := by
  have begun := feed_tight
  cases fed : feed tight bindHalf {} with
  | error error after => simp [fed] at begun
  | ok message after =>
      cases message with
      | some message => simp [fed] at begun
      | none =>
          simp only [fed, Bool.and_eq_true, Bool.not_eq_true', List.isEmpty_iff,
            beq_iff_eq] at begun
          obtain ⟨⟨⟨alive, nothing⟩, depth⟩, refused⟩ := begun
          have reads : Reads tight after bindHalf :=
            .waited .fresh fed (by rw [nothing]; rfl)
          have reachable : Reachable tight after := .fed .fresh fed
          obtain ⟨bounded, _, limits⟩ := Reachable.keeps_limits reachable alive
          split at refused
          · rename_i error machine ran
            obtain rfl := beq_iff_eq.1 refused
            have failed : feed tight saslHalf after
                = .error (.limitExceeded .nestingDepth 2 3) { machine, poisoned := true } := by
              rw [feed_eq_run alive reads.machine_accounts.waiting, nothing, List.nil_append, ran]
            refine ⟨after, _, reachable, bounded, depth, failed, ?_⟩
            obtain ⟨taken, left, split, exceeds | refuses⟩ := (limits _ reads).2 _ _ _ _ _ failed
            · rw [nothing, List.nil_append] at split
              exact ⟨taken, left, split, exceeds⟩
            · obtain ⟨oid, reader, content, known, returned⟩ := refuses.reports
              exact (Registry.builtin_orderly oid reader content known _ returned).elim
          · cases refused

end Session

end LdapWire
