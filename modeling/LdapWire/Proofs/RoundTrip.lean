import LdapWire.Proofs.Encode.Planned
import LdapWire.Proofs.Path.Message
import LdapWire.Proofs.Path.Run
import LdapWire.Proofs.Session.Reachable

/-!
# There and back again

A session accepts what the encoder makes of a well-formed message and returns that
message, if and only if the octets keep within the limits of the decoder
(`Message.encode_accepted_iff`). Whatever else a session accepts is no shorter than
what the encoder makes of the result (`Session.Accepts.reencode`).
-/

set_option autoImplicit false

namespace LdapWire

open Ber

/-- Whether a fresh session makes a message of some octets, and of all of them. -/
def Session.Accepts (decoder : Decoder) (octets : Bytes) (message : Message) : Prop :=
  ∃ after, Session.feed decoder octets {} = .ok (some message) after
    ∧ after.hasPartialMessage = false

/-- Whether the encoding of a message keeps within the limits of a decoder. -/
structure Message.Within (message : Message) (limits : Limits) : Prop where
  size : message.layout.size ≤ limits.maxPduSize
  depth : message.layout.height ≤ limits.maxDepth
  /-- The length of the outermost element fits into as many octets as are accepted. -/
  content : message.layout.contentSize < 256 ^ Length.maxOctets

namespace Message

variable {registry : Registry} {message : Message} {limits : Limits}

/-! ## Reading what was written -/

/-- No payload is larger than the message around it. -/
theorem short_of_contentSize (permitted : message.layout.Permitted)
    (small : message.layout.contentSize < 256 ^ Length.maxOctets) :
    ∀ control ∈ message.controls, control.Short := by
  intro control listed payload carried
  have inControl : Plan.elementLength payload.encodedLength ≤ control.layout.size := by
    obtain ⟨nonempty, matching⟩ := Control.permitted_layout_iff.1
      ((permitted_layout_iff.1 permitted).2 control listed)
    rw [Control.layout_eq nonempty matching, carried,
      Layout.size_constructed, Layout.sizeAll_append, ControlValue.layouts, Layout.sizeAll_cons,
      Layout.sizeAll_cons, Layout.sizeAll_nil, Layout.size_payload]
    exact Nat.le_trans (by omega) (Plan.le_elementLength _)
  have inControls : control.layout.size ≤ Layout.sizeAll (Control.layoutAll message.controls) := by
    have present : ¬ message.controls.isEmpty = true := by
      rw [List.isEmpty_iff]
      exact List.ne_nil_of_mem listed
    have among := Layout.size_le_sizeAll (List.mem_map_of_mem (f := Control.layout) listed)
    rw [Control.layoutAll, if_neg present, Layout.sizeAll_cons, Layout.sizeAll_nil,
      Layout.size_constructed]
    exact Nat.le_trans among (Plan.le_elementLength _)
  have inMessage : Layout.sizeAll (Control.layoutAll message.controls)
      ≤ message.layout.contentSize := by
    rw [Message.layout, Layout.contentSize, Layout.sizeAll_cons, Layout.sizeAll_cons]
    omega
  have whole := Plan.le_elementLength payload.encodedLength
  omega

/-- A fresh machine returns the message of which it is fed the encoding, if its registry
makes the controls. -/
theorem run_bytes_of_made (valid : message.operation.WellFormed)
    (sound : ∀ control ∈ message.controls, control.layout.Sound)
    (made : ∀ control ∈ message.controls, registry.reread control = .ok control)
    (within : message.Within limits) :
    Machine.run { registry, limits } message.layout.bytes {} = .ok (some message, []) {} := by
  obtain ⟨last, complete, path⟩ := Message.path valid sound made
  have size := within.size
  have depth := within.depth
  rw [Message.layout, Layout.size_constructed] at size
  rw [Message.layout, Layout.height_constructed] at depth
  exact Machine.run_sequence path complete rfl size within.content depth

/-- The built-in registry makes the controls of a well-formed message. -/
theorem run_bytes (valid : message.WellFormed) (within : message.Within limits) :
    Machine.run { limits } message.layout.bytes {} = .ok (some message, []) {} := by
  obtain ⟨permitted, _⟩ := Layout.sound_iff.1 (Message.sound valid)
  have short := short_of_contentSize permitted within.content
  exact run_bytes_of_made valid.operation
    (fun control listed => Control.sound (valid.controls control listed))
    (fun control listed =>
      Registry.readControl_sent (valid.controls control listed) (short control listed))
    within

end Message

/-! ## What a session accepts -/

namespace Session

variable {decoder : Decoder} {octets : Bytes} {message : Message}

theorem accepts_of_run (ran : Machine.run decoder octets {} = .ok (some message, []) {}) :
    Accepts decoder octets message := by
  refine ⟨{}, ?_, rfl⟩
  rw [feed_fresh, ran]

theorem pending_of_whole {session : Session} (whole : session.hasPartialMessage = false) :
    session.pending = [] := by
  simp only [hasPartialMessage, Bool.or_eq_false_iff, Bool.not_eq_false',
    List.isEmpty_iff] at whole
  exact whole.2

/-- A message that a session accepts is made of all of the octets. -/
theorem Accepts.delivered (accepts : Accepts decoder octets message) :
    message.Delivered decoder octets.length := by
  obtain ⟨after, fed, whole⟩ := accepts
  have meets := Machine.run_meets octets (Machine.consistent_fresh decoder)
  rw [feed_fresh] at fed
  cases ran : Machine.run decoder octets {} with
  | error error machine =>
      rw [ran] at fed
      cases fed
  | ok result machine =>
      obtain ⟨returned, left⟩ := result
      rw [ran] at fed
      cases fed
      obtain ⟨taken, split, _, delivered⟩ := meets.ok ran
      have nothing : left = [] := pending_of_whole whole
      rw [split, nothing, List.append_nil]
      rwa [Nat.zero_add] at delivered

/-- The built-in registry makes well-formed messages only. -/
theorem Accepts.wellFormed {limits : Limits} (accepts : Accepts { limits } octets message) :
    message.WellFormed where
  operation := accepts.delivered.operation
  controls control listed := (accepts.delivered.controls control listed).wellFormed

/-- There is one message at most that a session makes of some octets. -/
theorem Accepts.unique {other : Message} (accepts : Accepts decoder octets message)
    (accepts' : Accepts decoder octets other) : other = message := by
  obtain ⟨after, fed, _⟩ := accepts
  obtain ⟨after', fed', _⟩ := accepts'
  rw [fed] at fed'
  cases fed'
  rfl

end Session

/-! ## Round trips -/

/-- **There and back**: a well-formed message can be encoded, and a session makes that
message of the octets, if and only if the decoder has room for them. -/
theorem Message.encode_accepted_iff {message : Message} (valid : message.WellFormed) :
    ∃ octets, message.encode = .ok octets ∧ octets.length = message.layout.size
      ∧ ∀ limits, Session.Accepts { limits } octets message ↔ message.Within limits := by
  have sound := Message.sound valid
  have size := Layout.length_bytes sound
  refine ⟨message.layout.bytes, Message.encode_of_sound sound, size, fun limits =>
    ⟨fun accepts => ?_, fun within => Session.accepts_of_run (Message.run_bytes valid within)⟩⟩
  have delivered := accepts.delivered
  exact
    { size := size ▸ delivered.fits
      depth := delivered.height
      content := delivered.content Registry.builtin_compact }

/-- A search with a nested filter and a control. -/
def Message.pagedSearch : Message where
  id := 7
  operation := .searchRequest
    { base := "dc=example", scope := .wholeSubtree,
      filter := .and [.present "cn", .not (.present "sn")] }
  controls := [.ofPayload true (.paged { size := 10 })]

/-- The search is sent and received. -/
theorem Message.encode_accepted_iff_search :
    ∃ octets, pagedSearch.encode = .ok octets ∧ Session.Accepts {} octets pagedSearch := by
  have valid : pagedSearch.WellFormed :=
    { operation := ⟨by decide, by decide, by simp [Filter.WellFormed, Filter.AllWellFormed]⟩
      controls := by
        intro control listed
        obtain rfl := List.mem_singleton.1 listed
        exact ⟨by decide, rfl, by decide⟩ }
  obtain ⟨octets, encoded, _, accepted⟩ := Message.encode_accepted_iff valid
  refine ⟨octets, encoded, (accepted {}).2 ⟨?_, ?_, ?_⟩⟩
  · decide +kernel
  · decide +kernel
  · decide +kernel

/-- **And back again**: what a session makes of some octets can be encoded, in no more
octets than these. A session makes the same message of the encoding, and encoding what
any session makes of it changes nothing. -/
theorem Session.Accepts.reencode {limits : Limits} {octets : Bytes} {message : Message}
    (accepts : Session.Accepts { limits } octets message) :
    ∃ shortest, message.encode = .ok shortest ∧ shortest.length ≤ octets.length
      ∧ Session.Accepts { limits } shortest message
      ∧ ∀ other, Session.Accepts { limits } shortest other →
          other = message ∧ other.encode = .ok shortest := by
  have valid := accepts.wellFormed
  have delivered := accepts.delivered
  have compact := Registry.builtin_compact
  have sound := Message.sound valid
  have size := Layout.length_bytes sound
  have encoded := Message.encode_of_sound sound
  have shorter : message.layout.size ≤ octets.length := delivered.size compact
  have within : message.Within limits :=
    { size := Nat.le_trans shorter delivered.fits
      depth := delivered.height
      content := delivered.content compact }
  have again : Session.Accepts { limits } message.layout.bytes message :=
    Session.accepts_of_run (Message.run_bytes valid within)
  refine ⟨message.layout.bytes, encoded, size ▸ shorter, again, fun other accepts' => ?_⟩
  obtain rfl := again.unique accepts'
  exact ⟨rfl, encoded⟩

/-- A request to unbind. -/
def Message.unbind : Message := { id := 5, operation := .unbindRequest }

/-- The request in octets of which both lengths and the identifier are longer than need be. -/
def Session.longUnbind : Bytes := [0x30, 0x81, 0x07, 0x02, 0x02, 0x00, 0x05, 0x42, 0x81, 0x00]

theorem Session.feed_longUnbind :
    (match Session.feed {} longUnbind {} with
      | .ok (some message) after => message == .unbind && !after.hasPartialMessage
      | _ => false) = true := by
  rw [feed_fresh]
  decide +kernel

theorem Session.accepts_longUnbind : Session.Accepts {} longUnbind .unbind := by
  have received := feed_longUnbind
  split at received
  · rename_i message after fed
    simp only [Bool.and_eq_true, beq_iff_eq, Bool.not_eq_true'] at received
    obtain ⟨rfl, whole⟩ := received
    exact ⟨after, fed, whole⟩
  · cases received

/-- The request is accepted, and sent on in octets that are accepted as well. -/
theorem Session.Accepts.reencode_unbind :
    Session.Accepts {} longUnbind .unbind
      ∧ ∃ shortest, Message.unbind.encode = .ok shortest ∧ shortest.length ≤ longUnbind.length
        ∧ Session.Accepts {} shortest .unbind := by
  obtain ⟨shortest, encoded, shorter, again, _⟩ := Session.Accepts.reencode accepts_longUnbind
  exact ⟨accepts_longUnbind, shortest, encoded, shorter, again⟩

end LdapWire
