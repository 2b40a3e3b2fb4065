import LdapWire.Proofs.Ber.Spelling
import LdapWire.Proofs.Ber.TwosComplement

/-!
# Elements one behind the other

An `Item` is a value with a writer and a reader of its own: a number, an enumerated value, a
truth value or an octet string. Items written one behind the other fill a buffer from its start
and leave what comes after them alone (`Writer.Within`), also where a write fails for lack of
room. The readers of the same kinds read them back (`Item.write_recovers`).

The writer takes numbers of 64 bits and the reader accepts numbers of four octets only. So an
item comes back if it is `Narrow`, and the first one that is not is refused (`Item.Recovers`).
-/

set_option autoImplicit false

namespace LdapWire.Ber

/-! ## Buffers -/

namespace Writer

/-- Whether a writer works on a buffer and has changed nothing from its position on. -/
structure Within (writer : Writer) (buffer : Bytes) : Prop where
  position_le : writer.position ≤ buffer.length
  length_eq : writer.buffer.length = buffer.length
  untouched : writer.buffer.drop writer.position = buffer.drop writer.position

variable {writer : Writer} {buffer content : Bytes} {step : Step Writer Unit}

theorem drop_buffer (writer : Writer) : writer.buffer.drop writer.position = writer.rest := by
  rw [buffer, position, List.reverseAux_eq, ← List.length_reverse, List.drop_left]

theorem take_buffer (writer : Writer) :
    writer.buffer.take writer.position = writer.written.reverse := by
  rw [buffer, position, List.reverseAux_eq, ← List.length_reverse, List.take_left]

theorem take_buffer_append (buffer content : Bytes) :
    ((ofBuffer buffer).append content).buffer.take ((ofBuffer buffer).append content).position
      = content := by
  rw [take_buffer, append, ofBuffer, List.reverseAux_eq, List.append_nil, List.reverse_reverse]

theorem within_ofBuffer (buffer : Bytes) : (ofBuffer buffer).Within buffer where
  position_le := Nat.zero_le _
  length_eq := rfl
  untouched := rfl

/-- Octets that fit leave alone what comes after them. -/
theorem Within.append (within : writer.Within buffer) (fits : content.length ≤ writer.remaining) :
    (writer.append content).Within buffer where
  position_le := by
    have size := within.length_eq
    rw [length_buffer] at size
    rw [position_append]
    omega
  length_eq := (length_buffer_append fits).trans within.length_eq
  untouched := by
    rw [drop_buffer, position_append, ← List.drop_drop, ← within.untouched, drop_buffer]
    rfl

/-- The writer that a step leaves, whether it fails or not. -/
def after (writer : Writer) (step : Step Writer Unit) : Writer :=
  match step writer with
  | .ok _ next | .error _ next => next

/-- A step that fails for lack of room leaves alone what comes after its octets. -/
theorem Fills.within (fills : Fills step content) (within : writer.Within buffer) :
    (writer.after step).Within buffer := by
  by_cases fits : content.length ≤ writer.remaining
  · rw [after, fills.writes writer fits]
    exact within.append fits
  · obtain ⟨_, front, failed, _, _, room⟩ := fills.overflows writer (Nat.not_le.1 fits)
    rw [after, failed]
    exact within.append room

end Writer

/-! ## Fields -/

/-- A reader of a field decodes the content of the element that it finds. -/
theorem Reader.field_append {α : Type} {tag : UInt8} (single : checkTag tag = .ok ())
    {content : Bytes} (fits : content.length < 256 ^ Length.maxOctets) (decode : Bytes → Codec α)
    (rest : Bytes) :
    (do Step.lift (decode (← expected tag)) : Reader α) (elementBytes tag content ++ rest)
      = Step.lift (decode content) rest :=
  Step.bind_of_ok _ ((expected_eq_ok_iff single).2 ⟨_, isElement_elementBytes fits tag, rfl⟩)

/-! ## Items -/

/-- A value that an element holds. -/
inductive Item where
  | integer (value : Int64)
  | enumerated (value : Int64)
  | boolean (value : Bool)
  | octets (content : Bytes)
deriving DecidableEq

namespace Item

/-- What a reader has to know of an item. -/
inductive Kind where
  | integer
  | enumerated
  | boolean
  | octets
deriving DecidableEq

def Kind.tag : Kind → UInt8
  | .integer => Tag.integer
  | .enumerated => Tag.enumerated
  | .boolean => Tag.boolean
  | .octets => Tag.octetString

def Kind.read : Kind → Reader Item
  | .integer => return .integer (← Reader.integer).toInt64
  | .enumerated => return .enumerated (← Reader.enumerated)
  | .boolean => return .boolean (← Reader.boolean)
  | .octets => return .octets (← Reader.octetString)

def kind : Item → Kind
  | .integer _ => .integer
  | .enumerated _ => .enumerated
  | .boolean _ => .boolean
  | .octets _ => .octets

def write : Item → Step Writer Unit
  | .integer value => Writer.writeInteger value.toInt
  | .enumerated value => Writer.writeEnumerated value.toInt
  | .boolean value => Writer.writeBoolean value
  | .octets content => Writer.writeOctetString content

/-- The content of the element that is written for an item. -/
def content : Item → Bytes
  | .integer value | .enumerated value => Integer.bytes value.toInt
  | .boolean value => Boolean.bytes value
  | .octets content => content

/-- The number of octets that an item takes: its tag, its length and its content. -/
def size (item : Item) : Nat := 1 + Length.width item.content.length + item.content.length

def bytes (item : Item) : Bytes := elementBytes item.kind.tag item.content

/-- Whether an item is no number beyond 32 bits. -/
def Narrow : Item → Prop
  | .integer value | .enumerated value => -2 ^ 31 ≤ value.toInt ∧ value.toInt < 2 ^ 31
  | .boolean _ | .octets _ => True

instance : (item : Item) → Decidable item.Narrow
  | .integer _ | .enumerated _ => inferInstanceAs (Decidable (_ ∧ _))
  | .boolean _ | .octets _ => .isTrue trivial

/-- Whether the length of an item fits into four octets. -/
def Short : Item → Prop
  | .octets content => content.length < 2 ^ 32
  | .integer _ | .enumerated _ | .boolean _ => True

variable {item : Item} {items : List Item}

/-! ### Writing -/

theorem fills_write (item : Item) : Writer.Fills item.write item.bytes := by
  cases item <;> exact Writer.fills_element _ _

theorem fills_forM (items : List Item) : Writer.Fills (items.forM write) (items.flatMap bytes) := by
  induction items with
  | nil => exact .pure
  | cons item items fills => exact (fills_write item).bind fills

theorem length_flatMap_bytes (items : List Item) :
    (items.flatMap bytes).length = (items.map size).sum := by
  rw [List.length_flatMap]
  exact congrArg List.sum (List.map_congr_left fun item _ => length_elementBytes _ item.content)

/-- The writer after a call for an item, whether the call fails or not. -/
def next (writer : Writer) (item : Item) : Writer := writer.after item.write

/-- Calls one after the other keep to the buffer, also where some of them fail. -/
theorem within_foldl {writer : Writer} {buffer : Bytes} (within : writer.Within buffer) :
    (items.foldl next writer).Within buffer := by
  induction items generalizing writer with
  | nil => exact within
  | cons item items further => exact further ((fills_write item).within within)

/-! ### Reading -/

theorem length_integer_lt (value : Int64) :
    (Integer.bytes value.toInt).length < 256 ^ Length.maxOctets := by
  rw [Integer.length_bytes]
  exact Nat.lt_of_le_of_lt (Integer.byteWidth_toInt_le_eight value) (by decide)

theorem byteWidth_le_maxSize_iff {value : Int64} :
    Integer.byteWidth value.toInt ≤ Integer.maxSize
      ↔ -2 ^ 31 ≤ value.toInt ∧ value.toInt < 2 ^ 31 :=
  Integer.byteWidth_le_iff_of_pos (by decide)

/-- A number of 32 bits fits into the type that its reader returns. -/
theorem toInt_toInt32 {value : Int64} (narrow : (integer value).Narrow) :
    value.toInt32.toInt = value.toInt := by
  obtain ⟨low, high⟩ := narrow
  rw [Int64.toInt_toInt32]
  exact Int.bmod_eq_of_le (by omega) (by omega)

/-- An item that is no number beyond 32 bits is read back from its octets. -/
theorem Narrow.read_bytes (narrow : item.Narrow) (short : item.Short) (rest : Bytes) :
    item.kind.read (item.bytes ++ rest) = .ok item rest := by
  cases item with
  | integer value =>
      have kept := toInt_toInt32 narrow
      have number := isNumber_elementBytes (byteWidth_le_maxSize_iff.2 narrow) Tag.integer
      rw [← kept] at number
      have read : Reader.integer ((integer value).bytes ++ rest) = .ok value.toInt32 rest := by
        rw [bytes, content, ← kept]
        exact Reader.integer_eq_ok_iff.2 ⟨_, number, rfl⟩
      have same : value.toInt32.toInt64 = value := by
        rw [← Int64.toInt_inj, Int32.toInt_toInt64, kept]
      refine (Step.bind_of_ok _ read).trans ?_
      rw [same]
      rfl
  | enumerated value =>
      have number := isNumber_elementBytes (byteWidth_le_maxSize_iff.2 narrow) Tag.enumerated
      exact Step.bind_of_ok _ (Reader.enumerated_eq_ok_iff.2 ⟨_, number, rfl⟩)
  | boolean value =>
      exact Step.bind_of_ok _ (Reader.boolean_eq_ok_iff.2 ⟨_, isTruth_elementBytes value, rfl⟩)
  | octets content =>
      have element := isElement_elementBytes short Tag.octetString
      exact Step.bind_of_ok _ (Reader.octetString_eq_ok_iff.2 ⟨_, element, rfl⟩)

theorem decode_of_wide {value : Int64}
    (wide : ¬ (-2 ^ 31 ≤ value.toInt ∧ value.toInt < 2 ^ 31)) :
    ∃ corruption, Integer.decode (Integer.bytes value.toInt) Integer.maxSize
      = .error (.corrupt corruption) := by
  have decoded := Integer.decode_bytes value Integer.maxSize
  rwa [if_neg (mt byteWidth_le_maxSize_iff.1 wide)] at decoded

/-- A number beyond 32 bits is refused when all its octets are consumed. -/
theorem read_bytes_of_not_narrow (wide : ¬ item.Narrow) (rest : Bytes) :
    ∃ corruption, item.kind.read (item.bytes ++ rest) = .error (.corrupt corruption) rest := by
  cases item with
  | integer value =>
      obtain ⟨corruption, failed⟩ := decode_of_wide wide
      have bounded : Integer.decodeBounded (Integer.bytes value.toInt)
          = .error (.corrupt corruption) := by
        rw [Integer.decodeBounded, failed]
        rfl
      have read : Reader.integer ((integer value).bytes ++ rest) = _ :=
        Reader.field_append rfl (length_integer_lt value) Integer.decodeBounded rest
      rw [bounded] at read
      exact ⟨corruption, Step.bind_of_error _ read⟩
  | enumerated value =>
      obtain ⟨corruption, failed⟩ := decode_of_wide wide
      have read : Reader.enumerated ((enumerated value).bytes ++ rest) = _ :=
        Reader.field_append rfl (length_integer_lt value) Integer.decodeEnumerated rest
      rw [Integer.decodeEnumerated, failed] at read
      exact ⟨corruption, Step.bind_of_error _ read⟩
  | boolean _ => exact absurd trivial wide
  | octets _ => exact absurd trivial wide

/-- The octets of items are read back one behind the other. -/
theorem mapM_read (narrow : ∀ item ∈ items, item.Narrow) (short : ∀ item ∈ items, item.Short)
    (rest : Bytes) :
    (items.map kind).mapM Kind.read (items.flatMap bytes ++ rest) = .ok items rest := by
  induction items with
  | nil => rfl
  | cons item items further =>
      obtain ⟨first, others⟩ := List.forall_mem_cons.1 narrow
      obtain ⟨firstShort, othersShort⟩ := List.forall_mem_cons.1 short
      rw [List.map_cons, List.mapM_cons, List.flatMap_cons, List.append_assoc,
        Step.bind_of_ok _ (first.read_bytes firstShort _),
        Step.bind_of_ok _ (further others othersShort)]
      rfl

/-- Whether octets are read as items: all of them and nothing else if none is a number beyond
32 bits, or else those before the first such number, which is refused. -/
structure Recovers (written : Bytes) (items : List Item) : Prop where
  all : (∀ item ∈ items, item.Narrow) →
    (do let read ← (items.map kind).mapM Kind.read; Reader.finish; return read) written
      = .ok items []
  refused : ∀ front item back, items = front ++ item :: back →
    (∀ earlier ∈ front, earlier.Narrow) → ¬ item.Narrow →
    ∃ left corruption, (front.map kind).mapM Kind.read written = .ok front left
      ∧ item.kind.read left = .error (.corrupt corruption) (back.flatMap bytes)

theorem recovers_bytes (short : ∀ item ∈ items, item.Short) :
    Recovers (items.flatMap bytes) items where
  all := fun narrow => by
    have read := mapM_read narrow short []
    rw [List.append_nil] at read
    rw [Step.bind_of_ok _ read]
    rfl
  refused := by
    rintro front item back rfl narrow wide
    have earlier := fun earlier held => short earlier (List.mem_append_left _ held)
    have read := mapM_read narrow earlier (item.bytes ++ back.flatMap bytes)
    obtain ⟨corruption, refused⟩ := read_bytes_of_not_narrow wide (back.flatMap bytes)
    rw [List.flatMap_append, List.flatMap_cons]
    exact ⟨_, corruption, read, refused⟩

/-! ## Both directions -/

/-- **Items are read back as they were written.** A buffer with room for them takes them all,
the position moves on by their sizes, and the octets before it are read as the items. In a
smaller buffer a write fails for lack of room, with a front of their octets written. No sequence
of calls, failures among them, leaves the buffer or changes what comes after the position. -/
theorem write_recovers (items : List Item) (short : ∀ item ∈ items, item.Short) (buffer : Bytes) :
    ((items.map size).sum ≤ buffer.length →
      ∃ after, items.forM write (.ofBuffer buffer) = .ok () after
        ∧ after.position = (items.map size).sum ∧ after.Within buffer
        ∧ Recovers (after.buffer.take after.position) items)
    ∧ (buffer.length < (items.map size).sum →
      ∃ needed after,
        items.forM write (.ofBuffer buffer) = .error (.bufferTooSmall needed buffer.length) after
          ∧ buffer.length < needed ∧ after.Within buffer
          ∧ after.buffer.take after.position <+: items.flatMap bytes)
    ∧ ∀ calls : List Item, (calls.foldl next (.ofBuffer buffer)).Within buffer := by
  have fresh := Writer.within_ofBuffer buffer
  have length := length_flatMap_bytes items
  refine ⟨fun fits => ?_, fun lacking => ?_, fun calls => within_foldl fresh⟩
  · have room : (items.flatMap bytes).length ≤ buffer.length := length.trans_le fits
    refine ⟨_, (fills_forM items).writes _ room, ?_, fresh.append room, ?_⟩
    · rw [Writer.position_append, length]
      exact Nat.zero_add _
    · rw [Writer.take_buffer_append]
      exact recovers_bytes short
  · obtain ⟨needed, front, failed, more, begun, room⟩ :=
      (fills_forM items).overflows (.ofBuffer buffer) (lacking.trans_eq length.symm)
    refine ⟨needed, _, failed, more, fresh.append room, ?_⟩
    rwa [Writer.take_buffer_append]

/-- An octet string comes back and a number of 33 bits behind it is refused. A buffer of eight
octets is too small for the two. -/
theorem write_recovers_wide :
    (∀ item ∈ [octets [0x68, 0x69], enumerated 0x80000000], item.Short)
    ∧ ([octets [0x68, 0x69], enumerated 0x80000000].map size).sum = 11
    ∧ (∃ after left corruption,
      [octets [0x68, 0x69], enumerated 0x80000000].forM write (.ofBuffer (List.replicate 16 0))
          = .ok () after
        ∧ after.position = 11
        ∧ [Kind.octets].mapM Kind.read (after.buffer.take 11) = .ok [octets [0x68, 0x69]] left
        ∧ Kind.enumerated.read left = .error (.corrupt corruption) [])
    ∧ ∃ needed after,
      [octets [0x68, 0x69], enumerated 0x80000000].forM write (.ofBuffer (List.replicate 8 0))
        = .error (.bufferTooSmall needed 8) after := by
  have short : ∀ item ∈ [octets [0x68, 0x69], enumerated 0x80000000], item.Short := by
    simp [Short]
  have sizes : ([octets [0x68, 0x69], enumerated 0x80000000].map size).sum = 11 := by decide
  refine ⟨short, sizes, ?_, ?_⟩
  · obtain ⟨after, wrote, position, _, recovers⟩ :=
      (write_recovers _ short (List.replicate 16 0)).1 (by rw [sizes]; decide)
    rw [sizes] at position
    obtain ⟨left, corruption, read, refused⟩ :=
      recovers.refused [octets [0x68, 0x69]] (enumerated 0x80000000) [] rfl
        (by simp [Narrow]) (by decide)
    rw [position] at read
    exact ⟨after, left, corruption, wrote, position, read, refused⟩
  · obtain ⟨needed, after, failed, _⟩ :=
      (write_recovers _ short (List.replicate 8 0)).2.1 (by rw [sizes]; decide)
    exact ⟨needed, after, failed⟩

end Item

end LdapWire.Ber
