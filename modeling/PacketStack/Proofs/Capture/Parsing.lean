import PacketStack.Capture.Buffer

/-!
Parsers that find all of a written capture file.

Main statements: `FileBuffer.faithful` says that the buffered parser is one of them, and
`FileBuffer.bounded` that it fails at a record which is larger than its buffer.
-/

namespace PacketStack

/-- The number of a link layer as the header of a file tells it, which has a sign. -/
def FileHeader.network (link : LinkType) : Int := (BitVec.ofNat 32 link.id.toNat).toInt

namespace BlockParser

variable {π : Type} [BlockParser π]

/-- What a parser finds behind the last block that it finds. -/
inductive Ending where
  | ended
  | flawed
  deriving DecidableEq, Repr

def Ending.found : Ending → Found
  | .ended => .ended
  | .flawed => .flawed

/-- A parser that finds blocks one after the other and then an ending. -/
inductive FindsUntil (ending : Ending) : π → List FileBlock → Prop where
  | nil {parser found : π} (met : find parser = (ending.found, found)) :
      FindsUntil ending parser []
  | block {parser found : π} {size : Nat} {block : FileBlock} {blocks : List FileBlock}
      (met : find parser = (.block size block, found))
      (others : FindsUntil ending (consume size found) blocks) :
      FindsUntil ending parser (block :: blocks)
  | more {parser found filled : π} {blocks : List FileBlock}
      (met : find parser = (.incomplete, found)) (refilled : refill found = some filled)
      (others : FindsUntil ending filled blocks) : FindsUntil ending parser blocks

/-- A parser of written files. With a buffer that has room for the header and a record at a time it
finds the header and then each record with its fields as they are stored. -/
def Faithful (π : Type) [BlockParser π] : Prop :=
  ∀ (precision : Precision) (snapLength : UInt32) (link : LinkType) (records : List CaptureRecord)
    (capacity : Nat), FileHeader.size ≤ capacity →
    (∀ record ∈ records, record.data.length < 0x100000000 ∧
      FileHeader.size + record.toBytes.length < capacity) →
    ∃ parser : π, start capacity (FileHeader.toBytes precision snapLength link ++
        records.flatMap CaptureRecord.toBytes) = some parser ∧
      FindsUntil .ended parser
        (.header precision.magic (FileHeader.network link) :: records.map .record)

/-- A parser that never grows its buffer. It finds the header of a written file and then records one
after the other, all of them if each leaves room in the buffer. Otherwise it may fail at one, and it
does if one is larger than the buffer. -/
def Bounded (π : Type) [BlockParser π] : Prop :=
  ∀ (precision : Precision) (snapLength : UInt32) (link : LinkType) (records : List CaptureRecord)
    (capacity : Nat), FileHeader.size ≤ capacity →
    (∀ record ∈ records, record.data.length < 0x100000000) →
    ∃ (parser : π) (front : List CaptureRecord) (ending : Ending),
      start capacity (FileHeader.toBytes precision snapLength link ++
        records.flatMap CaptureRecord.toBytes) = some parser ∧
      FindsUntil ending parser
        (.header precision.magic (FileHeader.network link) :: front.map .record) ∧
      front <+: records ∧ (ending = .ended ↔ front = records) ∧
      ((∀ record ∈ records, record.toBytes.length < capacity) → front = records) ∧
      (front = records → ∀ record ∈ records, record.toBytes.length ≤ capacity)

theorem Bounded.faithful (bounded : Bounded π) : Faithful π := by
  intro precision snapLength link records capacity large room
  rcases bounded precision snapLength link records capacity large
    (fun record member => (room record member).1) with
    ⟨parser, front, ending, started, finds, -, complete, fits, -⟩
  have whole : front = records := fits fun record member => by
    have room := (room record member).2
    omega
  rw [complete.mpr whole, whole] at finds
  exact ⟨parser, started, finds⟩

end BlockParser

namespace FileHeader

theorem length_toBytes (precision : Precision) (snapLength : UInt32) (link : LinkType) :
    (toBytes precision snapLength link).length = size := by
  simp only [toBytes, List.length_append, Bytes.length_ofNatLE, size]

theorem parse?_toBytes (precision : Precision) (snapLength : UInt32) (link : LinkType)
    (rest : Bytes) : parse? (toBytes precision snapLength link ++ rest) =
      some (precision.magic, .lowFirst, network link) := by
  have front : (toBytes precision snapLength link ++ rest).take 4 =
      Bytes.ofNatLE 4 precision.magic := by
    simp [toBytes, List.take_left']
  have magic : Bytes.toNatLE (Bytes.ofNatLE 4 precision.magic) = precision.magic := by
    cases precision <;> rfl
  have back : Bytes.window (toBytes precision snapLength link ++ rest) 20 4 =
      Bytes.ofNatLE 4 link.id.toNat := by
    simp [toBytes, Bytes.window_append_right, Bytes.window_append_left]
  have number : Bytes.toNatLE (Bytes.ofNatLE 4 link.id.toNat) = link.id.toNat := by
    rw [Bytes.toNatLE_ofNatLE]
    exact Nat.mod_eq_of_lt link.id.toNat_lt
  have large : ¬ (toBytes precision snapLength link ++ rest).length < size := by
    rw [List.length_append, length_toBytes]
    omega
  simp only [parse?, front, magic, ByteOrder.ofMagic?_magic, Option.bind_eq_bind,
    Option.bind_some, if_neg large, back, ByteOrder.read, number]
  rfl

end FileHeader

namespace CaptureRecord

theorem size_take (order : ByteOrder) (bytes : Bytes) {count : Nat} (whole : headerSize ≤ count) :
    size order (bytes.take count) = size order bytes := by
  have whole : 16 ≤ count := whole
  have length : (bytes.take count).length < headerSize ↔ bytes.length < headerSize := by
    rw [List.length_take, headerSize]
    omega
  rw [size, size, Bytes.window_take _ _ _ _ (by omega)]
  simp only [length]

theorem size_of_short {record : CaptureRecord} (small : record.data.length < 0x100000000)
    (rest : Bytes) {count : Nat} (short : count < record.toBytes.length) :
    count < size .lowFirst ((record.toBytes ++ rest).take count) ∧
      size .lowFirst ((record.toBytes ++ rest).take count) ≤ record.toBytes.length := by
  rw [length_toBytes] at short ⊢
  by_cases whole : headerSize ≤ count
  · rw [size_take _ _ whole, size_toBytes record rest small]
    exact ⟨short, Nat.le_refl _⟩
  · have bare : ((record.toBytes ++ rest).take count).length < headerSize := by
      rw [List.length_take]
      omega
    rw [size, if_pos bare]
    simp only [headerSize] at whole ⊢
    omega

end CaptureRecord

namespace FileBuffer

open BlockParser

/-- A buffer behind the header of a written file, of which these records are left. It may be too
small for some of them. -/
structure Behind (buffer : FileBuffer) (records : List CaptureRecord) : Prop where
  order : buffer.order = .lowFirst
  told : buffer.header = none
  capacity : FileHeader.size ≤ buffer.capacity
  bytes : buffer.held ++ buffer.unread = records.flatMap CaptureRecord.toBytes
  small : ∀ record ∈ records, record.data.length < 0x100000000

namespace Behind

variable {buffer : FileBuffer} {record : CaptureRecord} {records : List CaptureRecord}

theorem find_eq (behind : buffer.Behind records) : buffer.find = (buffer.findRecord, buffer) := by
  rw [find, behind.told]

theorem find_of_nil (behind : buffer.Behind []) : buffer.find = (.ended, buffer) := by
  rcases List.append_eq_nil_iff.mp behind.bytes with ⟨empty, done⟩
  have room : 24 ≤ buffer.capacity := behind.capacity
  have size : buffer.recordSize = 16 := by
    rw [recordSize, empty]
    rfl
  have short : buffer.held.length < buffer.recordSize := by
    rw [empty, size]
    decide
  rw [behind.find_eq, findRecord, if_pos short, if_neg (by omega),
    if_neg (not_not_intro done), if_pos empty]

theorem find_of_complete (behind : buffer.Behind (record :: records)) {rest : Bytes}
    (held : buffer.held = record.toBytes ++ rest) :
    buffer.find = (.block record.toBytes.length (.record record), buffer) := by
  have small := behind.small record List.mem_cons_self
  have size : buffer.recordSize = record.toBytes.length := by
    rw [recordSize, behind.order, held, CaptureRecord.size_toBytes record rest small,
      CaptureRecord.length_toBytes]
  have complete : ¬ buffer.held.length < buffer.recordSize := by
    rw [size, held, List.length_append]
    omega
  rw [behind.find_eq, findRecord, if_neg complete, size, behind.order, held,
    CaptureRecord.parse_toBytes record rest small]

theorem find_of_short (behind : buffer.Behind (record :: records))
    (short : buffer.held.length < record.toBytes.length) :
    buffer.find = (.incomplete, buffer) ∨
      buffer.capacity ≤ record.toBytes.length ∧ buffer.find = (.flawed, buffer) := by
  have bytes := behind.bytes
  rw [List.flatMap_cons] at bytes
  have held : buffer.held = (record.toBytes ++ records.flatMap CaptureRecord.toBytes).take
      buffer.held.length := by
    rw [← bytes, List.take_left]
  have limits := CaptureRecord.size_of_short (behind.small record List.mem_cons_self)
    (records.flatMap CaptureRecord.toBytes) short
  rw [← held, ← behind.order] at limits
  have few : buffer.held.length < buffer.recordSize := limits.1
  have most : buffer.recordSize ≤ record.toBytes.length := limits.2
  -- a file that had been read to its end would end within the record
  have more : buffer.unread ≠ [] := by
    intro done
    rw [done, List.append_nil] at bytes
    rw [bytes, List.length_append] at short
    omega
  rw [behind.find_eq, findRecord, if_pos few]
  by_cases large : buffer.capacity ≤ buffer.recordSize
  · exact .inr ⟨Nat.le_trans large most, by rw [if_pos large]⟩
  · exact .inl (by rw [if_neg large, if_pos more])

theorem front_of_whole (behind : buffer.Behind (record :: records))
    (whole : ¬ buffer.held.length < record.toBytes.length) :
    ∃ rest, buffer.held = record.toBytes ++ rest := by
  have front : record.toBytes <+: buffer.held :=
    List.prefix_of_prefix_length_le ⟨_, behind.bytes.symm⟩ ⟨_, rfl⟩ (Nat.le_of_not_lt whole)
  rcases front with ⟨rest, held⟩
  exact ⟨rest, held.symm⟩

theorem refill (behind : buffer.Behind records) : buffer.refill.Behind records where
  order := behind.order
  told := behind.told
  capacity := behind.capacity
  bytes := by
    rw [← behind.bytes, FileBuffer.refill, List.append_assoc, List.take_append_drop]
  small := behind.small

theorem consume (behind : buffer.Behind (record :: records)) {rest : Bytes}
    (held : buffer.held = record.toBytes ++ rest) :
    (buffer.consume record.toBytes.length).Behind records where
  order := behind.order
  told := behind.told
  capacity := behind.capacity
  bytes := by
    have bytes := behind.bytes
    rw [held, List.append_assoc, List.flatMap_cons] at bytes
    rw [FileBuffer.consume, held, List.drop_left, List.append_cancel_left bytes]
  small other member := behind.small other (List.mem_cons_of_mem _ member)

theorem finds (behind : buffer.Behind records) :
    FindsUntil .ended buffer (records.map .record) ∧
        (buffer.held.length ≤ buffer.capacity →
          ∀ record ∈ records, record.toBytes.length ≤ buffer.capacity) ∨
      ∃ front, front <+: records ∧ front ≠ records ∧
        FindsUntil .flawed buffer (front.map .record) ∧
        ∃ record ∈ records, buffer.capacity ≤ record.toBytes.length := by
  -- On what is left of the file: a record that is whole in the buffer is consumed, for one that is
  -- not the buffer is filled up.
  induction left : buffer.left using Nat.strongRecOn generalizing buffer records with
  | ind size ih =>
      cases records with
      | nil => exact .inl ⟨.nil behind.find_of_nil, fun _ _ none => nomatch none⟩
      | cons record records =>
          by_cases short : buffer.held.length < record.toBytes.length
          · rcases behind.find_of_short short with find | ⟨large, find⟩
            · have less : buffer.refill.left < size := left ▸ left_refill find
              rcases ih _ less behind.refill rfl with
                ⟨whole, room⟩ | ⟨front, before, part, broken, large⟩
              · refine .inl ⟨.more find rfl whole, fun filled => room ?_⟩
                simp only [FileBuffer.refill, List.length_append, List.length_take]
                omega
              · exact .inr ⟨front, before, part, .more find rfl broken, large⟩
            · exact .inr ⟨[], List.nil_prefix, List.cons_ne_nil _ _ |>.symm, .nil find, record,
                List.mem_cons_self, large⟩
          · rcases behind.front_of_whole short with ⟨rest, held⟩
            have find := behind.find_of_complete held
            have less : (buffer.consume record.toBytes.length).left < size :=
              left ▸ left_consume find
            rcases ih _ less (behind.consume held) rfl with
              ⟨whole, room⟩ | ⟨front, before, part, broken, other, member, large⟩
            · refine .inl ⟨.block find whole, fun filled => List.forall_mem_cons.mpr ⟨?_, room ?_⟩⟩
              · omega
              · simp only [FileBuffer.consume, List.length_drop]
                omega
            · exact .inr ⟨record :: front, List.cons_prefix_cons.mpr ⟨rfl, before⟩,
                fun same => part (List.cons.inj same).2, .block find broken, other,
                List.mem_cons_of_mem _ member, large⟩

end Behind

theorem start_toBytes (precision : Precision) (snapLength : UInt32) (link : LinkType)
    (rest : Bytes) {capacity : Nat} (large : FileHeader.size ≤ capacity) :
    start capacity (FileHeader.toBytes precision snapLength link ++ rest) = some
      { order := .lowFirst
        header := some (.header precision.magic (FileHeader.network link))
        capacity
        held := FileHeader.toBytes precision snapLength link ++
          rest.take (capacity - FileHeader.size)
        unread := rest.drop (capacity - FileHeader.size) } := by
  have length := FileHeader.length_toBytes precision snapLength link
  rw [start, List.take_append, List.drop_append, length, List.take_of_length_le (by omega),
    List.drop_eq_nil_of_le (by omega), FileHeader.parse?_toBytes]
  rfl

theorem exists_start_toBytes (precision : Precision) (snapLength : UInt32) (link : LinkType)
    {records : List CaptureRecord} {capacity : Nat} (large : FileHeader.size ≤ capacity)
    (small : ∀ record ∈ records, record.data.length < 0x100000000) :
    ∃ buffer behind : FileBuffer,
      start capacity (FileHeader.toBytes precision snapLength link ++
        records.flatMap CaptureRecord.toBytes) = some buffer ∧
      buffer.find =
        (.block FileHeader.size (.header precision.magic (FileHeader.network link)), behind) ∧
      (behind.consume FileHeader.size).Behind records ∧ behind.capacity = capacity ∧
      (behind.consume FileHeader.size).held.length ≤ capacity := by
  refine ⟨_, _, start_toBytes precision snapLength link _ large, rfl, ⟨rfl, rfl, large, ?_, small⟩,
    rfl, ?_⟩
  · change List.drop FileHeader.size _ ++ List.drop _ _ = _
    rw [List.drop_left' (FileHeader.length_toBytes precision snapLength link),
      List.take_append_drop]
  · change (List.drop FileHeader.size _).length ≤ _
    rw [List.drop_left' (FileHeader.length_toBytes precision snapLength link), List.length_take]
    omega

theorem bounded : Bounded FileBuffer := by
  intro precision snapLength link records capacity large small
  rcases exists_start_toBytes precision snapLength link large small with
    ⟨buffer, behind, started, header, left, rfl, filled⟩
  rcases left.finds with ⟨whole, room⟩ | ⟨front, before, part, broken, record, member, outgrown⟩
  · exact ⟨buffer, records, .ended, started, .block header whole, List.prefix_rfl,
      by simp, fun _ => rfl, fun _ => room filled⟩
  · refine ⟨buffer, front, .flawed, started, .block header broken, before, by simp [part],
      fun room => ?_, fun whole => absurd whole part⟩
    exact absurd (room record member) (Nat.not_lt_of_le outgrown)

theorem faithful : Faithful FileBuffer := bounded.faithful

end FileBuffer

end PacketStack
