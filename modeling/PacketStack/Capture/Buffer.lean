import PacketStack.Capture.Parser

/-!
A parser of capture files, whose buffer has to hold a record at a time.
-/

namespace PacketStack

structure FileBuffer where
  order : ByteOrder
  /-- The header of the file, until it has been found. -/
  header : Option FileBlock
  /-- The size of the buffer. -/
  capacity : Nat
  /-- The bytes in the buffer. -/
  held : Bytes
  /-- The bytes that are still to be read into the buffer. -/
  unread : Bytes
  deriving DecidableEq, Repr

namespace FileBuffer

def start (capacity : Nat) (file : Bytes) : Option FileBuffer := do
  let held := file.take capacity
  let (magic, order, network) ← FileHeader.parse? held
  return ⟨order, some (.header magic network), capacity, held, file.drop capacity⟩

def recordSize (buffer : FileBuffer) : Nat := CaptureRecord.size buffer.order buffer.held

def findRecord (buffer : FileBuffer) : Found :=
  if buffer.held.length < buffer.recordSize then
    if buffer.capacity ≤ buffer.recordSize then .flawed
    else if buffer.unread ≠ [] then .incomplete
    else if buffer.held = [] then .ended
    else .flawed
  else .block buffer.recordSize (.record (CaptureRecord.parse buffer.order buffer.held).1)

def find (buffer : FileBuffer) : Found × FileBuffer :=
  match buffer.header with
  | some header => (.block FileHeader.size header, { buffer with header := none })
  | none => (buffer.findRecord, buffer)

def consume (size : Nat) (buffer : FileBuffer) : FileBuffer :=
  { buffer with held := buffer.held.drop size }

def refill (buffer : FileBuffer) : FileBuffer :=
  let room := buffer.capacity - buffer.held.length
  { buffer with held := buffer.held ++ buffer.unread.take room, unread := buffer.unread.drop room }

def left (buffer : FileBuffer) : Nat :=
  buffer.header.toList.length + buffer.held.length + 2 * buffer.unread.length

theorem recordSize_pos (buffer : FileBuffer) : 0 < buffer.recordSize :=
  CaptureRecord.size_pos buffer.order buffer.held

theorem size_le_of_findRecord {buffer : FileBuffer} {size : Nat} {block : FileBlock}
    (met : buffer.findRecord = .block size block) :
    size = buffer.recordSize ∧ size ≤ buffer.held.length := by
  unfold findRecord at met
  split at met
  · split at met
    · cases met
    · split at met
      · cases met
      · split at met <;> cases met
  · rename_i complete
    cases met
    exact ⟨rfl, Nat.le_of_not_lt complete⟩

theorem room_of_findRecord {buffer : FileBuffer} (met : buffer.findRecord = .incomplete) :
    buffer.held.length < buffer.capacity ∧ buffer.unread ≠ [] := by
  unfold findRecord at met
  split at met
  · split at met
    · cases met
    · split at met
      · rename_i more
        exact ⟨by omega, more⟩
      · split at met <;> cases met
  · cases met

theorem left_consume {buffer found : FileBuffer} {size : Nat} {block : FileBlock}
    (met : buffer.find = (.block size block, found)) :
    (found.consume size).left < buffer.left := by
  unfold find at met
  split at met
  · rename_i header known
    cases met
    simp only [left, consume, known, Option.toList_none, Option.toList_some, List.length_nil,
      List.length_singleton, List.length_drop]
    omega
  · injection met with met same
    have positive := buffer.recordSize_pos
    rcases size_le_of_findRecord met with ⟨whole, inside⟩
    rw [← same]
    simp only [left, consume, List.length_drop]
    omega

theorem left_refill {buffer found : FileBuffer} (met : buffer.find = (.incomplete, found)) :
    found.refill.left < buffer.left := by
  unfold find at met
  split at met
  · cases met
  · injection met with met same
    rcases room_of_findRecord met with ⟨room, more⟩
    have positive : 0 < buffer.unread.length := List.length_pos_iff.mpr more
    rw [← same]
    simp only [left, refill, List.length_append, List.length_take, List.length_drop]
    omega

instance : BlockParser FileBuffer where
  start := start
  find := find
  consume := consume
  refill buffer := some buffer.refill
  left := left
  left_consume := left_consume
  left_refill met filled := by
    cases filled
    exact left_refill met

end FileBuffer

end PacketStack
