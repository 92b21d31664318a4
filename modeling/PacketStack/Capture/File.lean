import PacketStack.Bytes
import PacketStack.Capture.Error
import PacketStack.Packet

/-!
The format of capture files: a header, then one record for each frame.

A file is written with the lowest byte of each number first; the number at its start tells a reader
in which order its bytes stand and how precise its times are.

Main statement: `parse_toBytes` reads a written record back and leaves the bytes behind it.
-/

namespace PacketStack

/-- A frame as it was captured. -/
structure CapturedFrame where
  bytes : Bytes
  link : LinkType
  time : Instant
  deriving DecidableEq, Repr

def CapturedFrame.packet (frame : CapturedFrame) : Outcome Packet :=
  Packet.ofLinkBytes frame.link frame.bytes

structure CaptureConfig where
  /-- The most bytes of a frame that are written. -/
  snapLength : UInt32 := 65535
  /-- The size of the buffer of a reader, which must hold a record. -/
  bufferCapacity : Nat := 65536
  /-- The precision of files that are written. -/
  precision : Precision := .microsecond
  deriving DecidableEq, Repr

inductive ByteOrder where
  | lowFirst
  | highFirst
  deriving DecidableEq, Repr

def ByteOrder.read : ByteOrder → Bytes → Nat
  | .lowFirst => Bytes.toNatLE
  | .highFirst => Bytes.toNatBE

namespace ByteOrder

def ofMagic? (magic : Nat) : Option ByteOrder :=
  if magic = 0xa1b2c3d4 ∨ magic = 0xa1b23c4d then some .lowFirst
  else if magic = 0xd4c3b2a1 ∨ magic = 0x4d3cb2a1 then some .highFirst
  else none

@[simp] theorem ofMagic?_magic (precision : Precision) :
    ofMagic? precision.magic = some .lowFirst := by
  cases precision <;> rfl

end ByteOrder

namespace Precision

def ofMagic (magic : Nat) : Precision :=
  if magic = 0xa1b23c4d ∨ magic = 0x4d3cb2a1 then .nanosecond else .microsecond

@[simp] theorem ofMagic_magic (precision : Precision) : ofMagic precision.magic = precision := by
  cases precision <;> rfl

end Precision

namespace FileHeader

def size : Nat := 24

/-- The header of a file for frames of a link layer. -/
def toBytes (precision : Precision) (snapLength : UInt32) (link : LinkType) : Bytes :=
  Bytes.ofNatLE 4 precision.magic ++ (Bytes.ofNatLE 2 2 ++ (Bytes.ofNatLE 2 4 ++
    (Bytes.ofNatLE 4 0 ++ (Bytes.ofNatLE 4 0 ++ (Bytes.ofNatLE 4 snapLength.toNat ++
      Bytes.ofNatLE 4 link.id.toNat)))))

def parse? (bytes : Bytes) : Option (Nat × ByteOrder × Int) := do
  let magic := Bytes.toNatLE (bytes.take 4)
  let order ← ByteOrder.ofMagic? magic
  if bytes.length < size then none
  else return (magic, order, (BitVec.ofNat 32 (order.read (bytes.window 20 4))).toInt)

end FileHeader

/-- A frame in a file. -/
structure CaptureRecord where
  seconds : UInt32
  /-- The units of the precision of the file after the last whole second. -/
  fraction : UInt32
  /-- The size of the frame, of which fewer bytes may have been kept. -/
  frameSize : UInt32
  data : Bytes
  deriving DecidableEq, Repr

namespace CaptureRecord

def toBytes (record : CaptureRecord) : Bytes :=
  Bytes.ofNatLE 4 record.seconds.toNat ++ (Bytes.ofNatLE 4 record.fraction.toNat ++
    (Bytes.ofNatLE 4 record.data.length ++ (Bytes.ofNatLE 4 record.frameSize.toNat ++ record.data)))

def headerSize : Nat := 16

def size (order : ByteOrder) (bytes : Bytes) : Nat :=
  headerSize + if bytes.length < headerSize then 0 else order.read (bytes.window 8 4)

theorem size_pos (order : ByteOrder) (bytes : Bytes) : 0 < size order bytes :=
  Nat.add_pos_left (by decide) _

def parse (order : ByteOrder) (bytes : Bytes) : CaptureRecord × Bytes :=
  let number (offset : Nat) := (order.read (bytes.window offset 4)).toUInt32
  let size := size order bytes
  (⟨number 0, number 4, number 12, bytes.window headerSize (size - headerSize)⟩,
    bytes.drop size)

def time (record : CaptureRecord) (precision : Precision) : Instant :=
  .ofSeconds record.seconds.toNat (min (record.fraction.toNat * precision.unit) 0xffffffff : Nat)

def ofFrame (bytes : Bytes) (time : Instant) (precision : Precision) (snapLength : UInt32) :
    CaptureRecord where
  seconds := time.seconds.toUInt32
  fraction := (time.fraction / precision.unit).toUInt32
  frameSize := bytes.length.toUInt32
  data := bytes.take snapLength.toNat

@[simp] theorem length_toBytes (record : CaptureRecord) :
    record.toBytes.length = 16 + record.data.length := by
  simp only [toBytes, List.length_append, Bytes.length_ofNatLE]
  omega

theorem size_toBytes (record : CaptureRecord) (rest : Bytes)
    (short : record.data.length < 0x100000000) :
    size .lowFirst (record.toBytes ++ rest) = 16 + record.data.length := by
  have long : ¬ (record.toBytes ++ rest).length < 16 := by
    simp only [List.length_append, length_toBytes]
    omega
  have length : Bytes.window (record.toBytes ++ rest) 8 4 = Bytes.ofNatLE 4 record.data.length := by
    simp [toBytes, Bytes.window_append_right, Bytes.window_append_left]
  simp only [size, headerSize, if_false, long, ByteOrder.read, length,
    Bytes.toNatLE_ofNatLE, Bytes.valueCount]
  omega

theorem parse_toBytes (record : CaptureRecord) (rest : Bytes)
    (short : record.data.length < 0x100000000) :
    parse .lowFirst (record.toBytes ++ rest) = (record, rest) := by
  have behind : (record.toBytes ++ rest).drop (16 + record.data.length) = rest :=
    List.drop_left' (length_toBytes record)
  have word (n : UInt32) : (Bytes.toNatLE (Bytes.ofNatLE 4 n.toNat)).toUInt32 = n := by
    have small := n.toNat_lt
    rw [Bytes.toNatLE_ofNatLE, Nat.mod_eq_of_lt (by simp only [Bytes.valueCount]; omega)]
    simp
  rw [parse, size_toBytes record rest short, behind]
  simp [toBytes, headerSize, ByteOrder.read,
    Bytes.window_append_right, Bytes.window_append_left, word]

end CaptureRecord

namespace CaptureConfig

/-- A configuration has to keep some of each frame and must have room for the header of a file. -/
def validate (config : CaptureConfig) : Except CaptureError Unit :=
  if config.snapLength = 0 then .error .noSnapLength
  else if config.bufferCapacity < FileHeader.size then
    .error (.smallBuffer config.bufferCapacity FileHeader.size)
  else .ok ()

end CaptureConfig

end PacketStack
