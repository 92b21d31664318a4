import PacketStack.Frame
import PacketStack.Crc32

/-!
The header which a capturing radio puts in front of an 802.11 frame. Numbers have their lowest byte
first.

The fields of the header which are there are marked in a word of bits. They follow each other in the
order of the bits, each aligned to a multiple of its own alignment from the start of the header.
-/

namespace PacketStack

/-- A header is kept as it is, apart from its length. -/
structure RadioTap where
  header : Bytes
  minimum_le : 8 ≤ header.length
  deriving DecidableEq

namespace RadioTap

def minimumHeader : Nat := 8

def fcsSize : Nat := 4

def fieldLayout : List (Nat × Nat) :=
  [(8, 8), (1, 1), (1, 1), (4, 2), (2, 1), (1, 1), (1, 1), (2, 2), (2, 2), (2, 2), (1, 1), (1, 1),
    (1, 1), (1, 1), (2, 2)]

def timestampBit : Nat := 0

def flagsBit : Nat := 1

def rateBit : Nat := 2

def channelBit : Nat := 3

def signalBit : Nat := 5

def noiseBit : Nat := 6

def antennaBit : Nat := 11

/-- The flags of a received frame. -/
structure Flags where
  bits : UInt8
  deriving DecidableEq, Repr

namespace Flags

def fcs : Flags := ⟨0x10⟩

def failedFcs : Flags := ⟨0x40⟩

def contains (flags wanted : Flags) : Bool := flags.bits &&& wanted.bits == wanted.bits

def names : List (String × Nat) :=
  [("CFP", 0x01), ("SHORT_PREAMBLE", 0x02), ("WEP", 0x04), ("FRAGMENTATION", 0x08), ("FCS", 0x10),
    ("DATA_PAD", 0x20), ("FAILED_FCS", 0x40)]

def text (flags : Flags) : String := Text.flags "RadioTapFlags" names flags.bits.toNat

end Flags

def empty : RadioTap := ⟨[0, 0, 8, 0, 0, 0, 0, 0], by decide⟩

instance : Inhabited RadioTap := ⟨empty⟩

def withFlags (flags : Flags) : RadioTap := ⟨[0, 0, 9, 0, 2, 0, 0, 0, flags.bits], by simp⟩

def presentWord (header : Bytes) : Nat := Bytes.toNatLE (header.window 4 4)

def afterWords? (header : Bytes) (offset : Nat) : Option Nat :=
  if header.length < offset + 4 then none
  else if (Bytes.toNatLE (header.window offset 4)).testBit 31 then afterWords? header (offset + 4)
  else some (offset + 4)
termination_by header.length - offset
decreasing_by omega

def fieldsOffset? (header : Bytes) : Option Nat := afterWords? header 4

def align (alignment offset : Nat) : Nat := (offset + alignment - 1) / alignment * alignment

def locate (present bit : Nat) : Nat → Nat → List (Nat × Nat) → Option (Nat × Nat)
  | _, _, [] => none
  | index, offset, (size, alignment) :: rest =>
      if present.testBit index then
        let start := align alignment offset
        if index = bit then some (start, size)
        else locate present bit (index + 1) (start + size) rest
      else locate present bit (index + 1) offset rest

def field? (header : Bytes) (bit : Nat) : Option Bytes :=
  if (presentWord header).testBit bit then do
    let offset ← fieldsOffset? header
    let (start, size) ← locate (presentWord header) bit 0 offset fieldLayout
    header.range? start (start + size)
  else none

def version (tap : RadioTap) : UInt8 := tap.header.headD 0

def present (tap : RadioTap) : UInt32 := (presentWord tap.header).toUInt32

def number? (tap : RadioTap) (bit : Nat) : Option Nat := (field? tap.header bit).map Bytes.toNatLE

def timestamp? (tap : RadioTap) : Option UInt64 := (tap.number? timestampBit).map Nat.toUInt64

def flags? (tap : RadioTap) : Option Flags := (tap.number? flagsBit).map fun n => ⟨n.toUInt8⟩

def rate? (tap : RadioTap) : Option UInt8 := (tap.number? rateBit).map Nat.toUInt8

def channel? (tap : RadioTap) : Option (UInt16 × UInt16) :=
  (field? tap.header channelBit).map fun channel =>
    ((Bytes.toNatLE (channel.take 2)).toUInt16, (Bytes.toNatLE (channel.drop 2)).toUInt16)

def signal? (tap : RadioTap) : Option Int8 := (tap.number? signalBit).map fun n => n.toUInt8.toInt8

def noise? (tap : RadioTap) : Option Int8 := (tap.number? noiseBit).map fun n => n.toUInt8.toInt8

def antenna? (tap : RadioTap) : Option UInt8 := (tap.number? antennaBit).map Nat.toUInt8

def hasFcs (tap : RadioTap) : Bool := tap.flags?.any (·.contains .fcs)

def headerSize (tap : RadioTap) : Nat := tap.header.length

def trailerSize (tap : RadioTap) : Nat := if tap.hasFcs then fcsSize else 0

def describe (tap : RadioTap) : String :=
  Text.record "RadioTap" [
    ("version", toString tap.version.toNat),
    ("present", Text.hexWord tap.present),
    ("flags", Text.optional (tap.flags?.map Flags.text)),
    ("header", Text.quotedBytes tap.header)]

def write (tap : RadioTap) : Write Unit := do
  let size := tap.headerSize
  Write.demand (size ≤ 0xffff) (.radioTapHeaderSize size)
  Write.put 0 tap.header
  Write.put 2 (Bytes.ofNatLE 2 size)
  if tap.hasFcs then
    Write.reach (size + fcsSize)
    let frame ← Write.frame
    let stop := frame.length - fcsSize
    Write.put stop (Crc32.bytes (frame.window size (stop - size)))

/-- The check sequence is no part of the frame inside. -/
def decode (bytes : Bytes) : Outcome (Decoded RadioTap) := do
  requireSize .radioTap minimumHeader bytes
  let length := Bytes.toNatLE (bytes.window 2 2)
  if size : 8 ≤ length ∧ length ≤ bytes.length then
    let header := bytes.take length
    .demand (fieldsOffset? header).isSome .radioTapPresentWords
    let tap : RadioTap := ⟨header, by simp [header]; omega⟩
    .demand (tap.hasFcs → length + fcsSize ≤ bytes.length) .radioTapWithoutFcs
    .demand (tap.hasFcs → ¬ tap.flags?.any (·.contains .failedFcs)) .radioTapFailedFcs
    return ⟨tap, ← bytes.range length (bytes.length - tap.trailerSize), some .dot11⟩
  else .malformed (.radioTapLength length bytes.length)

theorem payload_lt {bytes : Bytes} {decoded : Decoded RadioTap}
    (read : decode bytes = .ok decoded) : decoded.payload.length < bytes.length := by
  simp only [decode, Outcome.bind_eq_ok] at read
  obtain ⟨_, _, read⟩ := read
  split at read
  · simp only [Outcome.bind_eq_ok, Bytes.range_eq_ok] at read
    obtain ⟨_, _, _, _, _, _, payload, ⟨_, _, rfl⟩, result⟩ := read
    injection result with result
    subst result
    simp only [Bytes.length_window]
    omega
  · simp at read

end RadioTap

end PacketStack
