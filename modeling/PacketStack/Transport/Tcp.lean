import PacketStack.Frame
import PacketStack.Checksum

/-!
TCP segments and their options. What they carry is opaque.
-/

namespace PacketStack

structure TcpFlags where
  bits : UInt8
  deriving DecidableEq, Repr, Inhabited

namespace TcpFlags

def fin : TcpFlags := ⟨0x01⟩

def syn : TcpFlags := ⟨0x02⟩

def rst : TcpFlags := ⟨0x04⟩

def ack : TcpFlags := ⟨0x10⟩

def contains (flags wanted : TcpFlags) : Bool := flags.bits &&& wanted.bits == wanted.bits

def names : List (String × Nat) :=
  [("FIN", 0x01), ("SYN", 0x02), ("RST", 0x04), ("PSH", 0x08), ("ACK", 0x10), ("URG", 0x20),
    ("ECE", 0x40), ("CWR", 0x80)]

def text (flags : TcpFlags) : String := Text.flags "TcpFlags" names flags.bits.toNat

end TcpFlags

structure TcpOption where
  kind : UInt8
  data : Bytes
  deriving DecidableEq, Repr

namespace TcpOption

def endOfList : UInt8 := 0

def noOperation : UInt8 := 1

def maximumSegment : UInt8 := 2

def windowShift : UInt8 := 3

def selectiveAckPermitted : UInt8 := 4

def timestampPair : UInt8 := 8

def nop : TcpOption := ⟨noOperation, []⟩

def mss (size : UInt16) : TcpOption := ⟨maximumSegment, Bytes.ofNatBE 2 size.toNat⟩

def windowScale (shift : UInt8) : TcpOption := ⟨windowShift, [shift]⟩

def sackPermitted : TcpOption := ⟨selectiveAckPermitted, []⟩

def timestamp (value echo : UInt32) : TcpOption :=
  ⟨timestampPair, Bytes.ofNatBE 4 value.toNat ++ Bytes.ofNatBE 4 echo.toNat⟩

def isSingleByte (option : TcpOption) : Bool :=
  option.kind == endOfList || option.kind == noOperation

def toBytes (option : TcpOption) : Bytes :=
  if option.isSingleByte then [option.kind]
  else option.kind :: UInt8.ofNat (2 + option.data.length) :: option.data

/-- Reads options up to the end of the list. A length counts the kind, itself and the data. -/
def parseAll : Bytes → Outcome (List TcpOption)
  | [] => .ok []
  | kind :: rest =>
      if kind = endOfList then .ok []
      else if kind = noOperation then return nop :: (← parseAll rest)
      else
        let length := (rest.headD 0).toNat
        if length < 2 ∨ rest.length + 1 < length then
          .malformed (.tcpOptionLength kind.toNat length)
        else
          let option := ⟨kind, Bytes.window rest 1 (length - 2)⟩
          return option :: (← parseAll (rest.drop (length - 1)))
termination_by bytes => bytes.length
decreasing_by
  all_goals simp only [List.length_drop, List.length_cons]
  all_goals omega

end TcpOption

structure Tcp where
  sourcePort : UInt16
  destinationPort : UInt16
  sequence : UInt32
  acknowledgement : UInt32
  flags : TcpFlags
  window : UInt16
  urgentPointer : UInt16
  options : List TcpOption
  /-- The checksum found when the segment was read. -/
  checksum : UInt16
  deriving DecidableEq, Repr

namespace Tcp

namespace Header

def source : HeaderField := .word16 "source" 0

def destination : HeaderField := .word16 "destination" 2

def sequence : HeaderField := .word32 "sequence" 4

def acknowledgement : HeaderField := .word32 "acknowledgement" 8

def dataOffset : HeaderField where
  start := 96
  width := 4
  name := "data_offset"
  type := .byte
  getter := .byte 12 4 0xff
  setter := some (.byte 12 0xf0 4)

def flags : HeaderField := .byte "flags" 13

def window : HeaderField := .word16 "window_size" 14

def checksum : HeaderField := .word16 "checksum" 16

def urgentPointer : HeaderField := .word16 "urgent_pointer" 18

def size : Nat := 20

def options (bytes : Bytes) : Bytes := (bytes.take (4 * dataOffset.get bytes)).drop size

def payload (bytes : Bytes) : Bytes := bytes.drop (4 * dataOffset.get bytes)

def layout : HeaderLayout where
  part := .tcp
  minimum := size
  fields := [source, destination, sequence, acknowledgement, dataOffset, flags, window, checksum,
    urgentPointer]
  regions := [("packet", id), ("payload", payload), ("options_raw", options)]
  blocks := [("options_raw", size)]
  describe bytes := Text.record "TcpPacket" [
    ("source", source.describe bytes),
    ("destination", destination.describe bytes),
    ("sequence", sequence.describe bytes),
    ("acknowledgement", acknowledgement.describe bytes),
    ("data_offset", dataOffset.describe bytes),
    ("flags", (TcpFlags.mk (flags.get bytes).toUInt8).text),
    ("window_size", window.describe bytes),
    ("checksum", checksum.describe bytes),
    ("urgent_pointer", urgentPointer.describe bytes),
    ("options_raw", Text.quotedBytes (options bytes)),
    ("payload", Text.quotedBytes (payload bytes))]

end Header

def new (destinationPort sourcePort : UInt16) : Tcp where
  sourcePort := sourcePort
  destinationPort := destinationPort
  sequence := 0
  acknowledgement := 0
  flags := ⟨0⟩
  window := 32678
  urgentPointer := 0
  options := []
  checksum := 0

instance : Inhabited Tcp := ⟨new 0 0⟩

def option? (tcp : Tcp) (kind : UInt8) : Option Bytes :=
  (tcp.options.find? (·.kind == kind)).map (·.data)

def optionOfLength (tcp : Tcp) (kind : UInt8) (length : Nat) : Outcome Bytes :=
  match tcp.option? kind with
  | none => .refuse (.optionNotFound kind)
  | some data => if data.length = length then .ok data else .refuse (.malformedOption kind)

def mss (tcp : Tcp) : Outcome UInt16 := do
  return (Bytes.toNatBE (← tcp.optionOfLength TcpOption.maximumSegment 2)).toUInt16

def windowScale (tcp : Tcp) : Outcome UInt8 := do
  return (Bytes.toNatBE (← tcp.optionOfLength TcpOption.windowShift 1)).toUInt8

def timestamp (tcp : Tcp) : Outcome (UInt32 × UInt32) := do
  let data ← tcp.optionOfLength TcpOption.timestampPair 8
  return ((Bytes.toNatBE (data.take 4)).toUInt32, (Bytes.toNatBE (data.drop 4)).toUInt32)

def optionBytes (tcp : Tcp) : Bytes := Bytes.padTo 4 (tcp.options.flatMap TcpOption.toBytes)

def headerSize (tcp : Tcp) : Nat := Header.size + tcp.optionBytes.length

def maximumHeader : Nat := 60

/-- Without the addresses of the enclosing datagram the checksum is zero. -/
def write (tcp : Tcp) (addresses : Option (IpAddress × IpAddress)) : Write Unit := do
  Write.demand (tcp.headerSize ≤ maximumHeader) (.tcpHeaderSize tcp.headerSize)
  Write.require .tcp Header.size
  Write.store Header.source tcp.sourcePort.toNat
  Write.store Header.destination tcp.destinationPort.toNat
  Write.store Header.sequence tcp.sequence.toNat
  Write.store Header.acknowledgement tcp.acknowledgement.toNat
  Write.store Header.dataOffset (tcp.headerSize / 4)
  Write.store Header.flags tcp.flags.bits.toNat
  Write.store Header.window tcp.window.toNat
  Write.store Header.urgentPointer tcp.urgentPointer.toNat
  Write.put Header.size tcp.optionBytes
  Write.store Header.checksum 0
  if let some (source, destination) := addresses then
    if let some checksum := Checksum.transport? (← Write.frame) .tcp source destination then
      Write.store Header.checksum checksum.toNat

def decode (bytes : Bytes) : Outcome (Decoded Tcp) := do
  requireSize .tcp Header.size bytes
  let words := Header.dataOffset.get bytes
  let headerLength := 4 * words
  .demand (Header.size ≤ headerLength ∧ headerLength ≤ bytes.length) (.tcpDataOffset words)
  let options ← TcpOption.parseAll (Header.options bytes)
  let header := {
    sourcePort := (Header.source.get bytes).toUInt16
    destinationPort := (Header.destination.get bytes).toUInt16
    sequence := (Header.sequence.get bytes).toUInt32
    acknowledgement := (Header.acknowledgement.get bytes).toUInt32
    flags := ⟨(Header.flags.get bytes).toUInt8⟩
    window := (Header.window.get bytes).toUInt16
    urgentPointer := (Header.urgentPointer.get bytes).toUInt16
    options := options
    checksum := (Header.checksum.get bytes).toUInt16 }
  let payload ← bytes.rest headerLength
  return ⟨header, payload, none⟩

theorem next_eq_none {bytes : Bytes} {decoded : Decoded Tcp}
    (read : decode bytes = .ok decoded) : decoded.next = none := by
  simp only [decode, Outcome.bind_eq_ok] at read
  obtain ⟨_, _, _, _, _, _, _, _, result⟩ := read
  injection result with result
  rw [← result]

end Tcp

end PacketStack
