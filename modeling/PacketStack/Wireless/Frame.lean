import PacketStack.Wireless.Control
import PacketStack.Wireless.Management

/-!
802.11 frames: the fields of every frame and a body that depends on the type of the frame. Numbers
of more than one byte have their lowest byte first.
-/

namespace PacketStack.Wireless

inductive Body where
  | management (management : Management)
  | control (control : Control)
  | data (data : Data)
  /-- A frame of a type without meaning, of which nothing more is read. -/
  | other (frameType subtype : UInt8)
  deriving DecidableEq

namespace Body

def frameType : Body → UInt8
  | .management _ => 0
  | .control _ => 1
  | .data _ => 2
  | .other frameType _ => frameType

def subtype : Body → UInt8
  | .management content => content.fields.subtype
  | .control content => content.subtype
  | .data content => content.subtype
  | .other _ subtype => subtype

def size (body : Body) (flags : Flags) : Nat :=
  match body with
  | .management content => content.size flags
  | .control content => content.toBytes.length
  | .data content => (content.toBytes flags).length
  | .other _ _ => 0

def write (body : Body) (flags : Flags) (offset : Nat) : Write Unit :=
  match body with
  | .management content => content.write flags offset
  | .control content => Write.put offset content.toBytes
  | .data content => Write.put offset (content.toBytes flags)
  | .other _ _ => return

end Body

structure Frame where
  protocol : UInt8
  flags : Flags
  duration : UInt16
  addr1 : HwAddress
  body : Body
  deriving DecidableEq

namespace Frame

namespace Header

def subtype : HeaderField where
  start := 0
  width := 4
  name := "subtype"
  type := .byte
  getter := .byte 0 4 0xff
  setter := none

def frameType : HeaderField where
  start := 4
  width := 2
  name := "frame_type"
  type := .byte
  getter := .byte 0 2 0x03
  setter := none

def protocol : HeaderField where
  start := 6
  width := 2
  name := "protocol"
  type := .byte
  getter := .byte 0 0 0x03
  setter := none

def flags : HeaderField := .byte "flags" 1

def duration : HeaderField where
  start := 16
  width := 16
  littleEndian := true
  name := "duration_id"
  type := .word16
  getter := .little 2 2
  setter := some (.little 2 2)

def addr1 : HeaderField := .hardware "addr1" 4

def size : Nat := 10

def layout : HeaderLayout where
  part := .dot11
  minimum := size
  fields := [protocol, frameType, subtype, flags, duration, addr1]
  regions := [("packet", id), ("body", List.drop size)]
  blocks := []
  describe bytes := Text.record "Dot11Packet" [
    ("protocol", protocol.describe bytes),
    ("frame_type", frameType.describe bytes),
    ("subtype", subtype.describe bytes),
    ("flags", (Flags.mk (flags.get bytes).toUInt8).text),
    ("duration_id", duration.describe bytes),
    ("addr1", addr1.describe bytes),
    ("body", Text.quotedBytes (bytes.drop size))]

def control (version type subtypeId : UInt8) : UInt8 :=
  (version &&& (0x03 : UInt8)) ||| ((type &&& (0x03 : UInt8)) <<< (2 : UInt8)) |||
    ((subtypeId &&& (0x0f : UInt8)) <<< (4 : UInt8))

def setControl (view : HeaderView) (version type subtypeId : UInt8) : Outcome HeaderView :=
  view.setBytes 0 [control version type subtypeId]

end Header

def frameType (frame : Frame) : UInt8 := frame.body.frameType

def subtype (frame : Frame) : UInt8 := frame.body.subtype

def isProtected (frame : Frame) : Bool := frame.flags.contains .protectedFrame

def management? (frame : Frame) : Option Management :=
  match frame.body with
  | .management management => some management
  | _ => none

def control? (frame : Frame) : Option Control :=
  match frame.body with
  | .control control => some control
  | _ => none

def data? (frame : Frame) : Option Data :=
  match frame.body with
  | .data data => some data
  | _ => none

def sequenceHeader? (frame : Frame) : Option SequenceHeader :=
  match frame.body with
  | .management management => some management.header
  | .data data => some data.header
  | _ => none

def addr2? (frame : Frame) : Option HwAddress :=
  match frame.body with
  | .control control => control.transmitter?
  | _ => frame.sequenceHeader?.map (·.addr2)

def addr3? (frame : Frame) : Option HwAddress := frame.sequenceHeader?.map (·.addr3)

def addr4? (frame : Frame) : Option HwAddress :=
  if frame.flags.isBetweenSystems then frame.sequenceHeader?.map (·.addr4) else none

def bssid? (frame : Frame) : Option HwAddress :=
  match frame.flags.contains .toDs, frame.flags.contains .fromDs with
  | true, false => some frame.addr1
  | false, true => frame.addr2?
  | _, _ => frame.addr3?

def source? (frame : Frame) : Option HwAddress :=
  match frame.flags.contains .toDs, frame.flags.contains .fromDs with
  | _, false => frame.addr2?
  | false, true => frame.addr3?
  | true, true => frame.addr4?

def destination? (frame : Frame) : Option HwAddress :=
  if frame.flags.contains .toDs then frame.addr3? else some frame.addr1

def headerSize (frame : Frame) : Nat := Header.size + frame.body.size frame.flags

def write (frame : Frame) : Write Unit := do
  Write.reach frame.headerSize
  Write.store Header.protocol frame.protocol.toNat
  Write.store Header.frameType frame.frameType.toNat
  Write.store Header.subtype frame.subtype.toNat
  Write.store Header.flags frame.flags.bits.toNat
  Write.store Header.duration frame.duration.toNat
  Write.store Header.addr1 frame.addr1.toNat
  frame.body.write frame.flags Header.size

/-- Reads a body of a type and tells how many of its bytes were read. -/
def decodeBody (frameType subtype : UInt8) (flags : Flags) (bytes : Bytes) : Outcome (Body × Nat) :=
  match frameType.toNat with
  | 0 => do
      let (management, size) ← Management.parse subtype flags bytes
      return (.management management, size)
  | 1 => do
      let control ← Control.parse subtype bytes
      return (.control control, control.toBytes.length)
  | 2 => do
      let data ← Data.parse subtype flags bytes
      return (.data data, (data.toBytes flags).length)
  | _ => return (.other frameType subtype, 0)

/-- Data that is not protected is encapsulated by a subnetwork access header. -/
def decode (bytes : Bytes) : Outcome (Decoded Frame) := do
  requireSize .dot11 Header.size bytes
  let flags : Flags := ⟨(Header.flags.get bytes).toUInt8⟩
  let frameType := (Header.frameType.get bytes).toUInt8
  let subtype := (Header.subtype.get bytes).toUInt8
  let (body, size) ← decodeBody frameType subtype flags (bytes.drop Header.size)
  let header : Frame := {
    protocol := (Header.protocol.get bytes).toUInt8
    flags := flags
    duration := (Header.duration.get bytes).toUInt16
    addr1 := Header.addr1.hwAddress bytes
    body := body }
  let next := match body with
    | .data _ => if header.isProtected then none else some Kind.snap
    | _ => none
  return ⟨header, ← bytes.rest (Header.size + size), next⟩

theorem payload_lt {bytes : Bytes} {decoded : Decoded Frame}
    (read : decode bytes = .ok decoded) : decoded.payload.length < bytes.length := by
  simp only [decode, Outcome.bind_eq_ok, requireSize_eq_ok, Bytes.rest_eq_ok] at read
  obtain ⟨_, large, ⟨body, size⟩, _, payload, ⟨_, rfl⟩, result⟩ := read
  injection result with result
  subst result
  simp only [Header.size, List.length_drop] at large ⊢
  omega

end Frame

end PacketStack.Wireless
