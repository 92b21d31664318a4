import PacketStack.Checked.Messages
import PacketStack.Link.RadioTap
import PacketStack.Wireless.Frame

/-!
Checked readings of the headers of capturing radios and of 802.11 frames.
-/

namespace PacketStack

namespace RadioTap

/-- The offset after the last word of bits, each read where it stands. -/
def afterWordsChecked (header : Bytes) (offset : Nat) : Outcome (Option Nat) :=
  match _there : header.range? offset (offset + 4) with
  | none => return none
  | some word => do
      if (← Bytes.little word 0 4).testBit 31 then afterWordsChecked header (offset + 4)
      else return some (offset + 4)
termination_by header.length - offset
decreasing_by
  have inside := Bytes.stop_le_of_range? _there
  omega

def alignChecked (alignment offset : Nat) : Outcome Nat :=
  if 0 < alignment then .ok (align alignment offset) else .outOfBounds

def locateChecked (present bit : Nat) :
    Nat → Nat → List (Nat × Nat) → Outcome (Option (Nat × Nat))
  | _, _, [] => return none
  | index, offset, (size, alignment) :: rest =>
      if present.testBit index then do
        let start ← alignChecked alignment offset
        if index = bit then return some (start, size)
        else locateChecked present bit (index + 1) (start + size) rest
      else locateChecked present bit (index + 1) offset rest

def fieldChecked (header : Bytes) (bit : Nat) : Outcome (Option Bytes) := do
  let present ← header.little 4 4
  if present.testBit bit then
    match ← afterWordsChecked header 4 with
    | none => return none
    | some offset =>
        match ← locateChecked present bit 0 offset fieldLayout with
        | none => return none
        | some (start, size) => return header.range? start (start + size)
  else return none

def flagsChecked (header : Bytes) : Outcome (Option Flags) := do
  match ← fieldChecked header flagsBit with
  | none => return none
  | some field => return some ⟨← field.byteAt 0⟩

def stopChecked (bytes : Bytes) (length : Nat) (flags : Option Flags) : Outcome Nat := do
  if flags.any (·.contains .fcs) then
    let room ← Outcome.minus bytes.length length
    .demand (fcsSize ≤ room) .radioTapWithoutFcs
    .demand (¬ flags.any (·.contains .failedFcs)) .radioTapFailedFcs
    Outcome.minus bytes.length fcsSize
  else return bytes.length

def decodeChecked (bytes : Bytes) : Outcome (Decoded RadioTap) := do
  requireSize .radioTap minimumHeader bytes
  let length ← bytes.little 2 2
  if 8 ≤ length ∧ length ≤ bytes.length then
    let header ← bytes.range 0 length
    .demand (← afterWordsChecked header 4).isSome .radioTapPresentWords
    let stop ← stopChecked bytes length (← flagsChecked header)
    let payload ← bytes.range length stop
    if size : 8 ≤ header.length then return ⟨⟨header, size⟩, payload, some .dot11⟩
    else .outOfBounds
  else .malformed (.radioTapLength length bytes.length)

end RadioTap

namespace Wireless

def SequenceHeader.parseChecked (flags : Flags) (bytes : Bytes) : Outcome SequenceHeader := do
  requireSize .sequenceHeader (size flags) bytes
  let control := (← bytes.little 12 2).toUInt16
  return {
    addr2 := ← HwAddress.ofBytes (← bytes.range 0 6)
    addr3 := ← HwAddress.ofBytes (← bytes.range 6 12)
    fragment := (control &&& 0x0f).toUInt8
    sequence := control >>> 4
    addr4 :=
      ← if flags.isBetweenSystems then do HwAddress.ofBytes (← bytes.range 14 20) else .ok .zero }

def wordChecked (part : Part) (offset : Nat) (bytes : Bytes) : Outcome UInt16 := do
  let word ← bytes.require part offset (offset + 2)
  return (← word.little 0 2).toUInt16

namespace Control

def parseFieldsChecked (bytes : Bytes) : Outcome BlockAckFields := do
  let transmitter ← HwAddress.ofBytes bytes
  let control ← wordChecked .dot11Control 6 bytes
  return ⟨transmitter, control, ← wordChecked .dot11Control 8 bytes⟩

def parseBlockAckChecked (bytes : Bytes) : Outcome Control := do
  let bitmap ← bytes.require .dot11Control 10 18
  return .blockAck (← parseFieldsChecked bytes) (.ofBytes 8 bitmap)

def parseChecked (subtype : UInt8) (bytes : Bytes) : Outcome Control :=
  match subtype.toNat with
  | 8 => do return .blockAckRequest (← parseFieldsChecked bytes)
  | 9 => parseBlockAckChecked bytes
  | 10 => do return .psPoll (← HwAddress.ofBytes bytes)
  | 11 => do return .rts (← HwAddress.ofBytes bytes)
  | 12 => .ok .cts
  | 13 => .ok .ack
  | 14 => do return .cfEnd (← HwAddress.ofBytes bytes)
  | 15 => do return .cfEndAck (← HwAddress.ofBytes bytes)
  | _ => .ok (.other subtype)

end Control

def Data.parseChecked (subtype : UInt8) (flags : Flags) (bytes : Bytes) : Outcome Data := do
  let header ← SequenceHeader.parseChecked flags bytes
  let data : Data := ⟨subtype, header, 0⟩
  if data.isQos then
    return { data with qosControl := ← wordChecked .dot11Data (SequenceHeader.size flags) bytes }
  else return data

namespace ManagementFields

def takeChecked (size : Nat) : Reader Bytes := do
  let bytes ← get
  let value ← Bytes.require bytes .managementFixed 0 size
  set (← Bytes.rest bytes size)
  return value

def word16Checked : Reader UInt16 := return (Bytes.toNatLE (← takeChecked 2)).toUInt16

def readBeaconChecked : Reader BeaconFields := do
  let timestamp := (Bytes.toNatLE (← takeChecked 8)).toUInt64
  return ⟨timestamp, ← word16Checked, ← word16Checked⟩

def readAnswerChecked : Reader AssociationAnswer :=
  return ⟨← word16Checked, ← word16Checked, ← word16Checked⟩

def readChecked (subtype : UInt8) : Reader ManagementFields :=
  match subtype.toNat with
  | 0 => return .associationRequest (← word16Checked) (← word16Checked)
  | 1 => return .associationResponse (← readAnswerChecked)
  | 2 => do
      let capabilities ← word16Checked
      let listenInterval ← word16Checked
      let currentAp := .ofNat (Bytes.toNatBE (← takeChecked 6))
      return .reassociationRequest capabilities listenInterval currentAp
  | 3 => return .reassociationResponse (← readAnswerChecked)
  | 4 => return .probeRequest
  | 5 => return .probeResponse (← readBeaconChecked)
  | 8 => return .beacon (← readBeaconChecked)
  | 9 => return .atim
  | 10 => return .disassociation (← word16Checked)
  | 11 => return .authentication (← word16Checked) (← word16Checked) (← word16Checked)
  | 12 => return .deauthentication (← word16Checked)
  | _ => return .other subtype

end ManagementFields

/-- Options are looked for behind the fields, wherever the reading of these came to. -/
def Management.parseChecked (subtype : UInt8) (flags : Flags) (bytes : Bytes) :
    Outcome (Management × Nat) := do
  let header ← SequenceHeader.parseChecked flags bytes
  let offset := SequenceHeader.size flags
  let (fields, _) ← (ManagementFields.readChecked subtype).run (← bytes.rest offset)
  let stop := offset + fields.toBytes.length
  if fields.hasOptions then
    return (⟨header, fields, ← OptionList.parseChecked .dot11 (← bytes.rest stop)⟩, bytes.length)
  else return (⟨header, fields, []⟩, stop)

namespace Frame

def decodeBodyChecked (frameType subtype : UInt8) (flags : Flags) (bytes : Bytes) :
    Outcome (Body × Nat) :=
  match frameType.toNat with
  | 0 => do
      let (management, size) ← Management.parseChecked subtype flags bytes
      return (.management management, size)
  | 1 => do
      let control ← Control.parseChecked subtype bytes
      return (.control control, control.toBytes.length)
  | 2 => do
      let data ← Data.parseChecked subtype flags bytes
      return (.data data, (data.toBytes flags).length)
  | _ => return (.other frameType subtype, 0)

def decodeChecked (bytes : Bytes) : Outcome (Decoded Frame) := do
  requireSize .dot11 Header.size bytes
  let flags : Flags := ⟨(← Header.flags.fetch bytes).toUInt8⟩
  let subtype := (← Header.subtype.fetch bytes).toUInt8
  let frameType := (← Header.frameType.fetch bytes).toUInt8
  let (body, size) ← decodeBodyChecked frameType subtype flags (← bytes.rest Header.size)
  let header : Frame := {
    protocol := (← Header.protocol.fetch bytes).toUInt8
    flags := flags
    duration := (← Header.duration.fetch bytes).toUInt16
    addr1 := .ofNat (← Header.addr1.fetch bytes)
    body := body }
  let next := match body with
    | .data _ => if header.isProtected then none else some Kind.snap
    | _ => none
  return ⟨header, ← bytes.rest (Header.size + size), next⟩

end Frame

end Wireless

end PacketStack
