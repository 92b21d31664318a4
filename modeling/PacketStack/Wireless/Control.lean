import PacketStack.Wireless.Sequence

/-!
The bodies of 802.11 control frames and the headers of data frames.
-/

namespace PacketStack.Wireless

structure BlockAckFields where
  transmitter : HwAddress
  control : UInt16
  startSequence : UInt16
  deriving DecidableEq, Repr, Inhabited

inductive Control where
  | rts (transmitter : HwAddress)
  | cts
  | ack
  | psPoll (transmitter : HwAddress)
  | cfEnd (transmitter : HwAddress)
  | cfEndAck (transmitter : HwAddress)
  | blockAckRequest (fields : BlockAckFields)
  | blockAck (fields : BlockAckFields) (bitmap : Octets 8)
  | other (subtype : UInt8)
  deriving DecidableEq

namespace Control

def subtype : Control → UInt8
  | .blockAckRequest _ => 8
  | .blockAck _ _ => 9
  | .psPoll _ => 10
  | .rts _ => 11
  | .cts => 12
  | .ack => 13
  | .cfEnd _ => 14
  | .cfEndAck _ => 15
  | .other subtype => subtype

def transmitter? : Control → Option HwAddress
  | .rts transmitter | .psPoll transmitter | .cfEnd transmitter | .cfEndAck transmitter =>
      some transmitter
  | .blockAckRequest fields | .blockAck fields _ => some fields.transmitter
  | .cts | .ack | .other _ => none

def toBytes : Control → Bytes
  | .rts transmitter | .psPoll transmitter | .cfEnd transmitter | .cfEndAck transmitter =>
      transmitter.octets
  | .blockAckRequest fields => blockAckBytes fields
  | .blockAck fields bitmap => blockAckBytes fields ++ bitmap.bytes
  | .cts | .ack | .other _ => []
where
  blockAckBytes (fields : BlockAckFields) : Bytes :=
    fields.transmitter.octets ++ Bytes.ofNatLE 2 fields.control.toNat ++
      Bytes.ofNatLE 2 fields.startSequence.toNat

def parseFields (bytes : Bytes) : Outcome BlockAckFields := do
  let transmitter ← HwAddress.ofBytes bytes
  requireSize .dot11Control 8 bytes
  requireSize .dot11Control 10 bytes
  return {
    transmitter := transmitter
    control := (Bytes.toNatLE (bytes.window 6 2)).toUInt16
    startSequence := (Bytes.toNatLE (bytes.window 8 2)).toUInt16 }

def parse (subtype : UInt8) (bytes : Bytes) : Outcome Control :=
  match subtype.toNat with
  | 8 => do return .blockAckRequest (← parseFields bytes)
  | 9 => do
      requireSize .dot11Control 18 bytes
      return .blockAck (← parseFields bytes) (.ofBytes 8 (bytes.window 10 8))
  | 10 => do return .psPoll (← HwAddress.ofBytes bytes)
  | 11 => do return .rts (← HwAddress.ofBytes bytes)
  | 12 => .ok .cts
  | 13 => .ok .ack
  | 14 => do return .cfEnd (← HwAddress.ofBytes bytes)
  | 15 => do return .cfEndAck (← HwAddress.ofBytes bytes)
  | _ => .ok (.other subtype)

end Control

/-- The header of a data frame. -/
structure Data where
  subtype : UInt8
  header : SequenceHeader
  /-- Only part of subtypes with quality of service. -/
  qosControl : UInt16
  deriving DecidableEq, Repr, Inhabited

namespace Data

def isQos (data : Data) : Bool := data.subtype &&& 0x08 != 0

def trafficId (data : Data) : UInt8 := (data.qosControl &&& 0x0f).toUInt8

def toBytes (data : Data) (flags : Flags) : Bytes :=
  data.header.toBytes flags ++ if data.isQos then Bytes.ofNatLE 2 data.qosControl.toNat else []

def parse (subtype : UInt8) (flags : Flags) (bytes : Bytes) : Outcome Data := do
  let header ← SequenceHeader.parse flags bytes
  let data : Data := ⟨subtype, header, 0⟩
  if data.isQos then
    let offset := SequenceHeader.size flags
    requireSize .dot11Data (offset + 2) bytes
    return { data with qosControl := (Bytes.toNatLE (bytes.window offset 2)).toUInt16 }
  else return data

end Data

end PacketStack.Wireless
