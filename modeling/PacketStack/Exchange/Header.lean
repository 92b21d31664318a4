import PacketStack.Exchange.Packet
import PacketStack.Headers

/-!
The forms of header views and of the values of their fields.
-/

namespace PacketStack.Exchange

/-- The form of what a field holds. Named numbers have the form of their number. -/
def encodeField : (type : FieldType) → type.Value → Value
  | .byte, value => encode (α := UInt8) value
  | .word16, value => encode (α := UInt16) value
  | .word32, value => encode (α := UInt32) value
  | .word64, value => encode (α := UInt64) value
  | .octets size, value => encode (α := Octets size) value
  | .hardware, value => encode (α := HwAddress) value
  | .internet, value => encode (α := Ipv4Address) value
  | .internet6, value => encode (α := Ipv6Address) value
  | .protocol, value => encode (IpProtocol.id value)
  | .etherType, value => encode (EtherType.id value)
  | .operation, value => encode (ArpOperation.id value)
  | .icmpType, value => encode (IcmpType.id value)

def decodeField : (type : FieldType) → Value → type.Value
  | .byte, value => (decode value : UInt8)
  | .word16, value => (decode value : UInt16)
  | .word32, value => (decode value : UInt32)
  | .word64, value => (decode value : UInt64)
  | .octets size, value => (decode value : Octets size)
  | .hardware, value => (decode value : HwAddress)
  | .internet, value => (decode value : Ipv4Address)
  | .internet6, value => (decode value : Ipv6Address)
  | .protocol, value => IpProtocol.ofId (decode value)
  | .etherType, value => EtherType.ofId (decode value)
  | .operation, value => ArpOperation.ofId (decode value)
  | .icmpType, value => IcmpType.ofId (decode value)

def setMember (view : HeaderView) (name : String) (value : Value) : Outcome HeaderView := do
  if let some field := view.layout.fields.find? (·.name == name) then
    view.set field (decodeField field.type value)
  else if let some offset := view.layout.blocks.lookup name then
    view.setBytes offset value.bytes
  else
    Wireless.Frame.Header.setControl view (decode (value.item 0)) (decode (value.item 1))
      (decode (value.item 2))

instance : Encode HeaderView where
  encode view := .record [
    field "minimum" view.layout.minimum,
    ("fields", .record (view.layout.fields.map fun field =>
      (field.name, encodeField field.type (view.get field)))),
    ("slices", .record (view.layout.regions.map fun (name, region) =>
      (name, encode (region view.bytes)))),
    field "buffer" view.bytes]

end PacketStack.Exchange
