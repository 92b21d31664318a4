import PacketStack.Checked.Access
import PacketStack.Internet.Arp
import PacketStack.Internet.Icmp
import PacketStack.Internet.Ipv4
import PacketStack.Internet.Ipv6
import PacketStack.Link.CookedCapture
import PacketStack.Link.Ethernet
import PacketStack.Link.Loopback
import PacketStack.Link.Snap
import PacketStack.Transport.Tcp
import PacketStack.Transport.Udp

/-!
Checked readings of the headers of the link, internet and transport layers.
-/

namespace PacketStack

def Ethernet.decodeChecked (bytes : Bytes) : Outcome (Decoded Ethernet) := do
  requireSize .ethernet Header.size bytes
  let type : EtherType := .ofId (← Header.etherType.fetch bytes).toUInt16
  let destination ← Header.destination.fetch bytes
  let source ← Header.source.fetch bytes
  return ⟨⟨.ofNat destination, .ofNat source, type.id⟩, ← bytes.rest Header.size, type.kind?⟩

def Snap.decodeChecked (bytes : Bytes) : Outcome (Decoded Snap) := do
  requireSize .snap Header.size bytes
  let type : EtherType := .ofId (← Header.etherType.fetch bytes).toUInt16
  let control ← Header.control.fetch bytes
  let organization ← Header.organization.fetch bytes
  return ⟨⟨control.toUInt8, organization.toUInt32, type.id⟩, ← bytes.rest Header.size, type.kind?⟩

def CookedCapture.decodeChecked (bytes : Bytes) : Outcome (Decoded CookedCapture) := do
  requireSize .sll Header.size bytes
  let type : EtherType := .ofId (← Header.protocol.fetch bytes).toUInt16
  let header := {
    packetType := (← Header.packetType.fetch bytes).toUInt16
    addressType := (← Header.addressType.fetch bytes).toUInt16
    addressLength := (← Header.addressLength.fetch bytes).toUInt16
    address := .ofNat 8 (← Header.address.fetch bytes)
    protocol := type.id }
  return ⟨header, ← bytes.rest Header.size, type.kind?⟩

def Loopback.decodeChecked (bytes : Bytes) : Outcome (Decoded Loopback) := do
  let family := familyOf (← bytes.require .loopback 0 headerSize)
  return ⟨⟨family⟩, ← bytes.rest headerSize, kind? family⟩

def Arp.decodeChecked (bytes : Bytes) : Outcome (Decoded Arp) := do
  requireSize .arp Header.size bytes
  let hardware ← Header.hardwareLength.fetch bytes
  let protocol ← Header.protocolLength.fetch bytes
  .demand (hardware = 6 ∧ protocol = 4) (.arpAddressLengths hardware protocol)
  let header := {
    operation := .ofId (← Header.operation.fetch bytes).toUInt16
    senderHardware := .ofNat (← Header.senderHardware.fetch bytes)
    sender := .ofNat (← Header.sender.fetch bytes)
    targetHardware := .ofNat (← Header.targetHardware.fetch bytes)
    target := .ofNat (← Header.target.fetch bytes) }
  return ⟨header, ← bytes.rest Header.size, none⟩

def Icmp.decodeChecked (bytes : Bytes) : Outcome (Decoded Icmp) := do
  requireSize .icmp Header.size bytes
  let header := {
    type := .ofId (← Header.type.fetch bytes).toUInt8
    code := (← Header.code.fetch bytes).toUInt8
    identifier := (← Header.identifier.fetch bytes).toUInt16
    sequence := (← Header.sequence.fetch bytes).toUInt16
    checksum := (← Header.checksum.fetch bytes).toUInt16 }
  return ⟨header, ← bytes.rest Header.size, none⟩

namespace Ipv4

def Header.optionsChecked (bytes : Bytes) : Outcome Bytes := do
  let stop := min (4 * (← headerLength.fetch bytes)) bytes.length
  bytes.range size (max stop size)

def decodeChecked (bytes : Bytes) : Outcome (Decoded Ipv4) := do
  requireSize .ipv4 Header.size bytes
  let words ← Header.headerLength.fetch bytes
  let version ← Header.version.fetch bytes
  let headerLength := 4 * words
  .demand (version = 4 ∧ Header.size ≤ headerLength ∧ headerLength ≤ bytes.length)
    (.ipv4Header version words)
  let totalLength ← Header.totalLength.fetch bytes
  .demand (totalLength = 0 ∨ headerLength ≤ totalLength)
    (.ipv4TotalLength totalLength headerLength)
  let stop := if totalLength = 0 then bytes.length else min totalLength bytes.length
  let protocol : IpProtocol := .ofId (← Header.protocol.fetch bytes).toUInt8
  let header := {
    tos := (← Header.tos.fetch bytes).toUInt8
    identification := (← Header.identification.fetch bytes).toUInt16
    flagsAndFragmentOffset := (← Header.flagsAndFragmentOffset.fetch bytes).toUInt16
    ttl := (← Header.ttl.fetch bytes).toUInt8
    protocol := protocol
    source := .ofNat (← Header.source.fetch bytes)
    destination := .ofNat (← Header.destination.fetch bytes)
    options := ← Header.optionsChecked bytes
    checksum := (← Header.checksum.fetch bytes).toUInt16 }
  let payload ← bytes.range headerLength stop
  return ⟨header, payload, if header.isFragmented then none else protocol.kind?⟩

end Ipv4

namespace Ipv6

def Header.payloadChecked (bytes : Bytes) : Outcome Bytes := do
  let behind ← bytes.rest size
  let declared ← payloadLength.fetch bytes
  Bytes.range behind 0 (min declared behind.length)

def decodeChecked (bytes : Bytes) : Outcome (Decoded Ipv6) := do
  requireSize .ipv6 Header.size bytes
  let version ← Header.version.fetch bytes
  .demand (version = 6) (.ipv6Version version)
  let nextHeader : IpProtocol := .ofId (← Header.nextHeader.fetch bytes).toUInt8
  let header := {
    trafficClass := (← Header.trafficClass.fetch bytes).toUInt8
    flowLabel := (← Header.flowLabel.fetch bytes).toUInt32
    nextHeader := nextHeader
    hopLimit := (← Header.hopLimit.fetch bytes).toUInt8
    source := .ofNat (← Header.source.fetch bytes)
    destination := .ofNat (← Header.destination.fetch bytes) }
  let stop := Header.size + (← Header.payloadChecked bytes).length
  return ⟨header, ← bytes.range Header.size stop, nextHeader.kind?⟩

end Ipv6

def Udp.decodeChecked (bytes : Bytes) : Outcome (Decoded Udp) := do
  requireSize .udp Header.size bytes
  let length ← Header.length.fetch bytes
  let stop := if Header.size ≤ length ∧ length ≤ bytes.length then length else bytes.length
  let header := {
    sourcePort := (← Header.source.fetch bytes).toUInt16
    destinationPort := (← Header.destination.fetch bytes).toUInt16
    checksum := (← Header.checksum.fetch bytes).toUInt16 }
  let payload ← bytes.range Header.size stop
  return ⟨header, payload, none⟩

/-- Reads options, each from its kind to the last byte that its length counts. -/
def TcpOption.parseAllChecked : Bytes → Outcome (List TcpOption)
  | [] => .ok []
  | kind :: rest =>
      if kind = endOfList then .ok []
      else if kind = noOperation then return nop :: (← parseAllChecked rest)
      else
        let length := (rest.headD 0).toNat
        if length < 2 ∨ rest.length + 1 < length then
          .malformed (.tcpOptionLength kind.toNat length)
        else do
          let data ← Bytes.range (kind :: rest) 2 length
          let _ ← Bytes.rest (kind :: rest) length
          return ⟨kind, data⟩ :: (← parseAllChecked (rest.drop (length - 1)))
termination_by bytes => bytes.length
decreasing_by
  all_goals simp only [List.length_drop, List.length_cons]
  all_goals omega

namespace Tcp

def Header.optionsChecked (bytes : Bytes) : Outcome Bytes := do
  let stop ← Outcome.clamp (4 * (← dataOffset.fetch bytes)) size bytes.length
  bytes.range size stop

def decodeChecked (bytes : Bytes) : Outcome (Decoded Tcp) := do
  requireSize .tcp Header.size bytes
  let words ← Header.dataOffset.fetch bytes
  let headerLength := 4 * words
  .demand (Header.size ≤ headerLength ∧ headerLength ≤ bytes.length) (.tcpDataOffset words)
  let header := {
    sourcePort := (← Header.source.fetch bytes).toUInt16
    destinationPort := (← Header.destination.fetch bytes).toUInt16
    sequence := (← Header.sequence.fetch bytes).toUInt32
    acknowledgement := (← Header.acknowledgement.fetch bytes).toUInt32
    flags := ⟨(← Header.flags.fetch bytes).toUInt8⟩
    window := (← Header.window.fetch bytes).toUInt16
    urgentPointer := (← Header.urgentPointer.fetch bytes).toUInt16
    options := ← TcpOption.parseAllChecked (← Header.optionsChecked bytes)
    checksum := (← Header.checksum.fetch bytes).toUInt16 }
  let payload ← bytes.rest headerLength
  return ⟨header, payload, none⟩

end Tcp

end PacketStack
