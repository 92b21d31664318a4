import PacketStack.Frame
import PacketStack.Checksum

/-!
IPv6 datagrams. Extension headers are part of what a datagram carries.
-/

namespace PacketStack

structure Ipv6 where
  trafficClass : UInt8
  /-- The flow label, of which 20 bits are written. -/
  flowLabel : UInt32
  /-- The protocol announced when the inner layer is no IP transport. -/
  nextHeader : IpProtocol
  hopLimit : UInt8
  source : Ipv6Address
  destination : Ipv6Address
  deriving DecidableEq, Repr

namespace Ipv6

namespace Header

def version : HeaderField where
  start := 0
  width := 4
  name := "version"
  type := .byte
  getter := .word 0 28 0xffffffff
  setter := some (.word 0 0xf0000000 28)

def trafficClass : HeaderField where
  start := 4
  width := 8
  name := "traffic_class"
  type := .byte
  getter := .word 0 20 0xffffffff
  setter := some (.word 0 0x0ff00000 20)

def flowLabel : HeaderField where
  start := 12
  width := 20
  name := "flow_label"
  type := .word32
  getter := .word 0 0 0x000fffff
  setter := some (.word 0 0x000fffff 0)

def payloadLength : HeaderField := .word16 "payload_length" 4

def nextHeader : HeaderField := .protocol "next_header" 6

def hopLimit : HeaderField := .byte "hop_limit" 7

def source : HeaderField := .internet6 "source_address" 8

def destination : HeaderField := .internet6 "destination_address" 24

def size : Nat := 40

def payload (bytes : Bytes) : Bytes := (bytes.drop size).take (payloadLength.get bytes)

def layout : HeaderLayout where
  part := .ipv6
  minimum := size
  fields := [version, trafficClass, flowLabel, payloadLength, nextHeader, hopLimit, source,
    destination]
  regions := [("packet", id), ("payload", payload)]
  blocks := []
  describe bytes := Text.record "Ipv6Packet" [
    ("traffic_class", trafficClass.describe bytes),
    ("flow_label", flowLabel.describe bytes),
    ("next_header", nextHeader.describe bytes),
    ("hop_limit", hopLimit.describe bytes),
    ("src", source.describe bytes),
    ("dst", destination.describe bytes),
    ("payload", Text.quotedBytes (payload bytes))]

end Header

def noNextHeader : IpProtocol := .other 59

def new (destination source : Ipv6Address) : Ipv6 where
  trafficClass := 0
  flowLabel := 0
  nextHeader := noNextHeader
  hopLimit := 64
  source := source
  destination := destination

instance : Inhabited Ipv6 := ⟨new .zero .zero⟩

def headerSize : Nat := Header.size

def write (ip : Ipv6) (inner : Option Kind) : Write Unit := do
  let length := (← Write.frame).length - Header.size
  Write.demand (length ≤ 0xffff) (.ipv6Size length)
  Write.require .ipv6 Header.size
  Write.store Header.version 6
  Write.store Header.trafficClass ip.trafficClass.toNat
  Write.store Header.flowLabel ip.flowLabel.toNat
  Write.store Header.payloadLength length
  Write.store Header.nextHeader (IpProtocol.announce inner ip.nextHeader).id.toNat
  Write.store Header.hopLimit ip.hopLimit.toNat
  Write.store Header.source ip.source.toNat
  Write.store Header.destination ip.destination.toNat

/-- Bytes after the declared length are left out. -/
def decode (bytes : Bytes) : Outcome (Decoded Ipv6) := do
  requireSize .ipv6 Header.size bytes
  let version := Header.version.get bytes
  .demand (version = 6) (.ipv6Version version)
  let nextHeader : IpProtocol := .ofId (Header.nextHeader.get bytes).toUInt8
  let header := {
    trafficClass := (Header.trafficClass.get bytes).toUInt8
    flowLabel := (Header.flowLabel.get bytes).toUInt32
    nextHeader := nextHeader
    hopLimit := (Header.hopLimit.get bytes).toUInt8
    source := Header.source.ipv6Address bytes
    destination := Header.destination.ipv6Address bytes }
  let payload ← bytes.range Header.size (Header.size + (Header.payload bytes).length)
  return ⟨header, payload, nextHeader.kind?⟩

theorem payload_lt {bytes : Bytes} {decoded : Decoded Ipv6}
    (read : decode bytes = .ok decoded) : decoded.payload.length < bytes.length := by
  simp only [decode, Outcome.bind_eq_ok, requireSize_eq_ok, Bytes.range_eq_ok] at read
  obtain ⟨_, large, _, _, payload, ⟨_, _, rfl⟩, result⟩ := read
  injection result with result
  subst result
  simp only [Header.size, Bytes.length_window] at large ⊢
  omega

end Ipv6

end PacketStack
