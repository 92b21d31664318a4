import PacketStack.Frame
import PacketStack.Checksum

/-!
IPv4 datagrams. The lengths and the checksum of a header are computed when it is written.
-/

namespace PacketStack

structure Ipv4 where
  tos : UInt8
  identification : UInt16
  flagsAndFragmentOffset : UInt16
  ttl : UInt8
  /-- The protocol announced when the inner layer is no IP transport. -/
  protocol : IpProtocol
  source : Ipv4Address
  destination : Ipv4Address
  /-- The option bytes, which are filled up with zeros to whole 32 bit words. -/
  options : Bytes
  /-- The checksum found when the header was read. -/
  checksum : UInt16
  deriving DecidableEq, Repr

namespace Ipv4

namespace Header

def version : HeaderField where
  start := 0
  width := 4
  name := "version"
  type := .byte
  getter := .byte 0 4 0xff
  setter := some (.byte 0 0xf0 4)

/-- The length of the header in 32 bit words. -/
def headerLength : HeaderField where
  start := 4
  width := 4
  name := "header_length"
  type := .byte
  getter := .byte 0 0 0x0f
  setter := some (.byte 0 0x0f 0)

def tos : HeaderField := .byte "tos" 1

def totalLength : HeaderField := .word16 "total_length" 2

def identification : HeaderField := .word16 "identification" 4

def flagsAndFragmentOffset : HeaderField := .word16 "flags_and_fragment_offset" 6

def ttl : HeaderField := .byte "ttl" 8

def protocol : HeaderField := .protocol "protocol" 9

def checksum : HeaderField := .word16 "checksum" 10

def source : HeaderField := .internet "source" 12

def destination : HeaderField := .internet "destination" 16

def size : Nat := 20

def stop (bytes : Bytes) : Nat := min (4 * headerLength.get bytes) bytes.length

def options (bytes : Bytes) : Bytes := (bytes.take (stop bytes)).drop size

def layout : HeaderLayout where
  part := .ipv4
  minimum := size
  fields := [version, headerLength, tos, totalLength, identification, flagsAndFragmentOffset, ttl,
    protocol, checksum, source, destination]
  regions := [
    ("packet", id),
    ("header", fun bytes => bytes.take (stop bytes)),
    ("payload", fun bytes => bytes.drop (stop bytes)),
    ("options_raw", options)]
  blocks := [("options_raw", size)]
  describe bytes := Text.record "Ipv4Packet" [
    ("ihl", headerLength.describe bytes),
    ("tos", tos.describe bytes),
    ("total_length", totalLength.describe bytes),
    ("id", identification.describe bytes),
    ("fragment", flagsAndFragmentOffset.describe bytes),
    ("ttl", ttl.describe bytes),
    ("protocol", protocol.describe bytes),
    ("checksum", checksum.describe bytes),
    ("src", source.describe bytes),
    ("dst", destination.describe bytes),
    ("options", Text.list ((options bytes).map fun option => toString option.toNat)),
    ("payload", Text.quotedBytes (bytes.drop (stop bytes)))]

end Header

/-- A datagram with the default time to live and no known content. -/
def new (destination source : Ipv4Address) : Ipv4 where
  tos := 0
  identification := 1
  flagsAndFragmentOffset := 0
  ttl := 128
  protocol := .other 0
  source := source
  destination := destination
  options := []
  checksum := 0

instance : Inhabited Ipv4 := ⟨new .zero .zero⟩

def dontFragment (ip : Ipv4) : Bool := ip.flagsAndFragmentOffset &&& 0x4000 != 0

def moreFragments (ip : Ipv4) : Bool := ip.flagsAndFragmentOffset &&& 0x2000 != 0

def fragmentOffset (ip : Ipv4) : UInt16 := ip.flagsAndFragmentOffset &&& 0x1fff

def isFragmented (ip : Ipv4) : Bool := ip.moreFragments || ip.fragmentOffset != 0

def headerSize (ip : Ipv4) : Nat := Header.size + (Bytes.padTo 4 ip.options).length

def write (ip : Ipv4) (inner : Option Kind) : Write Unit := do
  let total := (← Write.frame).length
  Write.demand (total ≤ 0xffff) (.ipv4Size total)
  Write.reach ip.headerSize
  Write.store Header.version 4
  Write.store Header.headerLength (ip.headerSize / 4)
  Write.store Header.tos ip.tos.toNat
  Write.store Header.totalLength total
  Write.store Header.identification ip.identification.toNat
  Write.store Header.flagsAndFragmentOffset ip.flagsAndFragmentOffset.toNat
  Write.store Header.ttl ip.ttl.toNat
  Write.store Header.protocol (IpProtocol.announce inner ip.protocol).id.toNat
  Write.store Header.source ip.source.toNat
  Write.store Header.destination ip.destination.toNat
  Write.put Header.size ip.options
  Write.store Header.checksum 0
  Write.store Header.checksum (Checksum.ipv4Header ((← Write.frame).take ip.headerSize)).toNat

/-- Bytes after the total length are left out, a total length of zero stands for all bytes. What a
fragment carries is opaque. -/
def decode (bytes : Bytes) : Outcome (Decoded Ipv4) := do
  requireSize .ipv4 Header.size bytes
  let version := Header.version.get bytes
  let words := Header.headerLength.get bytes
  let headerLength := 4 * words
  .demand (version = 4 ∧ Header.size ≤ headerLength ∧ headerLength ≤ bytes.length)
    (.ipv4Header version words)
  let totalLength := Header.totalLength.get bytes
  .demand (totalLength = 0 ∨ headerLength ≤ totalLength)
    (.ipv4TotalLength totalLength headerLength)
  let stop := if totalLength = 0 then bytes.length else min totalLength bytes.length
  let protocol : IpProtocol := .ofId (Header.protocol.get bytes).toUInt8
  let header := {
    tos := (Header.tos.get bytes).toUInt8
    identification := (Header.identification.get bytes).toUInt16
    flagsAndFragmentOffset := (Header.flagsAndFragmentOffset.get bytes).toUInt16
    ttl := (Header.ttl.get bytes).toUInt8
    protocol := protocol
    source := Header.source.ipv4Address bytes
    destination := Header.destination.ipv4Address bytes
    options := Header.options bytes
    checksum := (Header.checksum.get bytes).toUInt16 }
  let payload ← bytes.range headerLength stop
  return ⟨header, payload, if header.isFragmented then none else protocol.kind?⟩

theorem payload_lt {bytes : Bytes} {decoded : Decoded Ipv4}
    (read : decode bytes = .ok decoded) : decoded.payload.length < bytes.length := by
  simp only [decode, Outcome.bind_eq_ok, Outcome.demand_eq_ok, Bytes.range_eq_ok] at read
  obtain ⟨_, _, _, ⟨_, large, _⟩, _, _, payload, ⟨_, _, rfl⟩, result⟩ := read
  injection result with result
  subst result
  simp only [Header.size, Bytes.length_window] at large ⊢
  omega

end Ipv4

end PacketStack
