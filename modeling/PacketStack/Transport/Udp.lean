import PacketStack.Frame
import PacketStack.Checksum

/-!
UDP datagrams. What they carry is opaque.
-/

namespace PacketStack

structure Udp where
  sourcePort : UInt16
  destinationPort : UInt16
  /-- The checksum found when the datagram was read. -/
  checksum : UInt16
  deriving DecidableEq, Repr, Inhabited

namespace Udp

namespace Header

def source : HeaderField := .word16 "source" 0

def destination : HeaderField := .word16 "destination" 2

def length : HeaderField := .word16 "length" 4

def checksum : HeaderField := .word16 "checksum" 6

def size : Nat := 8

def layout : HeaderLayout where
  part := .udp
  minimum := size
  fields := [source, destination, length, checksum]
  regions := [("packet", id), ("payload", List.drop size)]
  blocks := [("payload", size)]
  describe bytes := Text.record "UdpPacket" [
    ("source", source.describe bytes),
    ("destination", destination.describe bytes),
    ("length", length.describe bytes),
    ("checksum", checksum.describe bytes),
    ("payload", Text.quotedBytes (bytes.drop size))]

end Header

def headerSize : Nat := Header.size

/-- Without the addresses of the enclosing datagram there is no checksum. -/
def write (udp : Udp) (addresses : Option (IpAddress × IpAddress)) : Write Unit := do
  let length := (← Write.frame).length
  Write.demand (length ≤ 0xffff) (.udpSize length)
  Write.require .udp Header.size
  Write.store Header.source udp.sourcePort.toNat
  Write.store Header.destination udp.destinationPort.toNat
  Write.store Header.length length
  Write.store Header.checksum 0
  if let some (source, destination) := addresses then
    if let some checksum := Checksum.transport? (← Write.frame) .udp source destination then
      Write.store Header.checksum checksum.toNat

/-- Bytes after a usable length are left out. -/
def decode (bytes : Bytes) : Outcome (Decoded Udp) := do
  requireSize .udp Header.size bytes
  let length := Header.length.get bytes
  let stop := if Header.size ≤ length ∧ length ≤ bytes.length then length else bytes.length
  let header := {
    sourcePort := (Header.source.get bytes).toUInt16
    destinationPort := (Header.destination.get bytes).toUInt16
    checksum := (Header.checksum.get bytes).toUInt16 }
  let payload ← bytes.range Header.size stop
  return ⟨header, payload, none⟩

theorem next_eq_none {bytes : Bytes} {decoded : Decoded Udp}
    (read : decode bytes = .ok decoded) : decoded.next = none := by
  simp only [decode, Outcome.bind_eq_ok] at read
  obtain ⟨_, _, _, _, result⟩ := read
  injection result with result
  rw [← result]

end Udp

end PacketStack
