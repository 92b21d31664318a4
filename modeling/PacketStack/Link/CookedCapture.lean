import PacketStack.Frame
import PacketStack.Registry

/-!
The header of Linux cooked captures, which stands for a link layer that was not recorded.
-/

namespace PacketStack

structure CookedCapture where
  packetType : UInt16
  addressType : UInt16
  addressLength : UInt16
  address : Octets 8
  /-- The type announced when the inner layer has no registered one. -/
  protocol : UInt16
  deriving DecidableEq, Inhabited

namespace CookedCapture

namespace Header

def packetType : HeaderField := .word16 "packet_type" 0

def addressType : HeaderField := .word16 "lladdr_type" 2

def addressLength : HeaderField := .word16 "lladdr_len" 4

def address : HeaderField := .octets "address" 6 8

def protocol : HeaderField := .etherType "protocol" 14

def size : Nat := 16

def type (bytes : Bytes) : EtherType := .ofId (protocol.get bytes).toUInt16

def layout : HeaderLayout where
  part := .sll
  minimum := size
  fields := [packetType, addressType, addressLength, address, protocol]
  regions := [("packet", id), ("payload", List.drop size)]
  blocks := []
  describe bytes := Text.record "SllPacket" [
    ("packet_type", packetType.describe bytes),
    ("lladdr_type", addressType.describe bytes),
    ("lladdr_len", addressLength.describe bytes),
    ("address", address.describe bytes),
    ("protocol", protocol.describe bytes),
    ("payload", Text.quotedBytes (bytes.drop size))]

end Header

def headerSize : Nat := Header.size

def write (cooked : CookedCapture) (inner : Option Kind) : Write Unit := do
  Write.require .sll Header.size
  Write.store Header.packetType cooked.packetType.toNat
  Write.store Header.addressType cooked.addressType.toNat
  Write.store Header.addressLength cooked.addressLength.toNat
  Write.store Header.address cooked.address.toNat
  Write.store Header.protocol (EtherType.announce inner cooked.protocol).toNat

def ofBytes (bytes : Bytes) : CookedCapture where
  packetType := (Header.packetType.get bytes).toUInt16
  addressType := (Header.addressType.get bytes).toUInt16
  addressLength := (Header.addressLength.get bytes).toUInt16
  address := .ofNat 8 (Header.address.get bytes)
  protocol := (Header.type bytes).id

def decode : Bytes → Outcome (Decoded CookedCapture) :=
  Decoded.fixed .sll Header.size ofBytes fun bytes => (Header.type bytes).kind?

end CookedCapture

end PacketStack
