import PacketStack.Frame
import PacketStack.Registry

/-!
Logical link control headers with a subnetwork access part, the encapsulation of 802.11 data.
-/

namespace PacketStack

structure Snap where
  control : UInt8
  /-- The organization code, of which 24 bits are written. -/
  organization : UInt32
  /-- The type announced when the inner layer has no registered one. -/
  payloadType : UInt16
  deriving DecidableEq, Repr

namespace Snap

namespace Header

def destinationAccess : HeaderField := .byte "dsap" 0

def sourceAccess : HeaderField := .byte "ssap" 1

def control : HeaderField := .byte "control" 2

def organization : HeaderField := .whole .word32 "org_code" 3 3

def etherType : HeaderField := .etherType "ether_type" 6

def size : Nat := 8

def type (bytes : Bytes) : EtherType := .ofId (etherType.get bytes).toUInt16

def layout : HeaderLayout where
  part := .snap
  minimum := size
  fields := [destinationAccess, sourceAccess, control, organization, etherType]
  regions := [("packet", id), ("payload", List.drop size)]
  blocks := []
  describe bytes := Text.record "SnapPacket" [
    ("dsap", destinationAccess.describe bytes),
    ("ssap", sourceAccess.describe bytes),
    ("control", control.describe bytes),
    ("org_code", organization.describe bytes),
    ("ether_type", etherType.describe bytes),
    ("payload", Text.quotedBytes (bytes.drop size))]

end Header

def accessPoint : Nat := 0xaa

def unnumberedInformation : UInt8 := 0x03

instance : Inhabited Snap := ⟨⟨unnumberedInformation, 0, 0⟩⟩

def headerSize : Nat := Header.size

def write (snap : Snap) (inner : Option Kind) : Write Unit := do
  Write.require .snap Header.size
  Write.store Header.destinationAccess accessPoint
  Write.store Header.sourceAccess accessPoint
  Write.store Header.control snap.control.toNat
  Write.store Header.organization snap.organization.toNat
  Write.store Header.etherType (EtherType.announce inner snap.payloadType).toNat

def ofBytes (bytes : Bytes) : Snap where
  control := (Header.control.get bytes).toUInt8
  organization := (Header.organization.get bytes).toUInt32
  payloadType := (Header.type bytes).id

def decode : Bytes → Outcome (Decoded Snap) :=
  Decoded.fixed .snap Header.size ofBytes fun bytes => (Header.type bytes).kind?

end Snap

end PacketStack
