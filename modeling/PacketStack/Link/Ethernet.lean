import PacketStack.Frame
import PacketStack.Registry

/-!
Ethernet frames. The frame check sequence is not part of a frame here.
-/

namespace PacketStack

structure Ethernet where
  destination : HwAddress
  source : HwAddress
  /-- The type announced when the inner layer has no registered one. -/
  payloadType : UInt16
  deriving DecidableEq, Repr, Inhabited

namespace Ethernet

namespace Header

def destination : HeaderField := .hardware "destination" 0

def source : HeaderField := .hardware "source" 6

def etherType : HeaderField := .etherType "ether_type" 12

def size : Nat := 14

def type (bytes : Bytes) : EtherType := .ofId (etherType.get bytes).toUInt16

def layout : HeaderLayout where
  part := .ethernet
  minimum := size
  fields := [destination, source, etherType]
  regions := [("packet", id), ("payload", List.drop size)]
  blocks := []
  describe bytes := Text.record "EthernetPacket" [
    ("destination", destination.describe bytes),
    ("source", source.describe bytes),
    ("ether_type", etherType.describe bytes),
    ("payload", Text.quotedBytes (bytes.drop size))]

end Header

def minimumFrameSize : Nat := 60

def headerSize : Nat := Header.size

def trailerSize (inner : Nat) : Nat := minimumFrameSize - (headerSize + inner)

def write (ethernet : Ethernet) (inner : Option Kind) : Write Unit := do
  Write.require .ethernet Header.size
  Write.store Header.destination ethernet.destination.toNat
  Write.store Header.source ethernet.source.toNat
  Write.store Header.etherType (EtherType.announce inner ethernet.payloadType).toNat

def ofBytes (bytes : Bytes) : Ethernet where
  destination := Header.destination.hwAddress bytes
  source := Header.source.hwAddress bytes
  payloadType := (Header.type bytes).id

def decode : Bytes → Outcome (Decoded Ethernet) :=
  Decoded.fixed .ethernet Header.size ofBytes fun bytes => (Header.type bytes).kind?

end Ethernet

end PacketStack
