import PacketStack.Packet

/-!
A packet written into one buffer: each layer into its own part of it, after the layers inside.

A part that reaches past the end of the buffer is a fault, and so is a size of more than 32 bits. A
layer is handed the whole of its part, so nothing but what it writes tells which bytes of the layers
inside it leaves alone.
-/

namespace PacketStack

namespace Write

def lift {α : Type} (outcome : Outcome α) : Write α := ExceptT.mk (pure outcome)

def part (start stop : Nat) (write : Write Unit) : Write Unit := do
  let before ← lift ((← frame).range start stop)
  let (outcome, after) := into before write
  modify fun frame => frame.splice start after
  lift outcome

end Write

namespace Packet

def measure : Packet → Outcome Nat
  | .single layer => do
      let front ← narrow layer.headerSize
      narrow (front + layer.trailerSize 0)
  | .over layer inner => do
      let size ← inner.measure
      let front ← narrow (layer.headerSize + size)
      narrow (front + layer.trailerSize size)

def writeWithin (addresses : Option (IpAddress × IpAddress)) : Packet → Write Unit
  | .single layer => layer.write none addresses
  | .over layer inner => do
      let size ← Write.lift inner.measure
      Write.part layer.headerSize (layer.headerSize + size) (inner.writeWithin layer.addresses?)
      layer.write (some inner.kind) addresses

def assembleWithin (addresses : Option (IpAddress × IpAddress)) (packet : Packet) :
    Outcome Bytes := do
  let size ← packet.measure
  let (outcome, bytes) := Write.into (List.replicate size 0) (packet.writeWithin addresses)
  outcome.map fun _ => bytes

def assemble (packet : Packet) : Outcome Bytes := packet.assembleWithin none

/-- Where a packet inside another one stands: the layer around it and the bytes from its first to
its last. -/
structure Region where
  parent : Option Layer
  node : Packet
  bytes : Bytes

def regionsWithin (parent : Option Layer) : Packet → Bytes → List Region
  | .single layer, bytes => [⟨parent, .single layer, bytes⟩]
  | .over layer inner, bytes =>
      ⟨parent, .over layer inner, bytes⟩ ::
        inner.regionsWithin (some layer) (bytes.window layer.headerSize inner.totalSize)

def regions (packet : Packet) (bytes : Bytes) : List Region := packet.regionsWithin none bytes

end Packet

end PacketStack
