import PacketStack.Packet
import PacketStack.Table

/-!
Joining the fragments of IPv4 datagrams.
-/

namespace PacketStack

/-- What the fragments of a datagram share. The addresses may come in either order. -/
structure DatagramKey where
  identification : UInt16
  lower : Ipv4Address
  upper : Ipv4Address
  deriving DecidableEq, Repr

def DatagramKey.of (identification : UInt16) (left right : Ipv4Address) : DatagramKey :=
  if left.toNat ≤ right.toNat then ⟨identification, left, right⟩ else ⟨identification, right, left⟩

/-- A part of a datagram and its offset in bytes. -/
structure DatagramPart where
  offset : Nat
  data : Bytes
  deriving DecidableEq, Repr

/-- The parts of a datagram so far. -/
structure Datagram where
  /-- The parts by their offset, of which each stands once. -/
  parts : List DatagramPart
  /-- How many bytes the parts have. -/
  received : Nat
  /-- The size of the datagram, once its last part is there. -/
  total : Option Nat
  deriving DecidableEq, Repr

namespace Datagram

def empty : Datagram := ⟨[], 0, none⟩

def insertPart (part : DatagramPart) : List DatagramPart → List DatagramPart
  | [] => [part]
  | first :: rest =>
      if part.offset < first.offset then part :: first :: rest else first :: insertPart part rest

def add (part : DatagramPart) (isLast : Bool) (datagram : Datagram) : Datagram :=
  if datagram.parts.any (·.offset == part.offset) then datagram
  else
    { parts := insertPart part datagram.parts
      received := datagram.received + part.data.length
      total := if isLast then some (part.offset + part.data.length) else datagram.total }

def isComplete (datagram : Datagram) : Bool := datagram.total == some datagram.received

def joinFrom? (offset : Nat) : List DatagramPart → Option Bytes
  | [] => some []
  | part :: rest =>
      if part.offset = offset then
        (joinFrom? (offset + part.data.length) rest).map (part.data ++ ·)
      else none

def join? (datagram : Datagram) : Option Bytes := joinFrom? 0 datagram.parts

end Datagram

inductive FragmentStatus where
  /-- The packet is no fragment of a datagram. -/
  | whole
  /-- The packet is a fragment, and the datagram is not there yet. -/
  | fragment
  /-- The packet has been made the whole datagram. -/
  | reassembled
  deriving DecidableEq, Repr

def FragmentStatus.text : FragmentStatus → String
  | .whole => "not-fragmented"
  | .fragment => "fragmented"
  | .reassembled => "reassembled"

/-- The datagrams that are not complete, the oldest first. -/
structure Reassembler where
  datagrams : Table DatagramKey Datagram
  capacity : Nat
  deriving DecidableEq, Repr

namespace Reassembler

def defaultCapacity : Nat := 1024

def new (capacity : Nat) : Reassembler := ⟨[], max capacity 1⟩

def fragment? (packet : Packet) : Option (Ipv4 × Bytes) :=
  match packet.find? .ipv4 with
  | some (.over (.ipv4 ip) inner) =>
      match inner.layer with
      | .raw raw => if ip.isFragmented && !raw.payload.isEmpty then some (ip, raw.payload) else none
      | _ => none
  | _ => none

def keyOf (ip : Ipv4) : DatagramKey := .of ip.identification ip.source ip.destination

def makeRoom (reassembler : Reassembler) (key : DatagramKey) : Table DatagramKey Datagram :=
  if !reassembler.datagrams.contains key ∧ reassembler.capacity ≤ reassembler.datagrams.length then
    reassembler.datagrams.drop 1
  else reassembler.datagrams

def parsePayload? (protocol : IpProtocol) (bytes : Bytes) : Option Packet :=
  match protocol.kind? with
  | some kind => (Packet.parse kind bytes).value?
  | none => some (.raw bytes)

def restore (ip : Ipv4) (inner : Packet) : Packet :=
  .over (.ipv4 { ip with flagsAndFragmentOffset := 0 }) inner

/-- Takes a packet. One that completes a datagram is changed to carry all of it; a datagram whose
parts do not fit together or cannot be read is dropped. -/
def process (reassembler : Reassembler) (packet : Packet) :
    Reassembler × Packet × FragmentStatus :=
  match fragment? packet with
  | none => (reassembler, packet, .whole)
  | some (ip, payload) =>
      let key := keyOf ip
      let datagrams := reassembler.makeRoom key
      let part : DatagramPart := ⟨8 * ip.fragmentOffset.toNat, payload⟩
      let datagram := ((datagrams.get? key).getD .empty).add part !ip.moreFragments
      if datagram.isComplete then
        let rest := { reassembler with datagrams := datagrams.erase key }
        match datagram.join?.bind (parsePayload? ip.protocol) with
        | none => (rest, packet, .fragment)
        | some inner =>
            (rest, (packet.modify? .ipv4 fun _ => restore ip inner).getD packet, .reassembled)
      else ({ reassembler with datagrams := datagrams.set key datagram }, packet, .fragment)

/-- Drops a datagram between two hosts. -/
def remove (reassembler : Reassembler) (identification : UInt16) (left right : Ipv4Address) :
    Reassembler :=
  { reassembler with
    datagrams := reassembler.datagrams.erase (.of identification left right) }

def clear (reassembler : Reassembler) : Reassembler := { reassembler with datagrams := [] }

end Reassembler

end PacketStack
