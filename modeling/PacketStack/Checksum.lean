import PacketStack.Address.Internet
import PacketStack.Registry

/-!
The checksum of internet headers: the complement of the ones' complement sum of all 16 bit words.

Each checksum leaves out the word that holds it, so a header may be summed while its checksum field
still has an old value.
-/

namespace PacketStack.Checksum

/-- Adds the big-endian 16 bit words of the data to a sum. An odd last byte is the high half of a
word. -/
def addWords (sum : Nat) : Bytes → Nat
  | high :: low :: rest => addWords (sum + (256 * high.toNat + low.toNat)) rest
  | [high] => sum + 256 * high.toNat
  | [] => sum

/-- Carries the digits above 16 bits around into the low ones until none are left. -/
def fold (sum : Nat) : Nat :=
  if sum ≤ 0xffff then sum else fold (sum / 0x10000 + sum % 0x10000)
termination_by sum
decreasing_by omega

def complement (sum : Nat) : UInt16 := (0xffff - fold sum).toUInt16

def withoutWord (index : Nat) (data : Bytes) : Bytes :=
  data.take (2 * index) ++ data.drop (2 * index + 2)

def ofMessage (checksumWord : Nat) (data : Bytes) : UInt16 :=
  if data.isEmpty then 0 else complement (addWords 0 (withoutWord checksumWord data))

def ipv4Header (header : Bytes) : UInt16 := ofMessage 5 header

def icmp (message : Bytes) : UInt16 := ofMessage 1 message

def pseudoHeader (source destination : IpAddress) (protocol : IpProtocol) (length : Nat) : Nat :=
  addWords (addWords 0 source.octets) destination.octets + protocol.id.toNat + length

def checksumWord? (protocol : IpProtocol) : Option Nat :=
  if protocol = .tcp then some 8
  else if protocol = .udp then some 3
  else none

def transport? (data : Bytes) (protocol : IpProtocol) (source destination : IpAddress) :
    Option UInt16 :=
  if source.isV4 = destination.isV4 then
    let summed := match checksumWord? protocol with
      | some index => withoutWord index data
      | none => data
    some (complement (addWords (pseudoHeader source destination protocol data.length) summed))
  else none

end PacketStack.Checksum
