import PacketStack.Address.Hardware
import PacketStack.Address.Internet
import PacketStack.Registry

/-!
The values of header fields, and the ways in which they are read from a buffer and written to it.

A field is read by a `Getter` and written by a `Setter`, each with an offset, a mask and a shift of
its own. Neither knows of the other.
-/

namespace PacketStack

/-- What a header field holds. -/
inductive FieldType where
  | byte
  | word16
  | word32
  | word64
  | octets (size : Nat)
  | hardware
  | internet
  | internet6
  | protocol
  | etherType
  | operation
  | icmpType
  deriving DecidableEq, Repr

namespace FieldType

def Value : FieldType → Type
  | byte => UInt8
  | word16 => UInt16
  | word32 => UInt32
  | word64 => UInt64
  | octets size => Octets size
  | hardware => HwAddress
  | internet => Ipv4Address
  | internet6 => Ipv6Address
  | protocol => IpProtocol
  | etherType => EtherType
  | operation => ArpOperation
  | icmpType => IcmpType

/-- The number that is written for a value. -/
def toNat : (type : FieldType) → type.Value → Nat
  | byte, value => UInt8.toNat value
  | word16, value => UInt16.toNat value
  | word32, value => UInt32.toNat value
  | word64, value => UInt64.toNat value
  | octets _, value => Octets.toNat value
  | hardware, value => HwAddress.toNat value
  | internet, value => Ipv4Address.toNat value
  | internet6, value => Ipv6Address.toNat value
  | protocol, value => (IpProtocol.id value).toNat
  | etherType, value => (EtherType.id value).toNat
  | operation, value => (ArpOperation.id value).toNat
  | icmpType, value => (IcmpType.id value).toNat

/-- The value that is read from a number. Higher bits than the type has are dropped. -/
def ofNat : (type : FieldType) → Nat → type.Value
  | byte, n => n.toUInt8
  | word16, n => n.toUInt16
  | word32, n => n.toUInt32
  | word64, n => n.toUInt64
  | octets size, n => Octets.ofNat size n
  | hardware, n => HwAddress.ofNat n
  | internet, n => Ipv4Address.ofNat n
  | internet6, n => Ipv6Address.ofNat n
  | protocol, n => IpProtocol.ofId n.toUInt8
  | etherType, n => EtherType.ofId n.toUInt16
  | operation, n => ArpOperation.ofId n.toUInt16
  | icmpType, n => IcmpType.ofId n.toUInt8

/-- A value as it is shown in the description of a header. -/
def describe : (type : FieldType) → type.Value → String
  | byte, value => toString (UInt8.toNat value)
  | word16, value => toString (UInt16.toNat value)
  | word32, value => toString (UInt32.toNat value)
  | word64, value => toString (UInt64.toNat value)
  | octets _, value => Text.quotedBytes (Octets.bytes value)
  | hardware, value => HwAddress.describe value
  | internet, value => Ipv4Address.text value
  | internet6, value => Ipv6Address.text value
  | protocol, value => IpProtocol.text value
  | etherType, value => EtherType.text value
  | operation, value => ArpOperation.text value
  | icmpType, value => IcmpType.text value

end FieldType

inductive Getter where
  /-- A number of whole bytes, the highest first. -/
  | big (offset size : Nat)
  /-- A number of whole bytes, the lowest first. -/
  | little (offset size : Nat)
  /-- Some bits of a byte. -/
  | byte (offset : Nat) (shift mask : UInt8)
  /-- Some bits of a word of four bytes, the highest first. -/
  | word (offset : Nat) (shift mask : UInt32)
  deriving DecidableEq, Repr

/-- How a field is written. -/
inductive Setter where
  | big (offset size : Nat)
  | little (offset size : Nat)
  /-- Replaces the bits of a byte which the mask selects. -/
  | byte (offset : Nat) (mask shift : UInt8)
  /-- Replaces the bits of a word of four bytes which the mask selects. -/
  | word (offset : Nat) (mask shift : UInt32)
  deriving DecidableEq, Repr

namespace Bytes

def byte (bytes : Bytes) (offset : Nat) : UInt8 := bytes.getD offset 0

def word (bytes : Bytes) (offset : Nat) : UInt32 := (toNatBE (bytes.window offset 4)).toUInt32

end Bytes

namespace Getter

def read (bytes : Bytes) : Getter → Nat
  | big offset size => Bytes.toNatBE (bytes.window offset size)
  | little offset size => Bytes.toNatLE (bytes.window offset size)
  | byte offset shift mask => ((bytes.byte offset >>> shift) &&& mask).toNat
  | word offset shift mask => ((bytes.word offset >>> shift) &&& mask).toNat

end Getter

namespace Setter

def stop : Setter → Nat
  | big offset size | little offset size => offset + size
  | byte offset _ _ => offset + 1
  | word offset _ _ => offset + 4

def write (bytes : Bytes) (value : Nat) : Setter → Bytes
  | big offset size => bytes.splice offset (Bytes.ofNatBE size value)
  | little offset size => bytes.splice offset (Bytes.ofNatLE size value)
  | byte offset mask shift =>
      let merged := (bytes.byte offset &&& ~~~mask) ||| ((value.toUInt8 <<< shift) &&& mask)
      bytes.splice offset [merged]
  | word offset mask shift =>
      let merged := (bytes.word offset &&& ~~~mask) ||| ((value.toUInt32 <<< shift) &&& mask)
      bytes.splice offset (Bytes.ofNatBE 4 merged.toNat)

end Setter

end PacketStack
