import PacketStack.Frame

/-!
The header of loopback captures: the address family in the byte order of the capturing host.
-/

namespace PacketStack

structure Loopback where
  /-- The family announced when the inner layer has no known one. -/
  family : UInt32
  deriving DecidableEq, Repr, Inhabited

namespace Loopback

def internet : UInt32 := 2

def internet6 : List UInt32 := [24, 28, 30]

def headerSize : Nat := 4

def announce (inner : Option Kind) (current : UInt32) : UInt32 :=
  match inner with
  | some .ipv4 => internet
  | some .ipv6 => if current ∈ internet6 then current else 24
  | _ => current

def kind? (family : UInt32) : Option Kind :=
  if family = internet then some .ipv4
  else if family ∈ internet6 then some .ipv6
  else none

def write (loopback : Loopback) (inner : Option Kind) : Write Unit := do
  Write.require .loopback headerSize
  Write.put 0 (Bytes.ofNatLE 4 (announce inner loopback.family).toNat)

def familyOf (word : Bytes) : UInt32 :=
  let family := Bytes.toNatLE word
  if family ≤ 0xffff then family.toUInt32 else (Bytes.toNatBE word).toUInt32

def ofBytes (bytes : Bytes) : Loopback := ⟨familyOf (bytes.take headerSize)⟩

def decode : Bytes → Outcome (Decoded Loopback) :=
  Decoded.fixed .loopback headerSize ofBytes fun bytes => kind? (ofBytes bytes).family

end Loopback

end PacketStack
