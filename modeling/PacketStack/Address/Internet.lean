import PacketStack.Text.Record

/-!
Internet addresses of both versions and their text.
-/

namespace PacketStack

structure Ipv4Address where
  bits : BitVec 32
  deriving DecidableEq, Repr, Inhabited

namespace Ipv4Address

def ofNat (n : Nat) : Ipv4Address := ⟨BitVec.ofNat 32 n⟩

def toNat (address : Ipv4Address) : Nat := address.bits.toNat

def zero : Ipv4Address := ofNat 0

def octets (address : Ipv4Address) : Bytes := Bytes.ofNatBE 4 address.toNat

@[simp] theorem ofNat_toNat (address : Ipv4Address) : ofNat address.toNat = address := by
  simp [ofNat, toNat]

@[simp] theorem length_octets (address : Ipv4Address) : address.octets.length = 4 := by
  simp [octets]

def text (address : Ipv4Address) : String :=
  ".".intercalate (address.octets.map fun octet => toString octet.toNat)

end Ipv4Address

structure Ipv6Address where
  bits : BitVec 128
  deriving DecidableEq, Repr, Inhabited

namespace Ipv6Address

def ofNat (n : Nat) : Ipv6Address := ⟨BitVec.ofNat 128 n⟩

def toNat (address : Ipv6Address) : Nat := address.bits.toNat

def zero : Ipv6Address := ofNat 0

def octets (address : Ipv6Address) : Bytes := Bytes.ofNatBE 16 address.toNat

@[simp] theorem ofNat_toNat (address : Ipv6Address) : ofNat address.toNat = address := by
  simp [ofNat, toNat]

@[simp] theorem length_octets (address : Ipv6Address) : address.octets.length = 16 := by
  simp [octets]

def segments (address : Ipv6Address) : List Nat :=
  (List.range 8).map fun i => (address.toNat >>> (16 * (7 - i))) % 65536

def zeroRun (groups : List Nat) : Nat := (groups.takeWhile (· = 0)).length

def longestZeroRun (groups : List Nat) : Nat × Nat :=
  (List.range groups.length).foldl
    (fun best start =>
      let run := zeroRun (groups.drop start)
      if best.2 < run then (start, run) else best)
    (0, 0)

def groupsText (groups : List Nat) : String := ":".intercalate (groups.map Text.hexNumber)

def text (address : Ipv6Address) : String :=
  if address.toNat >>> 32 = 0xffff then
    "::ffff:" ++ (Ipv4Address.ofNat address.toNat).text
  else
    let groups := address.segments
    let (start, run) := longestZeroRun groups
    if run ≤ 1 then groupsText groups
    else groupsText (groups.take start) ++ "::" ++ groupsText (groups.drop (start + run))

end Ipv6Address

inductive IpAddress where
  | v4 (address : Ipv4Address)
  | v6 (address : Ipv6Address)
  deriving DecidableEq, Repr, Inhabited

namespace IpAddress

def octets : IpAddress → Bytes
  | .v4 address => address.octets
  | .v6 address => address.octets

def text : IpAddress → String
  | .v4 address => address.text
  | .v6 address => address.text

def isV4 : IpAddress → Bool
  | .v4 _ => true
  | .v6 _ => false

end IpAddress

end PacketStack
