import PacketStack.Error
import PacketStack.Text.Record

/-!
48-bit hardware addresses and their text, six groups of hexadecimal digits.
-/

namespace PacketStack

/-- A hardware address as the number its six octets spell, the first octet highest. -/
structure HwAddress where
  bits : BitVec 48
  deriving DecidableEq, Repr, Inhabited

namespace HwAddress

def ofNat (n : Nat) : HwAddress := ⟨BitVec.ofNat 48 n⟩

def toNat (address : HwAddress) : Nat := address.bits.toNat

def zero : HwAddress := ofNat 0

def broadcast : HwAddress := ⟨BitVec.allOnes 48⟩

def octets (address : HwAddress) : Bytes := Bytes.ofNatBE 6 address.toNat

@[simp] theorem ofNat_toNat (address : HwAddress) : ofNat address.toNat = address := by
  simp [ofNat, toNat]

@[simp] theorem length_octets (address : HwAddress) : address.octets.length = 6 := by
  simp [octets]

def ofBytes (bytes : Bytes) : Outcome HwAddress :=
  if bytes.length < 6 then .refuse (.shortBuffer .hwAddress 6 bytes.length)
  else .ok (ofNat (Bytes.toNatBE (bytes.take 6)))

def isBroadcast (address : HwAddress) : Bool := address == broadcast

def isMulticast (address : HwAddress) : Bool := address.bits.getLsbD 40

def isUnicast (address : HwAddress) : Bool := !address.isMulticast

def text (address : HwAddress) : String := Text.hexSeparated [':'] address.octets

def describe (address : HwAddress) : String := Text.tuple "HwAddress" address.text

def groups : List Char → List (List Char)
  | [] => [[]]
  | c :: rest =>
      if c = ':' ∨ c = '-' then [] :: groups rest
      else match groups rest with
        | [] => [[c]]
        | group :: others => (c :: group) :: others

def groupValue? : List Char → Option Nat
  | [c] => Text.hexValue? c
  | ['+', c] => Text.hexValue? c
  | [high, low] => do return 16 * (← Text.hexValue? high) + (← Text.hexValue? low)
  | _ => none

/-- Reads six groups of digits between single colons or hyphens. -/
def parse (text : String) : Outcome HwAddress :=
  match (groups text.toList).mapM groupValue? with
  | some [a, b, c, d, e, f] =>
      .ok (ofNat (Bytes.toNatBE ([a, b, c, d, e, f].map UInt8.ofNat)))
  | _ => .refuse (.invalidAddress text)

end HwAddress

end PacketStack
