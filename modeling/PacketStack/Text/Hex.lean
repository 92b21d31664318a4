import PacketStack.Bytes

/-!
Hexadecimal text of bytes and numbers.
-/

namespace PacketStack.Text

def hexDigit (n : Nat) : Char := (Nat.toDigits 16 (n % 16)).headD '0'

def hexByte (byte : UInt8) : List Char := [hexDigit (byte.toNat / 16), hexDigit (byte.toNat % 16)]

def hexSeparated (separator : List Char) (bytes : Bytes) : String :=
  String.ofList (List.flatten ((bytes.map hexByte).intersperse separator))

def payload (bytes : Bytes) : String := hexSeparated [' '] bytes

def hexWord (word : UInt32) : String :=
  "0x" ++ String.ofList (List.flatten ((Bytes.ofNatBE 4 word.toNat).map hexByte))

def hexValue? (c : Char) : Option Nat :=
  if '0' ≤ c ∧ c ≤ '9' then some (c.toNat - '0'.toNat)
  else if 'a' ≤ c ∧ c ≤ 'f' then some (c.toNat - 'a'.toNat + 10)
  else if 'A' ≤ c ∧ c ≤ 'F' then some (c.toNat - 'A'.toNat + 10)
  else none

def hexNumber (n : Nat) : String := String.ofList (Nat.toDigits 16 n)

end PacketStack.Text
