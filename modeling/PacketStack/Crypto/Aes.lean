import PacketStack.Bytes

/-!
The block cipher AES with keys of 128 bits.

A block is the list of its bytes, column after column. The substitution of bytes is computed from
its definition: the inverse in the field of 256 elements and an affine map.
-/

namespace PacketStack

namespace Aes

def double (byte : UInt8) : UInt8 :=
  if byte &&& 0x80 = 0 then byte <<< 1 else (byte <<< 1) ^^^ 0x1b

def multiply (left right : UInt8) : Nat → UInt8
  | 0 => 0
  | bits + 1 =>
      (if right &&& 1 = 1 then left else 0) ^^^ multiply (double left) (right >>> 1) bits

def inverse (byte : UInt8) : UInt8 :=
  (((List.range 256).map UInt8.ofNat).find? fun other => multiply byte other 8 == 1).getD 0

def rotate (byte : UInt8) (count : UInt8) : UInt8 := (byte <<< count) ||| (byte >>> (8 - count))

def affine (byte : UInt8) : UInt8 :=
  byte ^^^ rotate byte 1 ^^^ rotate byte 2 ^^^ rotate byte 3 ^^^ rotate byte 4 ^^^ 0x63

def substitutions : Vector UInt8 256 := Vector.ofFn fun i => affine (inverse (UInt8.ofNat i.val))

def substitute (byte : UInt8) : UInt8 := substitutions.get ⟨byte.toNat, byte.toNat_lt⟩

def shiftRows (block : Bytes) : Bytes :=
  match block with
  | [a, b, c, d, e, f, g, h, i, j, k, l, m, n, o, p] =>
      [a, f, k, p, e, j, o, d, i, n, c, h, m, b, g, l]
  | _ => block

def mixColumn (a b c d : UInt8) : Bytes :=
  let all := a ^^^ b ^^^ c ^^^ d
  [a ^^^ all ^^^ double (a ^^^ b), b ^^^ all ^^^ double (b ^^^ c),
    c ^^^ all ^^^ double (c ^^^ d), d ^^^ all ^^^ double (d ^^^ a)]

def mixColumns : Bytes → Bytes
  | a :: b :: c :: d :: rest => mixColumn a b c d ++ mixColumns rest
  | rest => rest

/-- The key of the next round. The constant belongs to the round. -/
def nextRoundKey (constant : UInt8) (key : Bytes) : Bytes :=
  match key with
  | [a, b, c, d, e, f, g, h, i, j, k, l, m, n, o, p] =>
      let first := [a ^^^ substitute n ^^^ constant, b ^^^ substitute o, c ^^^ substitute p,
        d ^^^ substitute m]
      let second := Bytes.xor first [e, f, g, h]
      let third := Bytes.xor second [i, j, k, l]
      first ++ second ++ third ++ Bytes.xor third [m, n, o, p]
  | _ => key

def roundKeys (constant : UInt8) (key : Bytes) : Nat → List Bytes
  | 0 => []
  | rounds + 1 =>
      let next := nextRoundKey constant key
      next :: roundKeys (double constant) next rounds

end Aes

/-- The cipher under one key: the key itself and those of the rounds. -/
structure Aes where
  whitening : Bytes
  rounds : List Bytes

namespace Aes

def ofKey (key : Octets 16) : Aes := ⟨key.bytes, roundKeys 1 key.bytes 10⟩

def encryptRounds (block : Bytes) : List Bytes → Bytes
  | [] => block
  | [key] => Bytes.xor (shiftRows (block.map substitute)) key
  | key :: keys =>
      encryptRounds (Bytes.xor (mixColumns (shiftRows (block.map substitute))) key) keys

def encrypt (aes : Aes) (block : Octets 16) : Octets 16 :=
  .ofBytes 16 (encryptRounds (Bytes.xor block.bytes aes.whitening) aes.rounds)

end Aes

end PacketStack
