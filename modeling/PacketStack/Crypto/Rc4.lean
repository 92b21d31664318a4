import PacketStack.Error

/-!
The RC4 stream cipher: a permutation of all bytes that is shuffled by a key and then by its own
output. Encryption and decryption are the same.
-/

namespace PacketStack

structure Rc4 where
  state : Vector UInt8 256
  i : UInt8
  j : UInt8

namespace Rc4

def exchange (state : Vector UInt8 256) (i j : UInt8) : Vector UInt8 256 :=
  state.swap i.toNat j.toNat i.toNat_lt j.toNat_lt

def read (state : Vector UInt8 256) (i : UInt8) : UInt8 := state.get ⟨i.toNat, i.toNat_lt⟩

def identity : Vector UInt8 256 := Vector.ofFn fun i => UInt8.ofNat i.val

def mixKey (shuffled : Vector UInt8 256 × UInt8) (step : UInt8 × UInt8) :
    Vector UInt8 256 × UInt8 :=
  let (i, byte) := step
  let (state, j) := shuffled
  let j := j + read state i + byte
  (exchange state i j, j)

def keySteps (key : Bytes) (nonempty : key ≠ []) : List (UInt8 × UInt8) :=
  (List.range 256).map fun i =>
    (UInt8.ofNat i, key.get ⟨i % key.length, Nat.mod_lt _ (List.length_pos_iff.mpr nonempty)⟩)

def ofKey (key : Bytes) (nonempty : key ≠ []) : Rc4 :=
  ⟨((keySteps key nonempty).foldl mixKey (identity, 0)).1, 0, 0⟩

def new (key : Bytes) : Outcome Rc4 :=
  if empty : key = [] then .error (.fault .emptyKey) else .ok (ofKey key empty)

def next (cipher : Rc4) : UInt8 × Rc4 :=
  let i := cipher.i + 1
  let j := cipher.j + read cipher.state i
  let state := exchange cipher.state i j
  (read state (read state i + read state j), ⟨state, i, j⟩)

/-- Encrypts data and keeps the place in the keystream. -/
def apply (cipher : Rc4) : Bytes → Bytes × Rc4
  | [] => ([], cipher)
  | byte :: rest =>
      let (mask, cipher) := cipher.next
      let (encrypted, cipher) := cipher.apply rest
      ((byte ^^^ mask) :: encrypted, cipher)

def crypt (key : Bytes) (nonempty : key ≠ []) (data : Bytes) : Bytes :=
  ((ofKey key nonempty).apply data).1

def describe (_ : Rc4) : String := "Rc4 \x7b .. \x7d"

end Rc4

end PacketStack
