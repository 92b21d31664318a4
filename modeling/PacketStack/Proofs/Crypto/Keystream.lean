import PacketStack.Proofs.Crypto.Rc4

/-!
RC4 as a stream cipher.

The bytes that it adds to data are those of one keystream, which goes on from call to call and knows
nothing of the data but its length. Each step exchanges two bytes of the state, so the state of a
cipher is all bytes in some order. Main statement: `streams`.
-/

namespace PacketStack

theorem Bytes.xor_comm (left right : Bytes) : xor left right = xor right left :=
  List.zipWith_comm_of_comm (fun first second => UInt8.xor_comm first second)

namespace Rc4

variable {key : Bytes} {cipher : Rc4} {state : Vector UInt8 256}

theorem eq_ofKey_of_new (made : new key = .ok cipher) :
    ∃ nonempty, cipher = ofKey key nonempty := by
  by_cases nonempty : key = []
  · rw [new, dif_pos nonempty] at made
    cases made
  · rw [new_eq nonempty] at made
    exact ⟨nonempty, (Except.ok.inj made).symm⟩

theorem apply_append (cipher : Rc4) (first second : Bytes) :
    cipher.apply (first ++ second) =
      ((cipher.apply first).1 ++ ((cipher.apply first).2.apply second).1,
        ((cipher.apply first).2.apply second).2) := by
  induction first generalizing cipher with
  | nil => rfl
  | cons byte rest ih => simp only [List.cons_append, apply, ih]

theorem length_apply (cipher : Rc4) (data : Bytes) :
    (cipher.apply data).1.length = data.length := by
  rw [apply_fst, Bytes.xor, List.length_zipWith, length_masks, Nat.min_self]

theorem xor_apply_self (cipher : Rc4) (data : Bytes) :
    Bytes.xor (cipher.apply data).1 data = cipher.masks data.length := by
  have covered : (cipher.masks data.length).length ≤ data.length := by simp
  calc
    Bytes.xor (cipher.apply data).1 data =
        Bytes.xor (Bytes.xor (cipher.masks data.length) data) data := by
      rw [apply_fst, Bytes.xor_comm data]
    _ = cipher.masks data.length := Bytes.xor_xor _ data covered

def Shuffled (state : Vector UInt8 256) : Prop := state.Perm identity

theorem shuffled_identity : Shuffled identity := Vector.Perm.refl identity

theorem Shuffled.exchange (shuffled : Shuffled state) (i j : UInt8) :
    Shuffled (exchange state i j) :=
  (Vector.swap_perm i.toNat_lt j.toNat_lt).trans shuffled

theorem Shuffled.mixKey {j : UInt8} (shuffled : Shuffled state) (step : UInt8 × UInt8) :
    Shuffled (mixKey (state, j) step).1 :=
  shuffled.exchange _ _

theorem Shuffled.schedule {j : UInt8} (shuffled : Shuffled state) (steps : List (UInt8 × UInt8)) :
    Shuffled (steps.foldl Rc4.mixKey (state, j)).1 := by
  induction steps generalizing state j with
  | nil => exact shuffled
  | cons step steps ih => exact ih (shuffled.mixKey step)

theorem Shuffled.next (shuffled : Shuffled cipher.state) : Shuffled cipher.next.2.state :=
  shuffled.exchange _ _

theorem Shuffled.apply (shuffled : Shuffled cipher.state) (data : Bytes) :
    Shuffled (cipher.apply data).2.state := by
  induction data generalizing cipher with
  | nil => exact shuffled
  | cons byte rest ih => exact ih shuffled.next

theorem toNat_identity : identity.toList.map UInt8.toNat = List.range 256 := by
  apply List.ext_getElem
  · simp [identity]
  · intro i small _
    have small : i < 256 := by simpa [identity] using small
    simp [identity]

theorem Shuffled.range (shuffled : Shuffled state) :
    (state.toList.map UInt8.toNat).Perm (List.range 256) := by
  rw [← toNat_identity]
  exact shuffled.toList.map UInt8.toNat

theorem shuffled_ofKey (key : Bytes) (nonempty : key ≠ []) :
    Shuffled (ofKey key nonempty).state := by
  unfold ofKey
  generalize keySteps key nonempty = steps
  exact shuffled_identity.schedule steps

/-- A cipher that a key has made, and that may have encrypted data since. -/
inductive Reached (key : Bytes) : Rc4 → Prop where
  | made {cipher : Rc4} (made : new key = .ok cipher) : Reached key cipher
  | applied {cipher : Rc4} (reached : Reached key cipher) (data : Bytes) :
      Reached key (cipher.apply data).2

theorem Reached.shuffled (reached : Reached key cipher) : Shuffled cipher.state := by
  induction reached with
  | made made =>
      rcases eq_ofKey_of_new made with ⟨nonempty, rfl⟩
      exact shuffled_ofKey key nonempty
  | applied reached data ih => exact ih.apply data

/-- Encrypting twice under one key gives the data back. What one cipher does to two pieces of data
is what it does to both at once, taken apart, and what is added to data is the keystream of the key
as long as the data. Each state of a cipher is a permutation of all bytes. -/
theorem streams (key : Bytes) (nonempty : key ≠ []) :
    new key = .ok (ofKey key nonempty) ∧
    (∀ data, crypt key nonempty (crypt key nonempty data) = data) ∧
    (∀ first second,
      ((ofKey key nonempty).apply first).1 =
        (crypt key nonempty (first ++ second)).take first.length ∧
      (((ofKey key nonempty).apply first).2.apply second).1 =
        (crypt key nonempty (first ++ second)).drop first.length) ∧
    (∀ data, Bytes.xor (crypt key nonempty data) data =
      (ofKey key nonempty).masks data.length) ∧
    ∀ cipher, Reached key cipher →
      (cipher.state.toList.map UInt8.toNat).Perm (List.range 256) := by
  refine ⟨new_eq nonempty, crypt_crypt key nonempty, fun first second => ?_,
    xor_apply_self (ofKey key nonempty), fun cipher reached => reached.shuffled.range⟩
  rw [crypt, apply_append]
  have size := length_apply (ofKey key nonempty) first
  exact ⟨(List.take_left' size).symm, (List.drop_left' size).symm⟩

namespace TwoPieces

def secret : Bytes := [0x4b, 0x65, 0x79]

def first : Bytes := [0x50, 0x6c, 0x61, 0x69, 0x6e]

def second : Bytes := [0x74, 0x65, 0x78, 0x74]

theorem nonempty : secret ≠ [] := List.cons_ne_nil _ _

theorem streamed : secret ≠ [] ∧ ∃ cipher, new secret = .ok cipher ∧
    crypt secret nonempty
      ((cipher.apply first).1 ++ ((cipher.apply first).2.apply second).1) = first ++ second ∧
    ((cipher.apply first).2.state.toList.map UInt8.toNat).Perm (List.range 256) := by
  rcases streams secret nonempty with ⟨made, twice, pieces, -, shuffled⟩
  refine ⟨nonempty, _, made, ?_, shuffled _ (.applied (.made made) first)⟩
  rcases pieces first second with ⟨front, back⟩
  rw [front, back, List.take_append_drop]
  exact twice (first ++ second)

end TwoPieces

end Rc4

end PacketStack
