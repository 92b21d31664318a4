import Mathlib.Algebra.Group.Nat.Defs
import PacketStack.Bytes

/-!
Byte strings as strings of bits, the highest bit of the first byte first.

Main statements: `testBit_toNatBE` reads the bits of a number off the bytes it is written in,
`bit_splice` says which bits a splice replaces, and `eq_of_bit_eq` that the bits determine the
bytes.
-/

namespace PacketStack.Bytes

def bit (bytes : Bytes) (index : Nat) : Bool :=
  (bytes.getD (index / 8) 0).toNat.testBit (7 - index % 8)

theorem testBit_toNatLE (bytes : Bytes) (index : Nat) :
    (toNatLE bytes).testBit index = (bytes.getD (index / 8) 0).toNat.testBit (index % 8) := by
  induction bytes generalizing index with
  | nil => simp [toNatLE]
  | cons byte rest ih =>
      have small : byte.toNat < 2 ^ 8 := byte.toNat_lt
      have split : toNatLE (byte :: rest) = 2 ^ 8 * toNatLE rest + byte.toNat := by
        rw [toNatLE]
        omega
      rw [split, Nat.testBit_two_pow_mul_add _ small]
      by_cases first : index < 8
      · have place : index / 8 = 0 := by omega
        have position : index % 8 = index := by omega
        rw [if_pos first, place, position, List.getD_cons_zero]
      · have place : index / 8 = (index - 8) / 8 + 1 := by omega
        have position : index % 8 = (index - 8) % 8 := by omega
        rw [if_neg first, ih, place, position, List.getD_cons_succ]

theorem testBit_toNatBE (bytes : Bytes) (index : Nat) :
    (toNatBE bytes).testBit index =
      (decide (index < 8 * bytes.length) && bit bytes (8 * bytes.length - 1 - index)) := by
  rw [toNatBE, testBit_toNatLE]
  by_cases inside : index < 8 * bytes.length
  · have reverse : bytes.length - 1 - index / 8 = (8 * bytes.length - 1 - index) / 8 := by omega
    have position : index % 8 = 7 - (8 * bytes.length - 1 - index) % 8 := by omega
    have short : index / 8 < bytes.length := by omega
    rw [decide_eq_true inside, Bool.true_and, bit, List.getD_eq_getElem?_getD,
      List.getElem?_reverse short, reverse, position, ← List.getD_eq_getElem?_getD]
  · have long : bytes.reverse.length ≤ index / 8 := by
      rw [List.length_reverse]
      omega
    rw [decide_eq_false inside, Bool.false_and, List.getD_eq_getElem?_getD,
      List.getElem?_eq_none long]
    exact Nat.zero_testBit _

theorem valueCount_eq (width : Nat) : valueCount width = 2 ^ (8 * width) := by
  induction width with
  | zero => rfl
  | succ width ih =>
      rw [valueCount, ih, Nat.mul_add, Nat.pow_add]
      omega

theorem bit_ofNatBE (width value index : Nat) (inside : index < 8 * width) :
    bit (ofNatBE width value) index = value.testBit (8 * width - 1 - index) := by
  have written := congrArg (·.testBit (8 * width - 1 - index)) (toNatBE_ofNatBE width value)
  have short : 8 * width - 1 - index < 8 * width := by omega
  have back : 8 * width - 1 - (8 * width - 1 - index) = index := by omega
  simp only [testBit_toNatBE, length_ofNatBE, valueCount_eq, Nat.testBit_mod_two_pow, back,
    decide_eq_true short, Bool.true_and] at written
  exact written

theorem bit_ofNatLE (width value index : Nat) (inside : index < 8 * width) :
    bit (ofNatLE width value) index = value.testBit (8 * (index / 8) + 7 - index % 8) := by
  have written := congrArg (·.testBit (8 * (index / 8) + 7 - index % 8))
    (toNatLE_ofNatLE width value)
  have short : 8 * (index / 8) + 7 - index % 8 < 8 * width := by omega
  have place : (8 * (index / 8) + 7 - index % 8) / 8 = index / 8 := by omega
  have position : (8 * (index / 8) + 7 - index % 8) % 8 = 7 - index % 8 := by omega
  simp only [testBit_toNatLE, valueCount_eq, Nat.testBit_mod_two_pow, place, position,
    decide_eq_true short, Bool.true_and] at written
  exact written

theorem bit_append_left (front rest : Bytes) (index : Nat) (inside : index < 8 * front.length) :
    bit (front ++ rest) index = bit front index := by
  have short : index / 8 < front.length := by omega
  rw [bit, bit, List.getD_eq_getElem?_getD, List.getElem?_append_left short,
    ← List.getD_eq_getElem?_getD]

theorem bit_append_right (front rest : Bytes) (index : Nat) :
    bit (front ++ rest) (8 * front.length + index) = bit rest index := by
  have place : (8 * front.length + index) / 8 = front.length + index / 8 := by omega
  have position : (8 * front.length + index) % 8 = index % 8 := by omega
  rw [bit, bit, place, position, List.getD_eq_getElem?_getD,
    List.getElem?_append_right (Nat.le_add_right _ _), Nat.add_sub_cancel_left,
    ← List.getD_eq_getElem?_getD]

theorem bit_drop (bytes : Bytes) (start index : Nat) :
    bit (bytes.drop start) index = bit bytes (8 * start + index) := by
  have place : (8 * start + index) / 8 = start + index / 8 := by omega
  have position : (8 * start + index) % 8 = index % 8 := by omega
  rw [bit, bit, place, position, List.getD_eq_getElem?_getD, List.getElem?_drop,
    ← List.getD_eq_getElem?_getD]

theorem bit_take (bytes : Bytes) (size index : Nat) (inside : index < 8 * size) :
    bit (bytes.take size) index = bit bytes index := by
  have short : index / 8 < size := by omega
  rw [bit, bit, List.getD_eq_getElem?_getD, List.getElem?_take_of_lt short,
    ← List.getD_eq_getElem?_getD]

theorem bit_window (bytes : Bytes) (start size index : Nat) (inside : index < 8 * size) :
    bit (bytes.window start size) index = bit bytes (8 * start + index) := by
  rw [window, bit_take _ _ _ inside, bit_drop]

theorem bit_splice (bytes : Bytes) (start index : Nat) (data : Bytes)
    (inside : start + data.length ≤ bytes.length) :
    bit (bytes.splice start data) index =
      if 8 * start ≤ index ∧ index < 8 * (start + data.length) then bit data (index - 8 * start)
      else bit bytes index := by
  have front : (bytes.take start).length = start := by
    rw [List.length_take]
    omega
  rw [splice]
  by_cases before : index < 8 * start
  · rw [bit_append_left _ _ _ (by omega), bit_take _ _ _ before, if_neg (by omega)]
  · have offset : index = 8 * (bytes.take start).length + (index - 8 * start) := by omega
    by_cases within : index < 8 * (start + data.length)
    · rw [if_pos ⟨by omega, within⟩, offset, bit_append_right, bit_append_left _ _ _ (by omega)]
      congr 1
      omega
    · have behind : index - 8 * start =
          8 * data.length + (index - 8 * (start + data.length)) := by omega
      rw [if_neg (by omega), offset, bit_append_right, behind, bit_append_right, bit_drop]
      congr 1
      omega

theorem eq_of_bit_eq {left right : Bytes} (size : left.length = right.length)
    (same : ∀ index < 8 * left.length, bit left index = bit right index) : left = right := by
  have number : toNatBE left = toNatBE right := by
    apply Nat.eq_of_testBit_eq
    intro index
    rw [testBit_toNatBE, testBit_toNatBE, ← size]
    by_cases inside : index < 8 * left.length
    · rw [same _ (by omega)]
    · simp [inside]
  rw [← ofNatBE_toNatBE left, ← ofNatBE_toNatBE right, number, size]

theorem getElem?_eq_of_bit_eq {left right : Bytes} (size : left.length = right.length) (index : Nat)
    (same : ∀ position < 8, bit left (8 * index + position) = bit right (8 * index + position)) :
    left[index]? = right[index]? := by
  have pieces : left.window index 1 = right.window index 1 := by
    apply eq_of_bit_eq
    · rw [length_window, length_window, size]
    · intro position inside
      rw [length_window] at inside
      rw [bit_window _ _ _ _ (by omega), bit_window _ _ _ _ (by omega), same _ (by omega)]
  have first (bytes : Bytes) : bytes[index]? = (bytes.window index 1)[0]? := by
    rw [window, List.getElem?_take_of_lt Nat.zero_lt_one, List.getElem?_drop, Nat.add_zero]
  rw [first left, first right, pieces]

end PacketStack.Bytes
