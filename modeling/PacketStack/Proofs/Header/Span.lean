import PacketStack.Header
import PacketStack.Proofs.Header.Bits

/-!
Reading back what was put into a span, and what is left as it was around it.

Main statements: `get_put`, `get_put_of_disjoint` and `put_put` are the laws of a field that can be
replaced; `put_append` says that what stands behind a header does not matter.
-/

namespace PacketStack.Span

open Bytes

def Whole (span : Span) : Prop := span.littleEndian = true → span.width % 8 = 0

instance (span : Span) : Decidable span.Whole :=
  inferInstanceAs (Decidable (span.littleEndian = true → span.width % 8 = 0))

def Disjoint (first second : Span) : Prop :=
  first.start + first.width ≤ second.start ∨ second.start + second.width ≤ first.start

instance (first second : Span) : Decidable (first.Disjoint second) :=
  inferInstanceAs (Decidable (_ ∨ _))

def plain (span : Span) (bytes : Bytes) : Nat :=
  (span.around bytes >>> span.spare) % 2 ^ span.width

theorem get_eq (span : Span) (bytes : Bytes) : span.get bytes = span.order (span.plain bytes) := by
  rw [get, plain, Nat.one_shiftLeft]

theorem testBit_around (span : Span) (bytes : Bytes) (index : Nat)
    (inside : span.endByte ≤ bytes.length) (short : index < 8 * span.byteCount) :
    (span.around bytes).testBit index = bit bytes (8 * span.endByte - 1 - index) := by
  have ordered := span.firstByte_le_endByte
  have count : span.byteCount = span.endByte - span.firstByte := rfl
  have size : (bytes.window span.firstByte span.byteCount).length = span.byteCount := by
    rw [length_window]
    omega
  rw [around, testBit_toNatBE, size, decide_eq_true short, Bool.true_and,
    bit_window _ _ _ _ (by omega)]
  congr 1
  omega

theorem testBit_plain (span : Span) (bytes : Bytes) (index : Nat)
    (inside : span.endByte ≤ bytes.length) :
    (span.plain bytes).testBit index =
      (decide (index < span.width) && bit bytes (span.start + span.width - 1 - index)) := by
  rw [plain, Nat.testBit_mod_two_pow, Nat.testBit_shiftRight]
  by_cases short : index < span.width
  · have reach : span.spare + index < 8 * span.byteCount := by
      simp only [spare, byteCount, endByte, firstByte]
      omega
    rw [testBit_around _ _ _ inside reach]
    congr 2
    simp only [spare, endByte]
    omega
  · rw [decide_eq_false short, Bool.false_and, Bool.false_and]

theorem plain_lt (span : Span) (bytes : Bytes) : span.plain bytes < 2 ^ span.width :=
  Nat.mod_lt _ (Nat.two_pow_pos _)

theorem get_of_bytes (span : Span) (bytes : Bytes) (big : span.littleEndian = false)
    (start : span.start % 8 = 0) (width : span.width % 8 = 0) :
    span.get bytes = toNatBE (bytes.window (span.start / 8) (span.width / 8)) := by
  have count : span.byteCount = span.width / 8 := by
    simp only [byteCount, endByte, firstByte]
    omega
  have spare : span.spare = 0 := by
    simp only [Span.spare, endByte]
    omega
  have bound := toNatBE_lt (bytes.window (span.start / 8) (span.width / 8))
  have size : valueCount (bytes.window (span.start / 8) (span.width / 8)).length ≤
      2 ^ span.width := by
    rw [valueCount_eq, length_window]
    exact Nat.pow_le_pow_right (by decide) (by omega)
  rw [get_eq, order, big, plain, around, spare, count, firstByte]
  exact Nat.mod_eq_of_lt (Nat.lt_of_lt_of_le bound size)

def ordered (span : Span) (value : Nat) : Nat :=
  span.order (value % 2 ^ span.width) % 2 ^ span.width

theorem testBit_merge (span : Span) (value old index : Nat) :
    (span.merge value old).testBit index =
      if index < span.spare then old.testBit index
      else if index < span.spare + span.width then
        (span.ordered value).testBit (index - span.spare)
      else old.testBit index := by
  have low : old % 2 ^ span.spare < 2 ^ span.spare := Nat.mod_lt _ (Nat.two_pow_pos _)
  have middle : span.ordered value < 2 ^ span.width := Nat.mod_lt _ (Nat.two_pow_pos _)
  have shape : span.merge value old =
      2 ^ span.spare * (2 ^ span.width * (old >>> (span.width + span.spare)) +
        span.ordered value) + old % 2 ^ span.spare := by
    simp only [merge, ordered, Nat.shiftLeft_eq, Nat.one_mul, Nat.pow_add, Nat.mul_add]
    rw [Nat.mul_comm (old >>> (span.width + span.spare)), Nat.mul_comm (2 ^ span.width),
      Nat.mul_assoc, Nat.mul_comm (2 ^ span.spare) (span.order _ % _)]
  rw [shape, Nat.testBit_two_pow_mul_add _ low]
  by_cases first : index < span.spare
  · rw [if_pos first, if_pos first, Nat.testBit_mod_two_pow, decide_eq_true first, Bool.true_and]
  · rw [if_neg first, if_neg first, Nat.testBit_two_pow_mul_add _ middle]
    by_cases second : index < span.spare + span.width
    · rw [if_pos second, if_pos (by omega)]
    · rw [if_neg second, if_neg (by omega), Nat.testBit_shiftRight]
      congr 1
      omega

theorem bit_put (span : Span) (value : Nat) (bytes : Bytes) (index : Nat)
    (inside : span.endByte ≤ bytes.length) :
    bit (span.put value bytes) index =
      if span.start ≤ index ∧ index < span.start + span.width then
        (span.ordered value).testBit (span.start + span.width - 1 - index)
      else bit bytes index := by
  have order := span.firstByte_le_endByte
  have count : span.byteCount = span.endByte - span.firstByte := rfl
  have reach : span.firstByte + (ofNatBE span.byteCount
      (span.merge value (span.around bytes))).length ≤ bytes.length := by
    rw [length_ofNatBE]
    omega
  have stop : span.firstByte + span.byteCount = span.endByte := by omega
  have last : span.start + span.width + span.spare = 8 * span.endByte := by
    simp only [spare, endByte]
    omega
  have first : 8 * span.firstByte ≤ span.start := by
    simp only [firstByte]
    omega
  rw [put, if_pos inside, bit_splice _ _ _ _ reach, length_ofNatBE, stop]
  by_cases touched : 8 * span.firstByte ≤ index ∧ index < 8 * span.endByte
  · have place : 8 * span.byteCount - 1 - (index - 8 * span.firstByte) =
        8 * span.endByte - 1 - index := by omega
    have position : 8 * span.endByte - 1 - (8 * span.endByte - 1 - index) = index := by omega
    rw [if_pos touched, bit_ofNatBE _ _ _ (by omega), place, testBit_merge,
      testBit_around _ _ _ inside (by omega), position]
    by_cases within : span.start ≤ index ∧ index < span.start + span.width
    · rw [if_pos within, if_neg (by omega), if_pos (by omega)]
      congr 1
      omega
    · rw [if_neg within]
      by_cases behind : span.start + span.width ≤ index
      · rw [if_pos (by omega)]
      · rw [if_neg (by omega), if_neg (by omega)]
  · rw [if_neg touched, if_neg (by omega)]

theorem put_outside (span : Span) (value : Nat) (bytes : Bytes)
    (outside : ¬ span.endByte ≤ bytes.length) : span.put value bytes = bytes := if_neg outside

theorem bit_put_of_outside (span : Span) (value : Nat) (bytes : Bytes) {index : Nat}
    (outside : index < span.start ∨ span.start + span.width ≤ index) :
    bit (span.put value bytes) index = bit bytes index := by
  by_cases inside : span.endByte ≤ bytes.length
  · rw [bit_put _ _ _ _ inside, if_neg (by omega)]
  · rw [put_outside _ _ _ inside]

theorem bit_put_of_within (span : Span) (big : span.littleEndian = false) (value : Nat)
    {bytes : Bytes} (inside : span.endByte ≤ bytes.length) {index : Nat}
    (within : span.start ≤ index ∧ index < span.start + span.width) :
    bit (span.put value bytes) index = value.testBit (span.start + span.width - 1 - index) := by
  rw [bit_put _ _ _ _ inside, if_pos within, ordered, order, big, if_neg Bool.false_ne_true,
    Nat.mod_mod, Nat.testBit_mod_two_pow, decide_eq_true (by omega), Bool.true_and]

theorem plain_put (span : Span) (value : Nat) (bytes : Bytes)
    (inside : span.endByte ≤ bytes.length) :
    span.plain (span.put value bytes) = span.ordered value := by
  have small : span.ordered value < 2 ^ span.width := Nat.mod_lt _ (Nat.two_pow_pos _)
  have large : span.endByte ≤ (span.put value bytes).length := by
    rw [length_put]
    exact inside
  apply Nat.eq_of_testBit_eq
  intro index
  rw [testBit_plain _ _ _ large]
  by_cases short : index < span.width
  · have back : span.start + span.width - 1 - (span.start + span.width - 1 - index) = index := by
      omega
    rw [decide_eq_true short, Bool.true_and, bit_put _ _ _ _ inside, if_pos (by omega), back]
  · have high : span.ordered value < 2 ^ index :=
      Nat.lt_of_lt_of_le small (Nat.pow_le_pow_right (by decide) (by omega))
    rw [decide_eq_false short, Bool.false_and, Nat.testBit_lt_two_pow high]

theorem order_ordered (span : Span) (value : Nat) (whole : span.Whole) :
    span.order (span.ordered value) = value % 2 ^ span.width := by
  cases order : span.littleEndian with
  | false => simp [ordered, Span.order, order]
  | true =>
      have width : 8 * (span.width / 8) = span.width := by
        have := whole order
        omega
      have bound (number : Nat) : toNatLE (ofNatBE (span.width / 8) number) < 2 ^ span.width := by
        have limit := toNatLE_lt (ofNatBE (span.width / 8) number)
        rwa [length_ofNatBE, valueCount_eq, width] at limit
      have back : ofNatBE (span.width / 8) (toNatLE (ofNatBE (span.width / 8)
          (value % 2 ^ span.width))) = ofNatLE (span.width / 8) (value % 2 ^ span.width) := by
        have inverse := ofNatLE_toNatLE (ofNatBE (span.width / 8) (value % 2 ^ span.width))
        rw [length_ofNatBE] at inverse
        rw [ofNatBE, inverse, ofNatBE, List.reverse_reverse]
      simp only [ordered, Span.order, order, if_true]
      rw [Nat.mod_eq_of_lt (bound _), back, toNatLE_ofNatLE, valueCount_eq, width, Nat.mod_mod]

theorem get_put (span : Span) (value : Nat) (bytes : Bytes) (whole : span.Whole)
    (inside : span.endByte ≤ bytes.length) :
    span.get (span.put value bytes) = value % 2 ^ span.width := by
  rw [get_eq, plain_put _ _ _ inside, order_ordered _ _ whole]

theorem get_lt (span : Span) (bytes : Bytes) (whole : span.Whole) :
    span.get bytes < 2 ^ span.width := by
  rw [get_eq]
  cases order : span.littleEndian with
  | false =>
      simp only [Span.order, order]
      exact span.plain_lt bytes
  | true =>
      have width : 8 * (span.width / 8) = span.width := by
        have := whole order
        omega
      have limit := toNatLE_lt (ofNatBE (span.width / 8) (span.plain bytes))
      rw [length_ofNatBE, valueCount_eq, width] at limit
      simpa only [Span.order, order, if_true] using limit

theorem get_congr (span : Span) {left right : Bytes} (leftInside : span.endByte ≤ left.length)
    (rightInside : span.endByte ≤ right.length)
    (same : ∀ index, span.start ≤ index → index < span.start + span.width →
      bit left index = bit right index) : span.get left = span.get right := by
  have equal : span.plain left = span.plain right := by
    apply Nat.eq_of_testBit_eq
    intro index
    rw [testBit_plain _ _ _ leftInside, testBit_plain _ _ _ rightInside]
    by_cases short : index < span.width
    · rw [same _ (by omega) (by omega)]
    · rw [decide_eq_false short, Bool.false_and, Bool.false_and]
  rw [get_eq, get_eq, equal]

theorem get_put_of_disjoint (first second : Span) (value : Nat) (bytes : Bytes)
    (disjoint : first.Disjoint second) (inside : first.endByte ≤ bytes.length) :
    first.get (second.put value bytes) = first.get bytes := by
  by_cases reach : second.endByte ≤ bytes.length
  · apply get_congr _ (by rwa [length_put]) inside
    intro index above below
    rw [bit_put _ _ _ _ reach, if_neg]
    rcases disjoint with before | behind
    · omega
    · omega
  · rw [put_outside _ _ _ reach]

theorem get_append (span : Span) (front rest : Bytes) (inside : span.endByte ≤ front.length) :
    span.get (front ++ rest) = span.get front := by
  have limit : span.start + span.width ≤ 8 * front.length := by
    simp only [endByte] at inside
    omega
  apply get_congr _ (by rw [List.length_append]; omega) inside
  intro index above below
  exact bit_append_left _ _ _ (by omega)

theorem put_put (span : Span) (value old : Nat) (bytes : Bytes) :
    span.put value (span.put old bytes) = span.put value bytes := by
  by_cases inside : span.endByte ≤ bytes.length
  · apply eq_of_bit_eq (by simp)
    intro index _
    rw [bit_put _ _ _ _ (by rwa [length_put]), bit_put _ _ _ _ inside, bit_put _ _ _ _ inside]
    by_cases within : span.start ≤ index ∧ index < span.start + span.width
    · rw [if_pos within, if_pos within]
    · rw [if_neg within, if_neg within, if_neg within]
  · rw [put_outside _ _ _ inside]

theorem put_append (span : Span) (value : Nat) (front rest : Bytes)
    (inside : span.endByte ≤ front.length) :
    span.put value (front ++ rest) = span.put value front ++ rest := by
  have limit : span.start + span.width ≤ 8 * front.length := by
    simp only [endByte] at inside
    omega
  have size : (span.put value front).length = front.length := by simp
  apply eq_of_bit_eq (by simp)
  intro index _
  rw [bit_put _ _ _ _ (by rw [List.length_append]; omega)]
  by_cases first : index < 8 * front.length
  · rw [bit_append_left front _ _ first, bit_append_left (span.put value front) _ _ (by rwa [size]),
      bit_put _ _ _ _ inside]
  · have offset : index = 8 * front.length + (index - 8 * front.length) := by omega
    rw [if_neg (by omega), offset, bit_append_right, ← size, bit_append_right]

end PacketStack.Span
