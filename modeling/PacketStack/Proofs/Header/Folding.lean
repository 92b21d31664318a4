import PacketStack.Proofs.Header.OnesComplement

/-!
The fold of a sum, and the sums that it does not tell apart.

A sum is kept in 64 bits, and the loop that folds it ends after four rounds at most. What it ends
with is the sum modulo the largest word, and zero for no sum but zero. So the words of bytes may be
summed in any order, and a part of them folded before the others are added. The word in which an old
checksum stands is no part of the sum. Main statement: `folds_exactly`.
-/

namespace PacketStack.Checksum

def carryRound (sum : UInt64) : UInt64 := (sum >>> 16) + (sum &&& 0xffff)

/-- The loop takes so many rounds from a sum to the word it ends with. -/
inductive FoldsIn : Nat → UInt64 → UInt64 → Prop where
  | done {sum : UInt64} (small : sum ≤ 0xffff) : FoldsIn 0 sum sum
  | round {rounds : Nat} {sum folded : UInt64} (large : ¬ sum ≤ 0xffff)
      (rest : FoldsIn rounds (carryRound sum) folded) : FoldsIn (rounds + 1) sum folded

variable {rounds : Nat} {sum folded : UInt64}

theorem le_ffff_iff : sum ≤ 0xffff ↔ sum.toNat ≤ 0xffff := UInt64.le_iff_toNat_le

theorem toNat_carryRound (sum : UInt64) :
    (carryRound sum).toNat = sum.toNat / 0x10000 + sum.toNat % 0x10000 := by
  have small := sum.toNat_lt
  have high : (sum >>> 16).toNat = sum.toNat / 0x10000 := by
    rw [UInt64.toNat_shiftRight, Nat.shiftRight_eq_div_pow]
    rfl
  have low : (sum &&& 0xffff).toNat = sum.toNat % 0x10000 := by
    rw [UInt64.toNat_and]
    exact Nat.and_two_pow_sub_one_eq_mod sum.toNat 16
  rw [carryRound, UInt64.toNat_add, high, low]
  omega

theorem exists_foldsIn (limit : Nat) (sum : UInt64)
    (below : sum.toNat < 0x10000 ^ limit + 0xffff) :
    ∃ rounds ≤ limit, ∃ folded, FoldsIn rounds sum folded := by
  induction limit generalizing sum with
  | zero =>
      have small : sum ≤ 0xffff := by
        rw [le_ffff_iff]
        omega
      exact ⟨0, Nat.le_refl 0, sum, .done small⟩
  | succ limit ih =>
      by_cases small : sum ≤ 0xffff
      · exact ⟨0, Nat.zero_le _, sum, .done small⟩
      · have shorter : (carryRound sum).toNat < 0x10000 ^ limit + 0xffff := by
          -- Where the high digits are all that the bound allows the low ones are below 0xffff.
          rw [Nat.pow_succ] at below
          rw [toNat_carryRound]
          omega
        obtain ⟨rounds, few, folded, run⟩ := ih _ shorter
        exact ⟨rounds + 1, Nat.succ_le_succ few, folded, .round small run⟩

theorem FoldsIn.unique (run : FoldsIn rounds sum folded) {count : Nat} {result : UInt64}
    (other : FoldsIn count sum result) : count = rounds ∧ result = folded := by
  induction run generalizing count with
  | done small =>
      cases other with
      | done => exact ⟨rfl, rfl⟩
      | round large => exact absurd small large
  | round large rest ih =>
      cases other with
      | done small => exact absurd small large
      | round _ other =>
          obtain ⟨same, equal⟩ := ih other
          exact ⟨congrArg (· + 1) same, equal⟩

theorem FoldsIn.le_ffff (run : FoldsIn rounds sum folded) : folded ≤ 0xffff := by
  induction run with
  | done small => exact small
  | round large rest ih => exact ih

theorem FoldsIn.toNat_eq (run : FoldsIn rounds sum folded) : folded.toNat = fold sum.toNat := by
  induction run with
  | done small => exact (fold_of_le (le_ffff_iff.mp small)).symm
  | round large rest ih =>
      rw [le_ffff_iff] at large
      rw [ih, toNat_carryRound, ← fold_of_not_le large]

theorem FoldsIn.complement_eq (run : FoldsIn rounds sum folded) :
    complement sum.toNat = ~~~folded.toUInt16 := by
  have small := fold_le sum.toNat
  apply UInt16.toNat.inj
  rw [toNat_complement, UInt16.toNat_not, UInt64.toNat_toUInt16, run.toNat_eq,
    Nat.mod_eq_of_lt (by omega), UInt16.size]

theorem fold_mod (sum : Nat) : fold sum % 0xffff = sum % 0xffff := by
  rw [fold_eq]
  split <;> omega

theorem fold_eq_zero_iff {sum : Nat} : fold sum = 0 ↔ sum = 0 := by
  rw [fold_eq]
  split <;> omega

theorem FoldsIn.mod_eq (run : FoldsIn rounds sum folded) :
    folded.toNat % 0xffff = sum.toNat % 0xffff := by
  rw [run.toNat_eq, fold_mod]

theorem FoldsIn.eq_zero_iff (run : FoldsIn rounds sum folded) : folded = 0 ↔ sum = 0 := by
  rw [← UInt64.toNat_inj, ← UInt64.toNat_inj, run.toNat_eq]
  exact fold_eq_zero_iff

theorem addWords_le (sum : Nat) (bytes : Bytes) :
    addWords sum bytes ≤ sum + 0xffff * ((bytes.length + 1) / 2) := by
  induction bytes using words.induct generalizing sum with
  | case1 high low rest ih =>
      have first := high.toNat_lt
      have second := low.toNat_lt
      have others := ih (sum + (256 * high.toNat + low.toNat))
      rw [addWords, List.length_cons, List.length_cons]
      omega
  | case2 high =>
      have first := high.toNat_lt
      rw [addWords, List.length_singleton]
      omega
  | case3 => exact Nat.le_add_right _ _

theorem addWords_append_comm {front rest : Bytes} (first : front.length % 2 = 0)
    (second : rest.length % 2 = 0) (sum : Nat) :
    addWords sum (front ++ rest) = addWords sum (rest ++ front) := by
  calc addWords sum (front ++ rest)
    _ = sum + addWords 0 front + addWords 0 rest := by
      rw [addWords_append _ _ first, addWords_eq, addWords_eq sum]
    _ = sum + addWords 0 rest + addWords 0 front := Nat.add_right_comm _ _ _
    _ = addWords sum (rest ++ front) := by
      rw [addWords_append _ _ second, addWords_eq (addWords sum rest), addWords_eq sum]

theorem fold_addWords_append {front : Bytes} (even : front.length % 2 = 0) (rest : Bytes)
    (sum : Nat) :
    fold (addWords sum (front ++ rest)) = fold (addWords (fold (addWords sum front)) rest) := by
  calc fold (addWords sum (front ++ rest))
    _ = fold (addWords sum front + addWords 0 rest) := by
      rw [addWords_append _ _ even, addWords_eq]
    _ = fold (fold (addWords sum front) + addWords 0 rest) := (fold_fold_add _ _).symm
    _ = fold (addWords (fold (addWords sum front)) rest) := by rw [← addWords_eq]

theorem words_withoutWord (index : Nat) (bytes : Bytes) :
    words (withoutWord index bytes) = (words bytes).eraseIdx index := by
  induction bytes using words.induct generalizing index with
  | case1 high low rest ih =>
      cases index with
      | zero => rfl
      | succ index =>
          have kept : withoutWord (index + 1) (high :: low :: rest) =
            high :: low :: withoutWord index rest := rfl
          rw [kept, words, words, List.eraseIdx_cons_succ, ih]
  | case2 high => cases index <;> rfl
  | case3 => cases index <;> rfl

theorem withoutWord_set (index : Nat) (bytes : Bytes) (high low : UInt8) :
    withoutWord index ((bytes.set (2 * index) high).set (2 * index + 1) low) =
      withoutWord index bytes := by
  rw [withoutWord, List.take_set_of_le (by omega), List.take_set_of_le (by omega),
    List.drop_set_of_lt (by omega), List.drop_set_of_lt (by omega), withoutWord]

/-- A checksum that goes over all words of its bytes but one, of which it knows nothing. -/
structure LeavesOut (index : Nat) (checksum : Bytes → UInt16) : Prop where
  eq_complement : ∀ bytes ≠ [],
    checksum bytes = complement (wordSum ((words bytes).eraseIdx index))
  set_eq : ∀ bytes high low,
    checksum ((bytes.set (2 * index) high).set (2 * index + 1) low) = checksum bytes

theorem leavesOut_ofMessage (index : Nat) : LeavesOut index (ofMessage index) where
  eq_complement bytes several := by
    rw [ofMessage_of_ne_nil index several, addWords_eq_wordSum, words_withoutWord, Nat.zero_add]
  set_eq bytes high low := by
    have empty : ((bytes.set (2 * index) high).set (2 * index + 1) low).isEmpty =
        bytes.isEmpty := by
      rw [Bool.eq_iff_iff, List.isEmpty_iff, List.isEmpty_iff, List.set_eq_nil_iff,
        List.set_eq_nil_iff]
    rw [ofMessage, ofMessage, empty, withoutWord_set]

/-- The loop on a sum of 64 bits, which hold the sum of up to 2 ^ 49 bytes, ends after four rounds
at most. It has one end, the complement of the checksum, and this is the sum modulo the largest
word, and zero for the sum zero alone. Bytes that are summed first may be folded first, and they may
as well come last if all are whole words. A header and a message leave out the word of their
checksum. -/
theorem folds_exactly :
    (∀ sum : UInt64, ∃ rounds ≤ 4, ∃ folded,
      (∀ count result, FoldsIn count sum result ↔ count = rounds ∧ result = folded) ∧
      complement sum.toNat = ~~~folded.toUInt16 ∧ folded ≤ 0xffff ∧
      folded.toNat % 0xffff = sum.toNat % 0xffff ∧ (folded = 0 ↔ sum = 0)) ∧
    (∀ bytes : Bytes, bytes.length ≤ 2 ^ 49 → addWords 0 bytes < 2 ^ 64) ∧
    (∀ (sum : Nat) (front rest : Bytes), front.length % 2 = 0 →
      complement (addWords sum (front ++ rest)) =
        complement (addWords (addWords sum front) rest) ∧
      complement (addWords sum (front ++ rest)) =
        complement (addWords (fold (addWords sum front)) rest) ∧
      (rest.length % 2 = 0 →
        complement (addWords sum (front ++ rest)) =
          complement (addWords sum (rest ++ front)))) ∧
    LeavesOut 5 ipv4Header ∧ LeavesOut 1 icmp := by
  refine ⟨fun sum => ?_, fun bytes short => ?_, fun sum front rest even => ⟨?_, ?_, ?_⟩,
    leavesOut_ofMessage 5, leavesOut_ofMessage 1⟩
  · have small := sum.toNat_lt
    obtain ⟨rounds, few, folded, run⟩ := exists_foldsIn 4 sum (by omega)
    refine ⟨rounds, few, folded, fun count result => ⟨run.unique, ?_⟩, run.complement_eq,
      run.le_ffff, run.mod_eq, run.eq_zero_iff⟩
    rintro ⟨rfl, rfl⟩
    exact run
  · have bound := addWords_le 0 bytes
    omega
  · rw [addWords_append _ _ even]
  · rw [complement, complement, fold_addWords_append even]
  · intro whole
    rw [addWords_append_comm even whole]

namespace CheckedHeader

/-- A header up to its checksum. With the addresses behind it the sum folds to the largest word. -/
def front : Bytes := [0x45, 0x00, 0x00, 0x20, 0x00, 0x01, 0x00, 0x00, 0x40, 0x11, 0xaa, 0x13]

def addresses : Bytes := [0xc0, 0xa8, 0x00, 0x01, 0x08, 0x08, 0x08, 0x08]

theorem regrouped :
    front.length % 2 = 0 ∧ addresses.length % 2 = 0 ∧
    complement (addWords 0 (front ++ addresses)) =
      complement (addWords (fold (addWords 0 front)) addresses) ∧
    complement (addWords 0 (front ++ addresses)) = complement (addWords 0 (addresses ++ front)) ∧
    complement (addWords 0 (addresses ++ front)) = 0 ∧
    (addresses ++ front).length ≤ 2 ^ 49 ∧ addWords 0 (addresses ++ front) < 2 ^ 64 ∧
    front ++ addresses ≠ [] ∧ ipv4Header (front ++ addresses) = 0xaa13 ∧
    ipv4Header (((front ++ addresses).set 10 0).set 11 0) = 0xaa13 := by
  obtain ⟨-, bounded, grouped, left, -⟩ := folds_exactly
  have aligned : front.length % 2 = 0 := rfl
  have whole : addresses.length % 2 = 0 := rfl
  have short : (addresses ++ front).length ≤ 2 ^ 49 := by decide
  have several : front ++ addresses ≠ [] := by decide
  obtain ⟨-, early, swapped⟩ := grouped 0 front addresses aligned
  have accepted : complement (addWords 0 (addresses ++ front)) = 0 := by
    rw [complement, fold_eq]
    decide
  have checked : ipv4Header (front ++ addresses) = 0xaa13 := by
    rw [left.eq_complement _ several, complement, fold_eq]
    decide
  exact ⟨aligned, whole, early, swapped whole, accepted, short, bounded _ short, several, checked,
    (left.set_eq _ 0 0).trans checked⟩

end CheckedHeader

end PacketStack.Checksum
