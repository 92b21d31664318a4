import PacketStack.Proofs.Reassembly.Position

/-!
The comparison of sequence numbers as an order.

It looks only at how far one number is behind the other, so it stays the same when both are moved
on. Main statement: `orders_windows` says that it orders every window of half of all numbers by
position, and that numbers half of all numbers apart, which lie in no common window, are the only
ones that it does not order at all.
-/

namespace PacketStack.Serial

variable {left right : UInt32}

theorem toNat_distance (start stop : UInt32) :
    ((distance start stop).toNat : Int) = ((stop.toNat : Int) - start.toNat) % 0x100000000 := by
  have first := start.toNat_lt
  have second := stop.toNat_lt
  rw [distance, UInt32.toNat_sub]
  omega

@[simp] theorem distance_self (number : UInt32) : distance number number = 0 :=
  UInt32.sub_self number

theorem distance_add_right (start stop shift : UInt32) :
    distance (start + shift) (stop + shift) = distance start stop := by
  have first := start.toNat_lt
  have second := stop.toNat_lt
  apply UInt32.toNat.inj
  simp only [distance, UInt32.toNat_sub, UInt32.toNat_add]
  omega

theorem toNat_distance_pos (apart : left ≠ right) : 0 < (distance right left).toNat := by
  have first := left.toNat_lt
  have second := right.toNat_lt
  have apart : left.toNat ≠ right.toNat := fun same => apart (UInt32.toNat.inj same)
  rw [distance, UInt32.toNat_sub]
  omega

theorem toNat_distance_swap (apart : left ≠ right) :
    (distance left right).toNat + (distance right left).toNat = 0x100000000 := by
  have first := left.toNat_lt
  have second := right.toNat_lt
  have apart : left.toNat ≠ right.toNat := fun same => apart (UInt32.toNat.inj same)
  simp only [distance, UInt32.toNat_sub]
  omega

theorem compare_add_right (left right shift : UInt32) :
    compare (left + shift) (right + shift) = compare left right := by
  simp only [compare, distance_add_right, UInt32.add_left_inj]

@[simp] theorem compare_self (number : UInt32) : compare number number = .eq := if_pos rfl

theorem compare_of_ne (apart : left ≠ right) :
    compare left right = if (distance right left).toNat < 0x80000000 then .gt else .lt :=
  if_neg apart

theorem compare_eq_eq_iff : compare left right = .eq ↔ left = right := by
  by_cases same : left = right
  · simp [same]
  · rw [compare_of_ne same]
    split <;> simp [same]

theorem compare_eq_gt_iff :
    compare left right = .gt ↔
      1 ≤ (distance right left).toNat ∧ (distance right left).toNat ≤ 0x7fffffff := by
  by_cases same : left = right
  · simp [same]
  · have ahead := toNat_distance_pos same
    rw [compare_of_ne same]
    split
    · simp only [true_iff]
      omega
    · simp only [reduceCtorEq, false_iff]
      omega

theorem compare_eq_lt_iff :
    compare left right = .lt ↔ 0x80000000 ≤ (distance right left).toNat := by
  by_cases same : left = right
  · simp [same]
  · rw [compare_of_ne same]
    split
    · simp only [reduceCtorEq, false_iff]
      omega
    · simp only [true_iff]
      omega

theorem compare_eq_lt_both_iff :
    compare left right = .lt ∧ compare right left = .lt ↔
      (distance right left).toNat = 0x80000000 := by
  rw [compare_eq_lt_iff, compare_eq_lt_iff]
  by_cases same : left = right
  · simp [same]
  · have around := toNat_distance_swap same
    omega

theorem compare_ne_swap_iff :
    compare right left ≠ (compare left right).swap ↔ (distance right left).toNat = 0x80000000 := by
  by_cases same : left = right
  · simp [same]
  · have around := toNat_distance_swap same
    rw [compare_of_ne same, compare_of_ne (Ne.symm same)]
    split <;> split <;> simp <;> omega

/-- Compares the numbers of two positions in the window of half of all numbers behind a start. -/
def compareWithin (start : UInt32) (left right : Fin 0x80000000) : Ordering :=
  compare (advance start left) (advance start right)

theorem compareWithin_eq (start : UInt32) : compareWithin start = compareOn Fin.val := by
  funext left right
  have near : Near left right := ⟨by omega, by omega⟩
  exact compare_advance start near

theorem transCmp_compareWithin (start : UInt32) : Std.TransCmp (compareWithin start) := by
  rw [compareWithin_eq]
  infer_instance

theorem lawfulEqCmp_compareWithin (start : UInt32) : Std.LawfulEqCmp (compareWithin start) where
  compare_self := compare_self _
  eq_of_compare same := by
    rw [compareWithin_eq] at same
    exact Fin.ext (Nat.compare_eq_eq.mp same)

/-- The comparison stays the same when both numbers are moved on, and the way from one to the other
decides it. In a window of half of all numbers it is the order of the positions; in general it is no
order, just because numbers half of all numbers apart each come before the other. -/
theorem orders_windows :
    (∀ left right shift, compare (left + shift) (right + shift) = compare left right) ∧
    (∀ left right : UInt32,
      ((distance right left).toNat : Int) = ((left.toNat : Int) - right.toNat) % 0x100000000 ∧
      (compare left right = .eq ↔ left = right) ∧
      (compare left right = .gt ↔
        1 ≤ (distance right left).toNat ∧ (distance right left).toNat ≤ 0x7fffffff) ∧
      (compare left right = .lt ↔ left ≠ right ∧
        ¬ (1 ≤ (distance right left).toNat ∧ (distance right left).toNat ≤ 0x7fffffff)) ∧
      (compare right left ≠ (compare left right).swap ↔
        (distance right left).toNat = 0x80000000) ∧
      (compare left right = .lt ∧ compare right left = .lt ↔
        (distance right left).toNat = 0x80000000)) ∧
    ∀ start : UInt32,
      (∀ left right : Fin 0x80000000,
        compare (advance start left) (advance start right) = Ord.compare left.val right.val) ∧
      Std.TransCmp (compareWithin start) ∧ Std.LawfulEqCmp (compareWithin start) := by
  refine ⟨compare_add_right, fun left right => ?_, fun start => ?_⟩
  · refine ⟨toNat_distance right left, compare_eq_eq_iff, compare_eq_gt_iff, ?_,
      compare_ne_swap_iff, compare_eq_lt_both_iff⟩
    rw [← compare_eq_gt_iff, ne_eq, ← compare_eq_eq_iff]
    cases compare left right <;> simp
  · exact ⟨fun left right => congrFun (congrFun (compareWithin_eq start) left) right,
      transCmp_compareWithin start, lawfulEqCmp_compareWithin start⟩

end PacketStack.Serial
