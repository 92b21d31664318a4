/-!
Sums of sizes.
-/

namespace PacketStack

/-- The sum of the sizes of all items. -/
def sizeSum {α : Type} (size : α → Nat) : List α → Nat
  | [] => 0
  | item :: rest => size item + sizeSum size rest

@[simp] theorem sizeSum_append {α : Type} (size : α → Nat) (left right : List α) :
    sizeSum size (left ++ right) = sizeSum size left + sizeSum size right := by
  induction left with
  | nil => simp [sizeSum]
  | cons item rest ih =>
      simp only [List.cons_append, sizeSum, ih]
      omega

theorem sizeSum_replicate {α : Type} (size : α → Nat) (count : Nat) (item : α) :
    sizeSum size (List.replicate count item) = count * size item := by
  induction count with
  | zero => rw [Nat.zero_mul, List.replicate_zero, sizeSum]
  | succ count ih => rw [List.replicate_succ, sizeSum, ih, Nat.succ_mul, Nat.add_comm]

end PacketStack
