import PacketStack.Reassembly.Serial

/-!
Sequence numbers as positions of a byte string of any length.

The number of a position starts over after 2^32 bytes, so it tells positions apart only where these
are less than 2^31 bytes from each other. Main statements: `compare_advance` reads the order of such
positions off their numbers, `toNat_distance_advance` their distance.
-/

namespace PacketStack.Serial

def Near (left right : Nat) : Prop := left < right + 0x80000000 ∧ right < left + 0x80000000

instance (left right : Nat) : Decidable (Near left right) := by
  unfold Near
  infer_instance

theorem toNat_advance (start : UInt32) (count : Nat) :
    (advance start count).toNat = (start.toNat + count) % 0x100000000 := by
  simp [advance, UInt32.toNat_add, UInt32.toNat_ofNat', Nat.add_mod_mod]

theorem advance_zero (start : UInt32) : advance start 0 = start := by
  simp [advance]

theorem advance_advance (start : UInt32) (first second : Nat) :
    advance (advance start first) second = advance start (first + second) := by
  apply UInt32.toNat.inj
  simp only [toNat_advance]
  omega

theorem toNat_distance_advance (start : UInt32) {near far : Nat} (order : near ≤ far)
    (close : far < near + 0x100000000) :
    (distance (advance start near) (advance start far)).toNat = far - near := by
  simp only [distance, UInt32.toNat_sub, toNat_advance]
  omega

theorem advance_eq_iff (start : UInt32) {left right : Nat} (near : Near left right) :
    advance start left = advance start right ↔ left = right := by
  unfold Near at near
  constructor
  · intro same
    have numbers := congrArg UInt32.toNat same
    simp only [toNat_advance] at numbers
    omega
  · rintro rfl
    rfl

theorem compare_advance (start : UInt32) {left right : Nat} (near : Near left right) :
    compare (advance start left) (advance start right) = Ord.compare left right := by
  have same := advance_eq_iff start near
  have gap : left ≠ right →
      ((distance (advance start right) (advance start left)).toNat < 0x80000000 ↔
        right < left) := by
    intro apart
    unfold Near at near
    simp only [distance, UInt32.toNat_sub, toNat_advance]
    omega
  unfold compare
  rcases Nat.lt_trichotomy left right with order | rfl | order
  · have apart : left ≠ right := by omega
    have behind : ¬ right < left := by omega
    simp [same, gap, apart, behind, Nat.compare_eq_lt.mpr order]
  · simp
  · have apart : left ≠ right := by omega
    simp [same, gap, apart, order, Nat.compare_eq_gt.mpr order]

theorem isAfter_advance (start : UInt32) {left right : Nat} (near : Near left right) :
    isAfter (advance start left) (advance start right) = decide (right < left) := by
  rw [isAfter, compare_advance start near]
  rcases Nat.lt_trichotomy left right with order | rfl | order
  · have behind : ¬ right < left := by omega
    simp [Nat.compare_eq_lt.mpr order, behind]
  · simp
  · simp [Nat.compare_eq_gt.mpr order, order]

theorem isBefore_advance (start : UInt32) {left right : Nat} (near : Near left right) :
    isBefore (advance start left) (advance start right) = decide (left < right) := by
  rw [isBefore, compare_advance start near]
  rcases Nat.lt_trichotomy left right with order | rfl | order
  · simp [Nat.compare_eq_lt.mpr order, order]
  · simp
  · have behind : ¬ left < right := by omega
    simp [Nat.compare_eq_gt.mpr order, behind]

end PacketStack.Serial
