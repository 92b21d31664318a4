import PacketStack.Checked.Access
import PacketStack.Proofs.Outcome

/-!
What a checked access gives where nothing is missing, and readings that never meet a fault.

`Outcome.Safe` holds of a checked reading and the plain one it stands beside. A checked access in
front of the rest goes away by `Outcome.ok_bind` as soon as it is known to succeed, and the steps
which both share are joined by `Outcome.Safe.bind`.
-/

namespace PacketStack

namespace Outcome

variable {α β : Type}

/-- A checked reading that gives the same as a plain one, and no fault. -/
structure Safe (checked plain : Outcome α) : Prop where
  same : checked = plain
  faultless : plain.Faultless

theorem ok_bind (value : α) (next : α → Outcome β) : (Except.ok value >>= next) = next value := rfl

namespace Safe

variable {checked plain : Outcome α}

theorem refl (sound : plain.Faultless) : Safe plain plain := ⟨rfl, sound⟩

theorem ok (value : α) : Safe (.ok value) (.ok value) := refl (faultless_ok value)

theorem bind (first : Safe checked plain) {next other : α → Outcome β}
    (rest : ∀ value, plain = .ok value → Safe (next value) (other value)) :
    Safe (checked >>= next) (plain >>= other) := by
  rcases first with ⟨rfl, sound⟩
  cases checked with
  | error failure => exact ⟨rfl, sound.error⟩
  | ok value => exact rest value rfl

theorem map (first : Safe checked plain) (change : α → β) :
    Safe (checked.map change) (plain.map change) := by
  rcases first with ⟨rfl, sound⟩
  exact refl (sound.map change)

theorem sized {part : Part} {minimum : Nat} {bytes : Bytes} {next other : Unit → Outcome β}
    (rest : minimum ≤ bytes.length → Safe (next ()) (other ())) :
    Safe (requireSize part minimum bytes >>= next) (requireSize part minimum bytes >>= other) :=
  bind (refl faultless_requireSize) fun _ sized => rest (requireSize_eq_ok.mp sized)

theorem demanded {condition : Prop} [Decidable condition] {cause : Malformation}
    {next other : Unit → Outcome β} (rest : condition → Safe (next ()) (other ())) :
    Safe (demand condition cause >>= next) (demand condition cause >>= other) :=
  bind (refl faultless_demand) fun _ met => rest (demand_eq_ok.mp met)

end Safe

theorem minus_eq {left right : Nat} (order : right ≤ left) :
    minus left right = .ok (left - right) := if_pos order

theorem clamp_eq {low high : Nat} (order : low ≤ high) (value : Nat) :
    clamp value low high = .ok (max low (min value high)) := if_pos order

end Outcome

namespace HeaderField

theorem fetch_eq {bytes : Bytes} {size : Nat} (large : size ≤ bytes.length) {field : HeaderField}
    (inside : field.endByte ≤ size) : field.fetch bytes = .ok (field.get bytes) :=
  if_pos (Nat.le_trans inside large)

example : (HeaderField.byte "flags" 1).fetch [0x10] = .outOfBounds := rfl

end HeaderField

namespace Bytes

variable {bytes : Bytes} {start stop : Nat}

theorem range_eq (order : start ≤ stop) (inside : stop ≤ bytes.length) :
    bytes.range start stop = .ok (bytes.window start (stop - start)) := if_pos ⟨order, inside⟩

theorem range_front (inside : stop ≤ bytes.length) : bytes.range 0 stop = .ok (bytes.take stop) :=
  range_eq (Nat.zero_le _) inside

theorem require_ok (part : Part) (order : start ≤ stop) (inside : stop ≤ bytes.length) :
    bytes.require part start stop = .ok (bytes.window start (stop - start)) := by
  rw [require, range?, if_pos ⟨order, inside⟩]

theorem require_missing {part : Part} (outside : bytes.length < stop) :
    bytes.require part start stop = .refuse (.shortBuffer part stop bytes.length) := by
  rw [require, range?, if_neg fun holds => Nat.not_le.mpr outside holds.2]

theorem require_eq (part : Part) (order : start ≤ stop) : bytes.require part start stop = (do
    requireSize part stop bytes
    return bytes.window start (stop - start)) := by
  rcases Nat.lt_or_ge bytes.length stop with outside | inside
  · rw [require_missing outside, requireSize, if_pos outside]
    rfl
  · rw [require_ok part order inside, requireSize, if_neg (Nat.not_lt.mpr inside)]
    rfl

theorem range?_drop (inside : start ≤ bytes.length) (size : Nat) :
    range? (bytes.drop start) 0 size = bytes.range? start (start + size) := by
  rw [range?, range?, List.length_drop]
  by_cases room : size ≤ bytes.length - start
  · rw [if_pos ⟨Nat.zero_le _, room⟩, if_pos ⟨Nat.le_add_right _ _, by omega⟩,
      Nat.add_sub_cancel_left]
    rfl
  · rw [if_neg fun holds => room holds.2, if_neg (by omega)]

theorem rest_eq (inside : start ≤ bytes.length) : bytes.rest start = .ok (bytes.drop start) :=
  rest_eq_ok.mpr ⟨inside, rfl⟩

theorem window_window {size index count : Nat} (inside : index + count ≤ size) :
    window (bytes.window start size) index count = bytes.window (start + index) count := by
  rw [window, drop_window, window, List.take_take, Nat.min_eq_left (by omega), window]

theorem byteAt_eq {index : Nat} (inside : index < bytes.length) :
    bytes.byteAt index = .ok (toNatBE (bytes.window index 1)).toUInt8 := by
  have single : bytes.window index 1 = [bytes[index]] := by
    rw [window, List.drop_eq_getElem_cons inside, List.take_succ_cons, List.take_zero]
  have number : (toNatBE [bytes[index]]).toUInt8 = bytes[index] := by simp [toNatBE, toNatLE]
  rw [byteAt, List.getElem?_eq_getElem inside, single, number]

theorem big_eq {size : Nat} (inside : start + size ≤ bytes.length) :
    bytes.big start size = .ok (toNatBE (bytes.window start size)) := by
  rw [big, range_eq (Nat.le_add_right _ _) inside, Nat.add_sub_cancel_left]
  rfl

theorem little_eq {size : Nat} (inside : start + size ≤ bytes.length) :
    bytes.little start size = .ok (toNatLE (bytes.window start size)) := by
  rw [little, range_eq (Nat.le_add_right _ _) inside, Nat.add_sub_cancel_left]
  rfl

theorem big_all {size : Nat} (all : bytes.length = size) :
    bytes.big 0 size = .ok (toNatBE bytes) := by
  rw [big_eq (by omega), window, List.drop_zero, ← all, List.take_length]

theorem little_all {size : Nat} (all : bytes.length = size) :
    bytes.little 0 size = .ok (toNatLE bytes) := by
  rw [little_eq (by omega), window, List.drop_zero, ← all, List.take_length]

theorem safe_range (order : start ≤ stop) (inside : stop ≤ bytes.length) :
    Outcome.Safe (bytes.range start stop) (bytes.range start stop) := by
  rw [range_eq order inside]
  exact .ok _

theorem safe_rest (inside : start ≤ bytes.length) :
    Outcome.Safe (bytes.rest start) (bytes.rest start) := by
  rw [rest_eq inside]
  exact .ok _

end Bytes

end PacketStack
