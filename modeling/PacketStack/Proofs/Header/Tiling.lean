import PacketStack.Proofs.Header.Values

/-!
Headers of which every bit belongs to a field.

Main statement: `headed_of_get` restores such a header from the values that were read from it.
-/

namespace PacketStack

open Bytes

def Tiles (start : Nat) (fields : List HeaderField) (stop : Nat) : Prop :=
  match fields with
  | [] => start = stop
  | field :: rest =>
      field.start = start ∧ field.littleEndian = false ∧ Tiles (start + field.width) rest stop

instance decidableTiles : (start : Nat) → (fields : List HeaderField) → (stop : Nat) →
    Decidable (Tiles start fields stop)
  | start, [], stop => inferInstanceAs (Decidable (start = stop))
  | start, field :: rest, stop =>
      have := decidableTiles (start + field.width) rest stop
      inferInstanceAs (Decidable (_ ∧ _ ∧ _))

theorem Tiles.le {start stop : Nat} {fields : List HeaderField}
    (tiles : Tiles start fields stop) : start ≤ stop := by
  induction fields generalizing start with
  | nil => exact Nat.le_of_eq tiles
  | cons field rest ih => exact Nat.le_trans (Nat.le_add_right _ _) (ih tiles.2.2)

variable {start stop size : Nat} {values : List (HeaderField × Nat)} {bytes front : Bytes}

theorem Span.bit_put_get (span : Span) (big : span.littleEndian = false) {index : Nat}
    (room : span.endByte ≤ front.length) (inside : span.endByte ≤ bytes.length) :
    bit (span.put (span.get bytes) front) index =
      if span.start ≤ index ∧ index < span.start + span.width then bit bytes index
      else bit front index := by
  have ordered : span.ordered (span.get bytes) = span.plain bytes := by
    have small := span.plain_lt bytes
    have number : span.get bytes = span.plain bytes := by
      rw [get_eq, order, big]
      rfl
    rw [Span.ordered, number, order, big, Nat.mod_eq_of_lt small]
    exact Nat.mod_eq_of_lt small
  rw [bit_put _ _ _ _ room, ordered]
  split
  · rename_i within
    have short : span.start + span.width - 1 - index < span.width := by omega
    have back : span.start + span.width - 1 - (span.start + span.width - 1 - index) = index := by
      omega
    rw [testBit_plain _ _ _ inside, decide_eq_true short, Bool.true_and, back]
  · rfl

theorem bit_fill_of_get (tiles : Tiles start (values.map Prod.fst) stop)
    (room : stop ≤ 8 * front.length) (inside : stop ≤ 8 * bytes.length)
    (read : ∀ value ∈ values, value.1.get bytes = value.2) (index : Nat) :
    bit (fill values front) index =
      if start ≤ index ∧ index < stop then bit bytes index else bit front index := by
  induction values generalizing start front with
  | nil =>
      rcases tiles
      exact (if_neg (by omega)).symm
  | cons value rest ih =>
      rcases value with ⟨field, value⟩
      simp only [List.map_cons, Tiles] at tiles
      rcases tiles with ⟨rfl, big, tiles⟩
      have order := tiles.le
      have value_eq : value = field.get bytes := (read _ List.mem_cons_self).symm
      have others : ∀ value ∈ rest, value.1.get bytes = value.2 :=
        fun value member => read value (List.mem_cons_of_mem _ member)
      have endInside : field.endByte ≤ bytes.length := by
        simp only [Span.endByte]
        omega
      have endRoom : field.endByte ≤ front.length := by
        simp only [Span.endByte]
        omega
      have room : stop ≤ 8 * (field.put value front).length := by rwa [Span.length_put]
      change bit (fill rest (field.put value front)) index = _
      rw [ih tiles room others, value_eq, Span.bit_put_get _ big endRoom endInside]
      by_cases behind : field.start + field.width ≤ index
      · have same : (field.start + field.width ≤ index ∧ index < stop) ↔
            (field.start ≤ index ∧ index < stop) := by omega
        have outside : ¬ (field.start ≤ index ∧ index < field.start + field.width) := by omega
        rw [if_neg outside]
        simp only [same]
      · have same : (field.start ≤ index ∧ index < field.start + field.width) ↔
            (field.start ≤ index ∧ index < stop) := by omega
        rw [if_neg (by omega)]
        simp only [same]

theorem headed_of_get (tiles : Tiles 0 (values.map Prod.fst) (8 * size))
    (large : size ≤ bytes.length) (read : ∀ value ∈ values, value.1.get bytes = value.2) :
    headed size values (bytes.drop size) = bytes := by
  have front : fill values (List.replicate size 0) = bytes.take size := by
    apply eq_of_bit_eq
    · rw [length_fill, List.length_replicate, List.length_take, Nat.min_eq_left large]
    · intro index inside
      rw [length_fill, List.length_replicate] at inside
      rw [bit_fill_of_get tiles (by simp) (by omega) read,
        if_pos ⟨Nat.zero_le _, inside⟩, bit_take _ _ _ inside]
  rw [headed, front, List.take_append_drop]

end PacketStack
