import Mathlib.Data.List.Induction
import PacketStack.Reassembly.Datagram
import PacketStack.Sizes

/-!
The parts of one datagram.

`Datagram.ofFragments` is what is held after fragments have arrived. Main statements:
`mem_parts_ofFragments` says which parts these are, `join?_eq_some_iff` when they can be joined.
-/

namespace PacketStack

namespace DatagramPart

def size (part : DatagramPart) : Nat := part.data.length

/-- The offset of what follows the part. -/
def stop (part : DatagramPart) : Nat := part.offset + part.size

end DatagramPart

/-- A part as it arrives, and whether it is announced as the last one. -/
structure DatagramFragment where
  part : DatagramPart
  isLast : Bool
  deriving DecidableEq, Repr

namespace Datagram

variable {part other : DatagramPart} {parts : List DatagramPart} {datagram : Datagram}
variable {fragment : DatagramFragment} {fragments : List DatagramFragment}

def take (datagram : Datagram) (fragment : DatagramFragment) : Datagram :=
  datagram.add fragment.part fragment.isLast

def ofFragments (fragments : List DatagramFragment) : Datagram := fragments.foldl take empty

theorem ofFragments_append (fragments : List DatagramFragment) (fragment : DatagramFragment) :
    ofFragments (fragments ++ [fragment]) = (ofFragments fragments).take fragment := by
  rw [ofFragments, List.foldl_append]
  rfl

theorem mem_insertPart : other ∈ insertPart part parts ↔ other = part ∨ other ∈ parts := by
  induction parts with
  | nil => simp [insertPart]
  | cons first rest ih =>
      unfold insertPart
      split
      · simp
      · rw [List.mem_cons, ih, List.mem_cons, or_left_comm]

theorem size_insertPart :
    sizeSum DatagramPart.size (insertPart part parts) =
      part.size + sizeSum DatagramPart.size parts := by
  induction parts with
  | nil => rfl
  | cons first rest ih =>
      unfold insertPart
      split
      · rfl
      · rw [sizeSum, ih, sizeSum]
        omega

theorem rising_insertPart (rising : parts.Pairwise (·.offset < ·.offset))
    (new : ∀ other ∈ parts, other.offset ≠ part.offset) :
    (insertPart part parts).Pairwise (·.offset < ·.offset) := by
  induction parts with
  | nil => exact List.pairwise_singleton _ _
  | cons first rest ih =>
      rcases List.pairwise_cons.mp rising with ⟨before, later⟩
      unfold insertPart
      split
      · rename_i less
        refine List.pairwise_cons.mpr ⟨?_, rising⟩
        intro other member
        rcases List.mem_cons.mp member with rfl | inside
        · exact less
        · exact Nat.lt_trans less (before other inside)
      · rename_i notLess
        refine List.pairwise_cons.mpr ⟨?_, ih later fun other inside => new other (.tail _ inside)⟩
        intro other member
        rcases mem_insertPart.mp member with rfl | inside
        · exact Nat.lt_of_le_of_ne (Nat.le_of_not_lt notLess) (new first (.head _))
        · exact before other inside

/-- The bytes of the parts are counted, each offset has one part at most, and the size of the whole
is what some part announced. -/
structure Sound (datagram : Datagram) : Prop where
  counted : datagram.received = sizeSum DatagramPart.size datagram.parts
  rising : datagram.parts.Pairwise (·.offset < ·.offset)

theorem sound_empty : empty.Sound := ⟨rfl, .nil⟩

theorem any_offset_iff :
    (parts.any (·.offset == part.offset)) = true ↔ ∃ other ∈ parts, other.offset = part.offset := by
  simp

theorem take_of_known (known : ∃ other ∈ datagram.parts, other.offset = fragment.part.offset) :
    datagram.take fragment = datagram :=
  if_pos (any_offset_iff.mpr known)

theorem take_of_new (new : ∀ other ∈ datagram.parts, other.offset ≠ fragment.part.offset) :
    datagram.take fragment =
      { parts := insertPart fragment.part datagram.parts
        received := datagram.received + fragment.part.size
        total := if fragment.isLast then some fragment.part.stop else datagram.total } := by
  refine if_neg fun known => ?_
  rcases any_offset_iff.mp known with ⟨other, member, same⟩
  exact new other member same

theorem known_or_new (datagram : Datagram) (part : DatagramPart) :
    (∃ other ∈ datagram.parts, other.offset = part.offset) ∨
      ∀ other ∈ datagram.parts, other.offset ≠ part.offset := by
  by_cases known : ∃ other ∈ datagram.parts, other.offset = part.offset
  · exact .inl known
  · exact .inr fun other member same => known ⟨other, member, same⟩

theorem Sound.take (sound : datagram.Sound) (fragment : DatagramFragment) :
    (datagram.take fragment).Sound := by
  rcases known_or_new datagram fragment.part with known | new
  · rwa [take_of_known known]
  · rw [take_of_new new]
    refine ⟨?_, rising_insertPart sound.rising new⟩
    rw [size_insertPart, sound.counted, Nat.add_comm]

theorem sound_ofFragments (fragments : List DatagramFragment) : (ofFragments fragments).Sound := by
  induction fragments using List.reverseRecOn with
  | nil => exact sound_empty
  | append_singleton fragments fragment ih =>
      rw [ofFragments_append]
      exact ih.take fragment

/-- Of the parts at one offset the one that arrives first counts. -/
def Counts (fragments : List DatagramFragment) (part : DatagramPart) : Prop :=
  (fragments.map (·.part)).find? (·.offset == part.offset) = some part

theorem counts_append :
    Counts (fragments ++ [fragment]) part ↔
      Counts fragments part ∨
        (part = fragment.part ∧ ∀ earlier ∈ fragments, earlier.part.offset ≠ part.offset) := by
  unfold Counts
  rw [List.map_append, List.find?_append]
  cases found : (fragments.map (·.part)).find? (·.offset == part.offset) with
  | none =>
      have none_before : ∀ earlier ∈ fragments, earlier.part.offset ≠ part.offset := by
        simpa using found
      simp only [Option.none_or, reduceCtorEq, false_or]
      constructor
      · intro last
        have member := List.mem_of_find?_eq_some last
        exact ⟨by simpa using member, none_before⟩
      · rintro ⟨rfl, _⟩
        simp
  | some first =>
      have same := List.find?_some found
      have member := List.mem_of_find?_eq_some found
      simp only [Option.some_or]
      constructor
      · exact .inl
      · rintro (before | ⟨_, none_before⟩)
        · exact before
        · rcases List.mem_map.mp member with ⟨earlier, inside, rfl⟩
          exact absurd (by simpa using same) (none_before earlier inside)

theorem exists_counts (member : fragment ∈ fragments) :
    ∃ first, Counts fragments first ∧ first.offset = fragment.part.offset := by
  cases found : (fragments.map (·.part)).find? (·.offset == fragment.part.offset) with
  | none => simpa using List.find?_eq_none.mp found _ (List.mem_map_of_mem member)
  | some first =>
      have same : first.offset = fragment.part.offset := by simpa using List.find?_some found
      exact ⟨first, by rw [Counts, same, found], same⟩

theorem mem_parts_ofFragments :
    part ∈ (ofFragments fragments).parts ↔ Counts fragments part := by
  induction fragments using List.reverseRecOn generalizing part with
  | nil => simp [ofFragments, empty, Counts]
  | append_singleton fragments fragment ih =>
      rw [ofFragments_append, counts_append]
      have known_iff : (∃ other ∈ (ofFragments fragments).parts,
          other.offset = fragment.part.offset) ↔
            ∃ earlier ∈ fragments, earlier.part.offset = fragment.part.offset := by
        constructor
        · rintro ⟨other, held, same⟩
          rcases List.mem_map.mp (List.mem_of_find?_eq_some (ih.mp held)) with
            ⟨earlier, member, rfl⟩
          exact ⟨earlier, member, same⟩
        · rintro ⟨earlier, member, same⟩
          rcases exists_counts member with ⟨first, counts, place⟩
          exact ⟨first, ih.mpr counts, place.trans same⟩
      rcases known_or_new (ofFragments fragments) fragment.part with known | new
      · rw [take_of_known known, ih]
        rcases known_iff.mp known with ⟨earlier, member, same⟩
        constructor
        · exact .inl
        · rintro (counts | ⟨rfl, none_before⟩)
          · exact counts
          · exact absurd same (none_before earlier member)
      · rw [take_of_new new, mem_insertPart, ih, or_comm]
        have none_before : ∀ earlier ∈ fragments, earlier.part.offset ≠ fragment.part.offset :=
          fun earlier member same =>
            (known_iff.mpr ⟨earlier, member, same⟩).elim fun other both => new other both.1 both.2
        constructor
        · rintro (counts | rfl)
          · exact .inl counts
          · exact .inr ⟨rfl, none_before⟩
        · rintro (counts | ⟨same, _⟩)
          · exact .inl counts
          · exact .inr same

theorem total_ofFragments {total : Nat} (known : (ofFragments fragments).total = some total) :
    ∃ fragment ∈ fragments, fragment.isLast = true ∧
      fragment.part ∈ (ofFragments fragments).parts ∧ fragment.part.stop = total := by
  induction fragments using List.reverseRecOn with
  | nil => cases known
  | append_singleton fragments fragment ih =>
      rw [ofFragments_append] at known ⊢
      rcases known_or_new (ofFragments fragments) fragment.part with old | new
      · rw [take_of_known old] at known ⊢
        rcases ih known with ⟨earlier, member, rest⟩
        exact ⟨earlier, List.mem_append_left _ member, rest⟩
      · rw [take_of_new new] at known ⊢
        cases last : fragment.isLast with
        | true =>
            simp only [last, if_true, Option.some.injEq] at known
            exact ⟨fragment, List.mem_append_right _ (.head _), last,
              mem_insertPart.mpr (.inl rfl), known⟩
        | false =>
            simp only [last, Bool.false_eq_true, if_false] at known
            rcases ih known with ⟨earlier, member, announced, held, stop⟩
            exact ⟨earlier, List.mem_append_left _ member, announced,
              mem_insertPart.mpr (.inr held), stop⟩

theorem isSome_total_ofFragments (member : fragment ∈ fragments) (last : fragment.isLast = true)
    (alike : ∀ other ∈ fragments, other.part.offset = fragment.part.offset →
      other.isLast = true) : (ofFragments fragments).total.isSome = true := by
  induction fragments using List.reverseRecOn generalizing fragment with
  | nil => cases member
  | append_singleton fragments next ih =>
      have earlier {other : DatagramFragment} (before : other ∈ fragments)
          (same : other.part.offset = fragment.part.offset) :
          (ofFragments fragments).total.isSome = true := by
        refine ih before (alike other (List.mem_append_left _ before) same) ?_
        intro third inside place
        exact alike third (List.mem_append_left _ inside) (place.trans same)
      rw [ofFragments_append]
      rcases known_or_new (ofFragments fragments) next.part with known | new
      · rw [take_of_known known]
        rcases List.mem_append.mp member with before | now
        · exact earlier before rfl
        · rcases known with ⟨held, inside, place⟩
          have counts := mem_parts_ofFragments.mp inside
          rcases List.mem_map.mp (List.mem_of_find?_eq_some counts) with ⟨other, before, rfl⟩
          exact earlier before (place.trans (by rw [List.mem_singleton.mp now]))
      · rw [take_of_new new]
        cases announced : next.isLast with
        | true => rfl
        | false =>
            rcases List.mem_append.mp member with before | now
            · exact earlier before rfl
            · rw [List.mem_singleton.mp now, announced] at last
              cases last

/-- Every part starts where the ones before it end: there is no gap and no overlap. -/
def Tiles (start : Nat) (parts : List DatagramPart) : Prop :=
  ∀ before part after, parts = before ++ part :: after →
    part.offset = start + sizeSum DatagramPart.size before

theorem tiles_cons {start : Nat} :
    Tiles start (part :: parts) ↔ part.offset = start ∧ Tiles (start + part.size) parts := by
  constructor
  · intro tiles
    refine ⟨tiles [] part parts rfl, fun before next after split => ?_⟩
    have placed := tiles (part :: before) next after (congrArg (part :: ·) split)
    rw [placed, sizeSum, Nat.add_assoc]
  · rintro ⟨first, rest⟩ before next after split
    cases before with
    | nil =>
        cases split
        exact first
    | cons head before =>
        injection split with same split
        subst same
        rw [rest before next after split, sizeSum, Nat.add_assoc]

theorem joinFrom?_eq_some_iff {start : Nat} {bytes : Bytes} :
    joinFrom? start parts = some bytes ↔
      Tiles start parts ∧ bytes = parts.flatMap (·.data) := by
  induction parts generalizing start bytes with
  | nil =>
      have tiles : Tiles start [] := fun before _ _ split => by simp at split
      simp [joinFrom?, tiles, eq_comm]
  | cons part rest ih =>
      rw [joinFrom?, tiles_cons, List.flatMap_cons]
      by_cases first : part.offset = start
      · rw [if_pos first, Option.map_eq_some_iff]
        simp only [ih, DatagramPart.size, first, true_and]
        constructor
        · rintro ⟨joined, ⟨tiles, rfl⟩, rfl⟩
          exact ⟨tiles, rfl⟩
        · rintro ⟨tiles, rfl⟩
          exact ⟨_, ⟨tiles, rfl⟩, rfl⟩
      · simp [first]

theorem join?_eq_some_iff {bytes : Bytes} :
    datagram.join? = some bytes ↔
      Tiles 0 datagram.parts ∧ bytes = datagram.parts.flatMap (·.data) :=
  joinFrom?_eq_some_iff

end Datagram

end PacketStack
