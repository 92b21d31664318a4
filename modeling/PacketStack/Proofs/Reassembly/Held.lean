import PacketStack.Reassembly.Flow

/-!
The segments that a direction holds, as a list which is searched and changed by sequence number, and
what it does with one that arrives.
-/

namespace PacketStack.Flow

@[simp] theorem fragments_deliverFragment (limits : Limits) (next : UInt32) (fragment : Fragment)
    (flow : Flow) : (flow.deliverFragment limits next fragment).fragments = flow.fragments := by
  unfold Flow.deliverFragment Flow.deliver
  split <;> rfl

theorem mem_insertFragment {new held : Fragment} {fragments : List Fragment}
    (member : held ∈ insertFragment new fragments) : held = new ∨ held ∈ fragments := by
  induction fragments with
  | nil => simpa [insertFragment] using member
  | cons first rest ih =>
      unfold insertFragment at member
      split at member
      · simpa using member
      · split at member
        · rcases List.mem_cons.mp member with same | inside
          · exact .inl same
          · exact .inr (List.mem_cons_of_mem _ inside)
        · rcases List.mem_cons.mp member with same | inside
          · exact .inr (by simp [same])
          · rcases ih inside with same | inside
            · exact .inl same
            · exact .inr (List.mem_cons_of_mem _ inside)

theorem insertFragment_self (new : Fragment) (fragments : List Fragment) :
    new ∈ insertFragment new fragments := by
  induction fragments with
  | nil => simp [insertFragment]
  | cons first rest ih =>
      unfold insertFragment
      split
      · simp
      · split <;> simp [ih]

theorem insertFragment_keeps (new : Fragment) {held : Fragment} {fragments : List Fragment}
    (member : held ∈ fragments) :
    held ∈ insertFragment new fragments ∨
      fragments.find? (·.start == new.start) = some held := by
  induction fragments with
  | nil => cases member
  | cons first rest ih =>
      unfold insertFragment
      split
      · exact .inl (List.mem_cons_of_mem _ member)
      · split
        · rename_i same
          rcases List.mem_cons.mp member with equal | inside
          · exact .inr (by simp [same, equal])
          · exact .inl (List.mem_cons_of_mem _ inside)
        · rename_i different
          have apart : (first.start == new.start) = false := by
            simpa using fun equal => different equal.symm
          rcases List.mem_cons.mp member with equal | inside
          · exact .inl (by simp [equal])
          · rcases ih inside with kept | found
            · exact .inl (List.mem_cons_of_mem _ kept)
            · exact .inr (by simp [apart, found])

theorem heldAt_of_find? {flow : Flow} {place : UInt32} {held : Fragment}
    (found : flow.fragments.find? (·.start == place) = some held) :
    flow.heldAt place = held.data.length := by
  simp [heldAt, found]

theorem exists_of_heldAt (flow : Flow) (place : UInt32) (some_held : 0 < flow.heldAt place) :
    ∃ held ∈ flow.fragments, held.start = place ∧ flow.heldAt place = held.data.length := by
  cases found : flow.fragments.find? (·.start == place) with
  | none => simp [heldAt, found] at some_held
  | some held =>
      refine ⟨held, List.mem_of_find?_eq_some found, ?_, heldAt_of_find? found⟩
      simpa using List.find?_some found

theorem sizeSum_erase (size : Fragment → Nat) {fragment : Fragment} {fragments : List Fragment}
    (member : fragment ∈ fragments) :
    size fragment + sizeSum size (fragments.erase fragment) = sizeSum size fragments := by
  induction fragments with
  | nil => cases member
  | cons first rest ih =>
      by_cases same : first = fragment
      · rw [same, List.erase_cons_head, sizeSum]
      · have inside := (List.mem_cons.mp member).resolve_left fun equal => same equal.symm
        rw [List.erase_cons_tail (by simpa using same), sizeSum, sizeSum, ← ih inside]
        omega

theorem pairwise_insertFragment (new : Fragment) {fragments : List Fragment}
    (rising : fragments.Pairwise (·.start < ·.start)) :
    (insertFragment new fragments).Pairwise (·.start < ·.start) := by
  induction rising with
  | nil => exact List.pairwise_singleton _ _
  | cons later rest ih =>
      rename_i first others
      unfold insertFragment
      split
      · rename_i before
        refine .cons ?_ (.cons later rest)
        intro held member
        rcases List.mem_cons.mp member with rfl | inside
        · exact before
        · exact UInt32.lt_trans before (later held inside)
      · split
        · rename_i same
          exact .cons (fun held member => same ▸ later held member) rest
        · rename_i notBefore different
          refine .cons ?_ ih
          intro held member
          rcases mem_insertFragment member with rfl | inside
          · exact UInt32.lt_of_le_of_ne (UInt32.not_lt.mp notBefore) fun same => different same.symm
          · exact later held inside

theorem sizeSum_insertFragment {flow : Flow} (new : Fragment)
    (rising : flow.fragments.Pairwise (·.start < ·.start)) :
    sizeSum (fun fragment => fragment.data.length) (insertFragment new flow.fragments) +
      flow.heldAt new.start = flow.buffered + new.data.length := by
  rw [heldAt, buffered]
  generalize flow.fragments = fragments at rising
  induction rising with
  | nil => simp [insertFragment, sizeSum]
  | cons later rest ih =>
      rename_i first others
      unfold insertFragment
      split
      · rename_i before
        have absent : (first :: others).find? (·.start == new.start) = none := by
          rw [List.find?_eq_none]
          intro held member same
          have equal : held.start = new.start := by simpa using same
          rcases List.mem_cons.mp member with rfl | inside
          · exact UInt32.lt_irrefl _ (equal ▸ before)
          · exact UInt32.lt_irrefl _ (equal ▸ UInt32.lt_trans before (later held inside))
        rw [absent, Option.map_none, Option.getD_none, sizeSum]
        omega
      · split
        · rename_i same
          have found : (first :: others).find? (·.start == new.start) = some first := by
            simp [same]
          rw [found, Option.map_some, Option.getD_some, sizeSum, sizeSum]
          omega
        · rename_i different
          have elsewhere : (first.start == new.start) = false := by
            simpa using fun equal : first.start = new.start => different equal.symm
          rw [List.find?_cons, elsewhere, sizeSum, sizeSum]
          simp only
          omega

theorem heldAt_le_buffered (flow : Flow) (place : UInt32) : flow.heldAt place ≤ flow.buffered := by
  rcases Nat.eq_zero_or_pos (flow.heldAt place) with nothing | some_held
  · omega
  · rcases exists_of_heldAt flow place some_held with ⟨held, member, _, size⟩
    have split := sizeSum_erase (fun fragment => fragment.data.length) member
    rw [size, buffered, ← split]
    exact Nat.le_add_right _ _

theorem buffered_erase {flow : Flow} {fragment : Fragment} (member : fragment ∈ flow.fragments) :
    ({ flow with fragments := flow.fragments.erase fragment } : Flow).buffered =
      flow.buffered - fragment.data.length := by
  have split := sizeSum_erase (fun fragment => fragment.data.length) member
  simp only [buffered]
  omega

/-- A segment is ignored before the direction has begun and where it brings nothing, is held if it
comes early, and is delivered otherwise. -/
inductive Received (limits : Limits) (start : UInt32) (data : Bytes) (flow : Flow) :
    Flow × Bool → Prop where
  | unknown (unbegun : flow.expected = none) : Received limits start data flow (flow, false)
  | repeated {next : UInt32} (known : flow.expected = some next)
      (old : data = [] ∨ Serial.isAfter (Serial.advance start data.length) next = false) :
      Received limits start data flow (flow, false)
  | early {next : UInt32} (known : flow.expected = some next) (filled : data ≠ [])
      (ends : Serial.isAfter (Serial.advance start data.length) next = true)
      (ahead : Serial.isAfter start next = true) :
      Received limits start data flow (flow.hold limits ⟨start, data⟩, false)
  | delivered {next : UInt32} (known : flow.expected = some next) (filled : data ≠ [])
      (ends : Serial.isAfter (Serial.advance start data.length) next = true)
      (due : Serial.isAfter start next = false) :
      Received limits start data flow
        ((flow.deliver limits (data.drop (overlap next start))).drain limits, true)

theorem received (limits : Limits) (start : UInt32) (data : Bytes) (flow : Flow) :
    flow.Received limits start data (flow.receive limits start data) := by
  unfold receive
  split
  · exact .unknown ‹_›
  · rename_i next known
    split
    · rename_i old
      rw [Bool.or_eq_true, List.isEmpty_iff, Bool.not_eq_true'] at old
      exact .repeated known old
    · rename_i news
      rw [Bool.or_eq_true, List.isEmpty_iff, Bool.not_eq_true', not_or, Bool.not_eq_false] at news
      split
      · exact .early known news.1 news.2 ‹_›
      · rename_i due
        exact .delivered known news.1 news.2 (Bool.eq_false_iff.mpr due)

end PacketStack.Flow
