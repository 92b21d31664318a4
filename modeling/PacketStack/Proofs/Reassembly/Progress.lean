import PacketStack.Proofs.Reassembly.Held
import PacketStack.Proofs.Reassembly.Slice

/-!
What is known of a direction while it takes slices of the bytes of its sender.

`Flow.Follows` says that a first part of the bytes was delivered and that what is held lies ahead of
it, `Flow.Complete` that no byte which arrived is missing from both. Main statements:
`Follows.drain` and `Complete.hold`, the two steps that change what is held.
-/

namespace PacketStack.Flow

/-- What is known of a direction which has delivered `count` bytes, `base` of them before the
segment that is being taken. The positions in `seen` are those of the bytes that arrived. -/
structure Follows (keeps : Bool) (stream : Bytes) (start : UInt32) (seen : Nat → Prop)
    (base count : Nat) (flow : Flow) : Prop where
  inside : count ≤ stream.length
  grown : base ≤ count
  recent : count < base + 0x80000000
  delivered : flow.delivered = count
  expected : flow.expected = some (Serial.advance start count)
  payload : keeps = true → flow.payload = stream.take count
  arrived : ∀ position < count, seen position
  early : ∀ fragment ∈ flow.fragments, ∃ offset, fragment.Early stream start base offset ∧
    ∀ position, offset ≤ position → position < offset + fragment.data.length → seen position

def Holds (stream : Bytes) (start : UInt32) (base : Nat) (flow : Flow) (position : Nat) : Prop :=
  ∃ fragment ∈ flow.fragments, ∃ offset, fragment.Early stream start base offset ∧
    offset ≤ position ∧ position < offset + fragment.data.length

def Complete (stream : Bytes) (start : UInt32) (seen : Nat → Prop) (base count : Nat)
    (flow : Flow) : Prop :=
  ∀ position, seen position → position < count ∨ flow.Holds stream start base position

section

variable {limits : Limits} {stream : Bytes} {start : UInt32} {seen : Nat → Prop}
variable {base count : Nat} {flow : Flow}

theorem follows_begin (keeps : Bool) (stream : Bytes) (start : UInt32) :
    (empty.begin start).Follows keeps stream start (fun _ => False) 0 0 where
  inside := Nat.zero_le _
  grown := Nat.le_refl _
  recent := by decide
  delivered := rfl
  expected := by rw [Serial.advance_zero]; rfl
  payload := by intro; rfl
  arrived := by intro position before; omega
  early := by intro fragment member; cases member

theorem Follows.deliver (follows : flow.Follows limits.keepsPayload stream start seen base count)
    (size : Nat) (inside : count + size ≤ stream.length)
    (recent : count + size < base + 0x80000000)
    (arrived : ∀ position, count ≤ position → position < count + size → seen position) :
    (flow.deliver limits (stream.window count size)).Follows limits.keepsPayload stream start seen
      base (count + size) := by
  have length : (stream.window count size).length = size := by
    rw [Bytes.length_window]
    omega
  refine ⟨inside, ?_, recent, ?_, ?_, ?_, ?_, follows.early⟩
  · have grown := follows.grown
    omega
  · simp [Flow.deliver, length, follows.delivered]
  · simp [Flow.deliver, length, follows.expected, Serial.advance_advance]
  · intro keeps
    simp [Flow.deliver, keeps, follows.payload keeps, Bytes.take_append_window]
  · intro position before
    by_cases old : position < count
    · exact follows.arrived position old
    · exact arrived position (by omega) before

theorem isDue_eq {fragment : Fragment} {offset : Nat}
    (early : fragment.Early stream start base offset) (grown : base ≤ count)
    (recent : count < base + 0x80000000) :
    isDue (Serial.advance start count) fragment = decide (offset ≤ count) := by
  have near : Serial.Near offset count := by
    have ahead := early.ahead
    have close := early.close
    unfold Serial.Near
    omega
  rw [isDue, early.placed, Serial.isAfter_advance start near]
  by_cases due : offset ≤ count
  · have order : ¬ count < offset := by omega
    simp [due, order]
  · have order : count < offset := by omega
    simp [due, order]

theorem Follows.deliverFragment {fragment : Fragment} {offset : Nat}
    (follows : flow.Follows limits.keepsPayload stream start seen base count)
    (early : fragment.Early stream start base offset) (due : offset ≤ count)
    (arrived : ∀ position, offset ≤ position → position < offset + fragment.data.length →
      seen position) :
    (flow.deliverFragment limits (Serial.advance start count) fragment).Follows
      limits.keepsPayload stream start seen base (max count (offset + fragment.data.length)) := by
  have grown := follows.grown
  have recent := follows.recent
  have ahead := early.ahead
  have close := early.close
  have inside := early.inside
  have near : Serial.Near (offset + fragment.data.length) count := by
    unfold Serial.Near
    omega
  have distance : (Serial.distance (Serial.advance start offset)
      (Serial.advance start count)).toNat = count - offset :=
    Serial.toNat_distance_advance start due (by omega)
  rw [Flow.deliverFragment, early.placed, Serial.advance_advance,
    Serial.isAfter_advance start near, distance]
  simp only [decide_eq_true_eq]
  by_cases longer : count < offset + fragment.data.length
  · have rest : fragment.data.drop (count - offset) =
        stream.window count (offset + fragment.data.length - count) := by
      rw [early.bytes, Bytes.drop_window, Bytes.length_window]
      congr 1 <;> omega
    have stop : max count (offset + fragment.data.length) =
        count + (offset + fragment.data.length - count) := by omega
    rw [if_pos longer, rest, stop]
    apply follows.deliver
    · omega
    · omega
    · intro position first last
      exact arrived position (by omega) (by omega)
  · have stop : max count (offset + fragment.data.length) = count := by omega
    rw [if_neg longer, stop]
    exact follows

theorem Follows.of_fragments {other : Flow}
    (follows : flow.Follows limits.keepsPayload stream start seen base count)
    (same : other = { flow with fragments := other.fragments })
    (fewer : ∀ fragment ∈ other.fragments, fragment ∈ flow.fragments) :
    other.Follows limits.keepsPayload stream start seen base count := by
  rw [same]
  exact ⟨follows.inside, follows.grown, follows.recent, follows.delivered, follows.expected,
    follows.payload, follows.arrived, fun fragment member =>
      follows.early fragment (fewer fragment member)⟩

theorem Follows.mono {more : Nat → Prop}
    (follows : flow.Follows limits.keepsPayload stream start seen base count)
    (weaker : ∀ position, seen position → more position) :
    flow.Follows limits.keepsPayload stream start more base count := by
  refine ⟨follows.inside, follows.grown, follows.recent, follows.delivered, follows.expected,
    follows.payload, ?_, ?_⟩
  · intro position before
    exact weaker position (follows.arrived position before)
  · intro fragment member
    rcases follows.early fragment member with ⟨offset, early, arrived⟩
    exact ⟨offset, early, fun position first last =>
      weaker position (arrived position first last)⟩

theorem Complete.deliverFragment {fragment : Fragment} {offset : Nat}
    (complete : flow.Complete stream start seen base count)
    (early : fragment.Early stream start base offset) :
    ({ flow with fragments := flow.fragments.erase fragment }.deliverFragment limits
      (Serial.advance start count) fragment).Complete stream start seen base
        (max count (offset + fragment.data.length)) := by
  intro position arrived
  rcases complete position arrived with before | ⟨held, member, place, heldEarly, first, last⟩
  · left
    omega
  · by_cases same : held = fragment
    · subst same
      have equal := early.unique heldEarly rfl
      left
      omega
    · right
      refine ⟨held, ?_, place, heldEarly, first, last⟩
      rw [fragments_deliverFragment]
      exact (List.mem_erase_of_ne same).mpr member

theorem Follows.drain (follows : flow.Follows limits.keepsPayload stream start seen base count) :
    ∃ final, count ≤ final ∧
      (flow.drain limits).Follows limits.keepsPayload stream start seen base final ∧
      (∀ fragment ∈ (flow.drain limits).fragments, ∀ offset,
        fragment.Early stream start base offset → final < offset) ∧
      (flow.Complete stream start seen base count →
        (flow.drain limits).Complete stream start seen base final) := by
  fun_induction Flow.drain limits flow generalizing count with
  | case1 flow unknown =>
      rw [follows.expected] at unknown
      cases unknown
  | case2 flow next expected none_due =>
      have next_eq : next = Serial.advance start count := by
        rw [follows.expected] at expected
        exact (Option.some.inj expected).symm
      refine ⟨count, Nat.le_refl _, follows, ?_, id⟩
      intro fragment member offset early
      have late := List.find?_eq_none.mp none_due fragment member
      rw [next_eq, isDue_eq early follows.grown follows.recent] at late
      simpa using late
  | case3 flow next expected fragment found rest =>
      rename_i ih
      have next_eq : next = Serial.advance start count := by
        rw [follows.expected] at expected
        exact (Option.some.inj expected).symm
      subst next_eq
      have member : fragment ∈ flow.fragments := List.mem_of_find?_eq_some found
      rcases follows.early fragment member with ⟨offset, early, arrived⟩
      have due := List.find?_some found
      rw [isDue_eq early follows.grown follows.recent, decide_eq_true_eq] at due
      have without : rest.Follows limits.keepsPayload stream start seen base count :=
        follows.of_fragments rfl fun other inside => List.mem_of_mem_erase inside
      obtain ⟨final, further, result, ahead, complete⟩ :=
        ih (without.deliverFragment early due arrived)
      refine ⟨final, by omega, result, ahead, fun before => complete ?_⟩
      exact before.deliverFragment early

theorem Follows.rebase (follows : flow.Follows limits.keepsPayload stream start seen base count)
    (ahead : ∀ fragment ∈ flow.fragments, ∀ offset,
      fragment.Early stream start base offset → count < offset) :
    flow.Follows limits.keepsPayload stream start seen count count := by
  refine ⟨follows.inside, Nat.le_refl _, by omega, follows.delivered, follows.expected,
    follows.payload, follows.arrived, ?_⟩
  intro fragment member
  rcases follows.early fragment member with ⟨offset, early, arrived⟩
  exact ⟨offset, early.rebase follows.grown (ahead fragment member offset early), arrived⟩

theorem Complete.rebase (complete : flow.Complete stream start seen base count)
    (grown : base ≤ count)
    (ahead : ∀ fragment ∈ flow.fragments, ∀ offset,
      fragment.Early stream start base offset → count < offset) :
    flow.Complete stream start seen count count := by
  intro position arrived
  rcases complete position arrived with before | ⟨fragment, member, offset, early, first, last⟩
  · exact .inl before
  · exact .inr ⟨fragment, member, offset,
      early.rebase grown (ahead fragment member offset early), first, last⟩

theorem Follows.hold {fragment : Fragment} {offset : Nat}
    (follows : flow.Follows limits.keepsPayload stream start seen base count)
    (early : fragment.Early stream start base offset)
    (arrived : ∀ position, offset ≤ position → position < offset + fragment.data.length →
      seen position) :
    (flow.hold limits fragment).Follows limits.keepsPayload stream start seen base count := by
  unfold Flow.hold
  simp only
  split
  · exact follows
  · split
    · exact follows
    · refine ⟨follows.inside, follows.grown, follows.recent, follows.delivered, follows.expected,
        follows.payload, follows.arrived, ?_⟩
      intro held member
      rcases mem_insertFragment member with rfl | inside
      · exact ⟨offset, early, arrived⟩
      · exact follows.early held inside

theorem Complete.hold {fragment : Fragment} {offset : Nat} {more : Nat → Prop}
    (complete : flow.Complete stream start seen base count)
    (follows : flow.Follows limits.keepsPayload stream start more base count)
    (early : fragment.Early stream start base offset)
    (room : flow.heldAt fragment.start < fragment.data.length →
      flow.buffered - flow.heldAt fragment.start + fragment.data.length ≤ limits.maximumBuffered) :
    (flow.hold limits fragment).Complete stream start
      (fun position => seen position ∨
        (offset ≤ position ∧ position < offset + fragment.data.length)) base count := by
  have nonempty := early.nonempty
  -- The fragment that is replaced is shorter, and one that makes way is as long.
  unfold Flow.hold
  simp only
  by_cases shorter : fragment.data.length ≤ flow.heldAt fragment.start
  · rw [if_pos shorter]
    rcases exists_of_heldAt flow fragment.start (by omega) with ⟨held, member, place, size⟩
    rcases follows.early held member with ⟨other, heldEarly, _⟩
    have equal := early.unique heldEarly place.symm
    subst equal
    intro position arrived
    rcases arrived with before | ⟨first, last⟩
    · exact complete position before
    · exact .inr ⟨held, member, offset, heldEarly, first, by omega⟩
  · rw [if_neg shorter, if_neg (by have := room (by omega); omega)]
    intro position arrived
    rcases arrived with before | ⟨first, last⟩
    · rcases complete position before with old | ⟨held, member, other, heldEarly, first, last⟩
      · exact .inl old
      · rcases insertFragment_keeps fragment member with kept | found
        · exact .inr ⟨held, kept, other, heldEarly, first, last⟩
        · have place : held.start = fragment.start := by simpa using List.find?_some found
          have equal := heldEarly.unique early place
          have size := heldAt_of_find? found
          exact .inr ⟨fragment, insertFragment_self _ _, offset, early, by omega, by omega⟩
    · exact .inr ⟨fragment, insertFragment_self _ _, offset, early, first, last⟩

end

end PacketStack.Flow
