import PacketStack.Checked.Flow
import PacketStack.Proofs.Checked.Access
import PacketStack.Proofs.Reassembly.Held
import PacketStack.Proofs.Reassembly.Position

/-!
What holds of a direction whatever is sent.

`Flow.Kept` is what each turn of the delivery of held fragments keeps, `Flow.Sound` what each input
keeps. Main statement: `CountedFlow.takeAll_answers` says that no slice and no difference is out of
range, that the count of held bytes is right, and that the delivery of held fragments ends.
-/

namespace PacketStack

namespace Serial

theorem distance_lt_of_reaches {start next : UInt32} {size : Nat}
    (due : isAfter start next = false) (ends : isAfter (advance start size) next = true) :
    (distance start next).toNat < size := by
  have behind : start = next ∨ 0x80000000 ≤ (distance next start).toNat := by
    unfold isAfter compare at due
    split at due
    · exact .inl ‹_›
    · split at due
      · cases due
      · exact .inr (by omega)
  have ahead : advance start size ≠ next ∧
      (distance next (advance start size)).toNat < 0x80000000 := by
    unfold isAfter compare at ends
    split at ends
    · cases ends
    · split at ends
      · exact ⟨‹_›, ‹_›⟩
      · cases ends
  have apart : (advance start size).toNat ≠ next.toNat := fun same =>
    ahead.1 (UInt32.toNat.inj same)
  have near := ahead.2
  have first := start.toNat_lt
  have second := next.toNat_lt
  simp only [distance, UInt32.toNat_sub, toNat_advance] at apart near behind ⊢
  rcases behind with rfl | far <;> omega

/-- Of numbers half of all numbers apart each comes before the other. -/
example : compare 0 0x80000000 = .lt ∧ compare 0x80000000 0 = .lt := by decide

end Serial

namespace Flow

/-- What every turn keeps of a direction that began at a number or not at all. -/
structure Kept (limits : Limits) (begun : Option UInt32) (flow : Flow) : Prop where
  room : flow.buffered ≤ limits.maximumBuffered
  nonempty : ∀ fragment ∈ flow.fragments, fragment.data ≠ []
  rising : flow.fragments.Pairwise (·.start < ·.start)
  idle : flow.expected = none → flow.fragments = []
  placed : flow.expected = begun.map (Serial.advance · flow.delivered)

/-- What every input keeps: besides, nothing is held that could be delivered. -/
structure Sound (limits : Limits) (begun : Option UInt32) (flow : Flow) : Prop
    extends Kept limits begun flow where
  early : ∀ next, flow.expected = some next → ∀ fragment ∈ flow.fragments,
    Serial.compare fragment.start next = .gt

variable {limits : Limits} {begun : Option UInt32} {flow : Flow} {fragment : Fragment}

theorem sound_startingAt (limits : Limits) (begun : Option UInt32) :
    (startingAt begun).Sound limits begun where
  room := Nat.zero_le _
  nonempty _ member := absurd member List.not_mem_nil
  rising := .nil
  idle _ := rfl
  placed := by
    cases begun with
    | none => rfl
    | some start => exact congrArg some (Serial.advance_zero start).symm
  early _ _ _ member := absurd member List.not_mem_nil

theorem Sound.held (sound : flow.Sound limits begun) (member : fragment ∈ flow.fragments) :
    fragment.data ≠ [] ∧
      ∃ next, flow.expected = some next ∧ Serial.compare fragment.start next = .gt := by
  refine ⟨sound.nonempty fragment member, ?_⟩
  cases known : flow.expected with
  | none =>
      rw [sound.idle known] at member
      cases member
  | some next => exact ⟨next, rfl, sound.early next known fragment member⟩

theorem Kept.deliver (kept : flow.Kept limits begun) (data : Bytes) :
    (flow.deliver limits data).Kept limits begun where
  room := kept.room
  nonempty := kept.nonempty
  rising := kept.rising
  idle unknown := kept.idle (Option.map_eq_none_iff.mp unknown)
  placed := by
    simp only [Flow.deliver, kept.placed, Option.map_map]
    congr 1
    funext start
    exact Serial.advance_advance _ _ _

theorem Kept.erase (kept : flow.Kept limits begun) (member : fragment ∈ flow.fragments) :
    ({ flow with fragments := flow.fragments.erase fragment } : Flow).Kept limits begun where
  room := by
    rw [buffered_erase member]
    exact Nat.le_trans (Nat.sub_le _ _) kept.room
  nonempty held inside := kept.nonempty held (List.mem_of_mem_erase inside)
  rising := kept.rising.sublist List.erase_sublist
  idle unknown := absurd member (by rw [kept.idle unknown]; exact List.not_mem_nil)
  placed := kept.placed

theorem Kept.deliverFragment (kept : flow.Kept limits begun) (next : UInt32)
    (fragment : Fragment) : (flow.deliverFragment limits next fragment).Kept limits begun := by
  unfold Flow.deliverFragment
  split
  · exact kept.deliver _
  · exact kept

theorem Kept.drain (kept : flow.Kept limits begun) : (flow.drain limits).Sound limits begun := by
  fun_induction Flow.drain limits flow with
  | case1 flow unknown =>
      refine ⟨kept, fun next known => ?_⟩
      cases unknown.symm.trans known
  | case2 flow next known none_due =>
      refine ⟨kept, fun other same held member => ?_⟩
      cases known.symm.trans same
      have waits := List.find?_eq_none.mp none_due held member
      simpa [isDue, Serial.isAfter] using waits
  | case3 flow next known fragment due rest =>
      rename_i ih
      exact ih ((kept.erase (List.mem_of_find?_eq_some due)).deliverFragment next fragment)

theorem Sound.hold (sound : flow.Sound limits begun) {next : UInt32}
    (known : flow.expected = some next) (ahead : Serial.isAfter fragment.start next = true) :
    (flow.hold limits fragment).Sound limits begun := by
  unfold Flow.hold
  simp only
  split
  · exact sound
  · rename_i longer
    split
    · exact sound
    · rename_i room
      have count := sizeSum_insertFragment fragment sound.rising
      have fewer := flow.heldAt_le_buffered fragment.start
      refine ⟨⟨?_, ?_, pairwise_insertFragment fragment sound.rising, ?_, sound.placed⟩, ?_⟩
      · unfold buffered at count fewer room ⊢
        simp only
        omega
      · intro held member
        rcases mem_insertFragment member with rfl | inside
        · exact List.ne_nil_of_length_pos (by omega)
        · exact sound.nonempty held inside
      · intro unknown
        cases known.symm.trans unknown
      · intro other same held member
        cases known.symm.trans same
        rcases mem_insertFragment member with rfl | inside
        · simpa [Serial.isAfter] using ahead
        · exact sound.early next known held inside

end Flow

namespace CountedFlow

open Outcome (ok_bind)

def of (flow : Flow) : CountedFlow := ⟨flow, flow.buffered⟩

variable {limits : Flow.Limits} {begun : Option UInt32} {flow : Flow}

theorem hold_of (kept : flow.Kept limits begun) (fragment : Fragment) :
    (of flow).hold limits fragment = .ok (of (flow.hold limits fragment)) := by
  have fewer := flow.heldAt_le_buffered fragment.start
  have count := Flow.sizeSum_insertFragment fragment kept.rising
  unfold hold Flow.hold
  simp only [of, Outcome.minus_eq fewer, ok_bind]
  split
  · rfl
  · split
    · rfl
    · have total : flow.buffered - flow.heldAt fragment.start + fragment.data.length =
          sizeSum (fun fragment => fragment.data.length)
            (Flow.insertFragment fragment flow.fragments) := by omega
      rw [total]
      rfl

theorem deliverFragment_eq {next : UInt32} {fragment : Fragment}
    (due : Flow.isDue next fragment = true) (flow : Flow) :
    deliverFragment limits next fragment flow =
      .ok (flow.deliverFragment limits next fragment) := by
  unfold deliverFragment Flow.deliverFragment
  split
  · rename_i ends
    have starts : Serial.isAfter fragment.start next = false := by
      simpa [Flow.isDue] using due
    have inside := Serial.distance_lt_of_reaches starts ends
    rw [Bytes.rest_eq (Nat.le_of_lt inside), ok_bind]
    rfl
  · rfl

theorem turn_of_none_due (settled : ∀ next, flow.expected = some next →
    flow.fragments.find? (Flow.isDue next) = none) : (of flow).turn limits = .ok none := by
  unfold turn
  simp only [of]
  split
  · rfl
  · rename_i next known
    rw [settled next known]
    rfl

theorem turn_of_due (limits : Flow.Limits) {next : UInt32} {fragment : Fragment}
    (known : flow.expected = some next)
    (due : flow.fragments.find? (Flow.isDue next) = some fragment) :
    (of flow).turn limits = .ok (some (of
      (({ flow with fragments := flow.fragments.erase fragment } : Flow).deliverFragment limits
        next fragment))) := by
  have member := List.mem_of_find?_eq_some due
  have part : fragment.data.length ≤ flow.buffered := by
    have split := Flow.sizeSum_erase (fun fragment => fragment.data.length) member
    unfold Flow.buffered
    omega
  have left := Flow.buffered_erase member
  unfold turn
  simp only [of, known, due, Outcome.minus_eq part, ok_bind,
    deliverFragment_eq (List.find?_some due)]
  rw [← left, Flow.buffered, Flow.buffered, Flow.fragments_deliverFragment]
  rfl

/-- The delivery of held fragments as so many turns, after which none is due. -/
inductive Drains (limits : Flow.Limits) : Nat → CountedFlow → CountedFlow → Prop where
  | settled {counted : CountedFlow} (done : counted.turn limits = .ok none) :
      Drains limits 0 counted counted
  | turned {turns : Nat} {counted next last : CountedFlow}
      (first : counted.turn limits = .ok (some next)) (rest : Drains limits turns next last) :
      Drains limits (turns + 1) counted last

theorem drain_eq_ok_iff {counted last : CountedFlow} :
    counted.drain limits = .ok last ↔ ∃ turns, Drains limits turns counted last := by
  constructor
  · intro drained
    fun_induction drain limits counted with
    | case1 counted failure failed => cases drained
    | case2 counted done =>
        cases drained
        exact ⟨0, .settled done⟩
    | case3 counted next turned ih =>
        rcases ih drained with ⟨turns, rest⟩
        exact ⟨turns + 1, .turned turned rest⟩
  · rintro ⟨turns, drains⟩
    induction drains with
    | settled done =>
        rw [drain]
        split <;> simp_all
    | turned first rest ih =>
        rw [drain]
        split <;> simp_all

theorem exists_drains (limits : Flow.Limits) (flow : Flow) :
    ∃ turns ≤ flow.fragments.length,
      Drains limits turns (of flow) (of (flow.drain limits)) := by
  fun_induction Flow.drain limits flow with
  | case1 flow unknown =>
      refine ⟨0, Nat.zero_le _, .settled (turn_of_none_due fun next known => ?_)⟩
      cases unknown.symm.trans known
  | case2 flow next known none_due =>
      refine ⟨0, Nat.zero_le _, .settled (turn_of_none_due fun other same => ?_)⟩
      cases known.symm.trans same
      exact none_due
  | case3 flow next known fragment due rest =>
      rename_i ih
      rcases ih with ⟨turns, few, drains⟩
      have turned := turn_of_due limits known due
      have fewer := fewer_of_turn turned
      exact ⟨turns + 1, Nat.lt_of_le_of_lt few fewer, .turned turned drains⟩

theorem receive_of (sound : flow.Sound limits begun) {start : UInt32} {data : Bytes}
    {result : Flow × Bool} (received : flow.Received limits start data result) :
    (of flow).receive limits start data = .ok (of result.1, result.2) ∧
      result.1.Sound limits begun := by
  unfold receive
  cases received with
  | unknown unbegun =>
      simp only [of, unbegun]
      exact ⟨rfl, sound⟩
  | repeated known old =>
      rcases old with rfl | old
      · simp only [of, known]
        exact ⟨rfl, sound⟩
      · simp only [of, known, old, Bool.not_false, Bool.or_true]
        exact ⟨rfl, sound⟩
  | early known filled ends ahead =>
      have held := hold_of sound.toKept ⟨start, data⟩
      simp only [of] at held
      simp only [of, known, List.isEmpty_eq_false_iff.mpr filled, ends, ahead, held]
      exact ⟨rfl, sound.hold known ahead⟩
  | @delivered next known filled ends due =>
      have inside : Flow.overlap next start ≤ data.length := by
        unfold Flow.overlap
        split
        · exact Nat.le_of_lt (Serial.distance_lt_of_reaches due ends)
        · exact Nat.zero_le _
      rcases exists_drains limits (flow.deliver limits (data.drop (Flow.overlap next start)))
        with ⟨turns, _, drains⟩
      have drained := drain_eq_ok_iff.mpr ⟨turns, drains⟩
      simp only [of, known, List.isEmpty_eq_false_iff.mpr filled, ends, due,
        Bytes.rest_eq inside, ok_bind]
      refine ⟨?_, (sound.toKept.deliver _).drain⟩
      exact congrArg (· >>= fun drained => .ok (drained, true)) drained

theorem take_of (sound : flow.Sound limits begun) (input : Flow.Input) :
    (of flow).take limits input = .ok (of (flow.take limits input)) ∧
      (flow.take limits input).Sound limits begun := by
  cases input with
  | segment start data =>
      rcases receive_of sound (flow.received limits start data) with ⟨received, after⟩
      refine ⟨?_, after⟩
      unfold take
      simp only
      rw [received]
      rfl
  | finish start length =>
      exact ⟨rfl, ⟨sound.room, sound.nonempty, sound.rising, sound.idle, sound.placed⟩, sound.early⟩
  | clear =>
      exact ⟨rfl, ⟨sound.room, sound.nonempty, sound.rising, sound.idle, sound.placed⟩, sound.early⟩

theorem takeAll_of (sound : flow.Sound limits begun) (inputs : List Flow.Input) :
    takeAll limits inputs (of flow) = .ok (of (flow.takeAll limits inputs)) ∧
      (flow.takeAll limits inputs).Sound limits begun := by
  induction inputs generalizing flow with
  | nil => exact ⟨rfl, sound⟩
  | cons input rest ih =>
      rcases take_of sound input with ⟨taken, after⟩
      rcases ih after with ⟨others, last⟩
      refine ⟨?_, last⟩
      unfold takeAll at others ⊢
      rw [List.foldlM_cons, taken, ok_bind]
      exact others

/-- Whatever segments, ends and clears a direction takes, no slice of a segment or fragment and no
difference of counts is out of range. The count of held bytes is the sum of their lengths and within
the limit, every held fragment has bytes and comes after the next one to deliver, whose number is as
far from the first one as bytes were delivered. However many bytes come next, delivering what is
held ends after at most one turn for each fragment. -/
theorem takeAll_answers (limits : Flow.Limits) (begun : Option UInt32) (inputs : List Flow.Input) :
    ∃ counted, takeAll limits inputs (startingAt begun) = .ok counted ∧
      counted.flow = (Flow.startingAt begun).takeAll limits inputs ∧
      counted.count =
        sizeSum (fun fragment => fragment.data.length) counted.flow.fragments ∧
      counted.count ≤ limits.maximumBuffered ∧
      (∀ fragment ∈ counted.flow.fragments, fragment.data ≠ [] ∧
        ∃ next, counted.flow.expected = some next ∧ Serial.compare fragment.start next = .gt) ∧
      counted.flow.expected = begun.map (Serial.advance · counted.flow.delivered) ∧
      ∀ data, ∃ turns ≤ counted.flow.fragments.length, ∃ last,
        Drains limits turns ⟨counted.flow.deliver limits data, counted.count⟩ last := by
  rcases takeAll_of (Flow.sound_startingAt limits begun) inputs with ⟨taken, sound⟩
  refine ⟨_, taken, rfl, rfl, sound.room, fun _ => sound.held, sound.placed, fun data => ?_⟩
  rcases exists_drains limits
    (((Flow.startingAt begun).takeAll limits inputs).deliver limits data) with ⟨turns, few, drains⟩
  exact ⟨turns, few, _, drains⟩

end CountedFlow

end PacketStack
