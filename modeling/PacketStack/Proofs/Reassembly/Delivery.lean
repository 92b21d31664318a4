import Mathlib.Order.Bounds.Defs
import PacketStack.Proofs.Reassembly.Progress

/-!
One direction of a connection delivers the bytes of its sender.

Main statement: `delivers_slices` says this of runs of any length, of slices in any order, lost,
repeated or overlapping. `Follows.receive` is what one segment preserves, `Follows.receiveAll` what
a run preserves.
-/

namespace PacketStack

namespace Flow

section

variable {limits : Limits} {stream : Bytes} {start : UInt32} {seen : Nat → Prop}
variable {base count : Nat} {flow : Flow} {piece : Piece}

/-- What a segment of a piece does to a direction, which has delivered `final` bytes afterwards. -/
structure Advances (limits : Limits) (stream : Bytes) (start : UInt32) (seen : Nat → Prop)
    (count : Nat) (piece : Piece) (flow : Flow) (final : Nat) (result : Flow × Bool) : Prop where
  further : count ≤ final
  follows : result.1.Follows limits.keepsPayload stream start
    (fun position => seen position ∨ piece.Covers position) final final
  reports : result.2 = true ↔ count < final
  covers : piece.Covers count → piece.stop ≤ final
  complete : flow.Complete stream start seen count count →
    ¬ flow.Drops limits piece.tcp.sequence (piece.payload stream) →
    result.1.Complete stream start (fun position => seen position ∨ piece.Covers position)
      final final

theorem Follows.ignore
    (follows : flow.Follows limits.keepsPayload stream start seen count count)
    (old : piece.length = 0 ∨ piece.stop ≤ count) :
    Advances limits stream start seen count piece flow count (flow, false) where
  further := Nat.le_refl _
  follows := follows.mono fun _ before => .inl before
  reports := by simp
  covers := by
    intro covered
    unfold Piece.Covers Piece.stop at *
    omega
  complete := by
    intro complete _ position arrived
    rcases arrived with before | ⟨first, last⟩
    · exact complete position before
    · left
      unfold Piece.stop at *
      omega

theorem Follows.receive_early
    (follows : flow.Follows limits.keepsPayload stream start seen count count)
    (fits : piece.Fits stream start) (close : piece.Close count)
    (nonempty : 0 < piece.length) (ahead : count < piece.offset) :
    Advances limits stream start seen count piece flow count
      (flow.hold limits ⟨piece.tcp.sequence, piece.payload stream⟩, false) := by
  have length := Piece.length_payload fits
  have early := fits.early close nonempty ahead
  have grown : flow.Follows limits.keepsPayload stream start
      (fun position => seen position ∨ piece.Covers position) count count :=
    follows.mono fun _ before => .inl before
  refine ⟨Nat.le_refl _, ?_, by simp, ?_, ?_⟩
  · apply grown.hold early
    intro position first last
    rw [length] at last
    exact .inr ⟨first, last⟩
  · intro holds
    rcases holds with ⟨first, _⟩
    omega
  · intro complete kept
    have room : flow.heldAt piece.tcp.sequence < (piece.payload stream).length →
        flow.buffered - flow.heldAt piece.tcp.sequence + (piece.payload stream).length ≤
          limits.maximumBuffered := by
      intro longer
      have stopAfter := Serial.isAfter_advance start close.stop
      have startAfter := Serial.isAfter_advance start close.start
      refine Nat.le_of_not_lt fun full => kept ⟨_, follows.expected, ?_, ?_, ?_, longer, full⟩
      · apply List.ne_nil_of_length_pos
        omega
      · rw [fits.placed, Serial.advance_advance, length]
        exact stopAfter.trans (decide_eq_true (by unfold Piece.stop; omega))
      · rw [fits.placed]
        exact startAfter.trans (decide_eq_true ahead)
    have result := complete.hold grown early room
    simp only [length] at result
    exact result

theorem Follows.receive_next
    (follows : flow.Follows limits.keepsPayload stream start seen count count)
    (fits : piece.Fits stream start) (close : piece.Close count)
    (covered : piece.Covers count) :
    ∃ final, Advances limits stream start seen count piece flow final
      ((flow.deliver limits ((piece.payload stream).drop (count - piece.offset))).drain limits,
        true) := by
  rcases covered with ⟨first, last⟩
  have inside := fits.inside
  have near := close.stop.1
  have rest : (piece.payload stream).drop (count - piece.offset) =
      stream.window count (piece.stop - count) := by
    rw [Piece.payload, Bytes.drop_window]
    unfold Piece.stop
    congr 1 <;> omega
  have stop : count + (piece.stop - count) = piece.stop := by omega
  have grown : flow.Follows limits.keepsPayload stream start
      (fun position => seen position ∨ piece.Covers position) count count :=
    follows.mono fun _ before => .inl before
  have delivered := grown.deliver (piece.stop - count) (by omega) (by omega)
    fun position lower upper => .inr ⟨by omega, by omega⟩
  rw [stop] at delivered
  rcases delivered.drain with ⟨final, further, result, ahead, complete⟩
  rw [rest]
  refine ⟨final, by omega, result.rebase ahead, ?_, fun _ => further, ?_⟩
  · simp only [true_iff]
    omega
  · intro before _
    apply Complete.rebase _ result.grown ahead
    apply complete
    intro position arrived
    rcases arrived with old | ⟨_, covered⟩
    · rcases before position old with early | held
      · left
        omega
      · exact .inr held
    · exact .inl covered

theorem overlap_advance (start : UInt32) {offset count : Nat} (near : Serial.Near offset count)
    (due : offset ≤ count) :
    overlap (Serial.advance start count) (Serial.advance start offset) = count - offset := by
  unfold Serial.Near at near
  rw [overlap, Serial.isBefore_advance start near]
  by_cases behind : offset < count
  · rw [if_pos (by simpa using behind)]
    exact Serial.toNat_distance_advance start due (by omega)
  · rw [if_neg (by simpa using behind)]
    omega

theorem Follows.receive
    (follows : flow.Follows limits.keepsPayload stream start seen count count)
    (fits : piece.Fits stream start) (close : piece.Close count) :
    ∃ final, Advances limits stream start seen count piece flow final
      (flow.receive limits piece.tcp.sequence (piece.payload stream)) := by
  have length := Piece.length_payload fits
  have empty : (piece.payload stream).isEmpty = decide (piece.length = 0) := by
    rw [← length, Bool.eq_iff_iff, List.isEmpty_iff_length_eq_zero, decide_eq_true_eq]
  have stopAfter := Serial.isAfter_advance start close.stop
  have startAfter := Serial.isAfter_advance start close.start
  have stop : Serial.advance piece.tcp.sequence (piece.payload stream).length =
      Serial.advance start piece.stop := by
    rw [fits.placed, Serial.advance_advance, length, Piece.stop]
  unfold Flow.receive
  simp only [follows.expected, stop, empty, stopAfter]
  by_cases old : piece.length = 0 ∨ piece.stop ≤ count
  · rw [if_pos (by simpa using old)]
    exact ⟨count, follows.ignore old⟩
  · rw [if_neg (by simpa using old)]
    by_cases ahead : count < piece.offset
    · rw [if_pos (by rw [fits.placed, startAfter]; exact decide_eq_true ahead)]
      exact ⟨count, follows.receive_early fits close (by omega) ahead⟩
    · rw [if_neg (by rw [fits.placed, startAfter]; simpa using ahead), fits.placed,
        overlap_advance start close.start (by omega)]
      exact follows.receive_next fits close ⟨by omega, by omega⟩

theorem Follows.markFinish {place : UInt32} {size : Nat} {keeps : Bool}
    (follows : flow.Follows keeps stream start seen base count) :
    (flow.markFinish place size).Follows keeps stream start seen base count :=
  ⟨follows.inside, follows.grown, follows.recent, follows.delivered, follows.expected,
    follows.payload, follows.arrived, follows.early⟩

theorem Advances.of_receive {final : Nat}
    (advances : Advances limits stream start seen count piece flow final
      (flow.receive limits piece.tcp.sequence (piece.payload stream))) :
    Advances limits stream start seen count piece flow final
      (piece.receive limits stream flow) := by
  unfold Piece.receive Connection.receive
  simp only
  split
  · exact ⟨advances.further, advances.follows.markFinish, advances.reports, advances.covers,
      advances.complete⟩
  · exact advances

theorem Follows.receiveAll {pieces : List Piece}
    (follows : flow.Follows limits.keepsPayload stream start seen count count)
    (orderly : Piece.Orderly limits stream start pieces flow) :
    ∃ final, (Piece.receiveAll limits stream pieces flow).Follows limits.keepsPayload stream start
        (fun position => seen position ∨ Piece.AnyCovers pieces position) final final ∧
      (flow.Complete stream start seen count count → Piece.AllKept limits stream pieces flow →
        (Piece.receiveAll limits stream pieces flow).Complete stream start
          (fun position => seen position ∨ Piece.AnyCovers pieces position) final final) := by
  induction pieces generalizing flow seen count with
  | nil =>
      simp only [Piece.receiveAll, Piece.AnyCovers, List.not_mem_nil, false_and, exists_false,
        or_false]
      exact ⟨count, follows, fun complete _ => complete⟩
  | cons piece rest ih =>
      rcases orderly with ⟨fits, close, others⟩
      rw [follows.delivered] at close
      rcases follows.receive fits close with ⟨middle, received⟩
      have advances := received.of_receive
      rcases ih advances.follows others with ⟨final, result, complete⟩
      have union : (fun position => (seen position ∨ piece.Covers position) ∨
          Piece.AnyCovers rest position) =
          fun position => seen position ∨ Piece.AnyCovers (piece :: rest) position := by
        funext position
        simp [Piece.AnyCovers, or_assoc]
      rw [union] at result complete
      refine ⟨final, result, ?_⟩
      intro before kept
      exact complete (advances.complete before kept.1) kept.2

end

end Flow

/-- A direction delivers a first part of the bytes of its sender, whatever segments it receives. The
next segment moves it to the end of a piece that covers the first missing byte, and tells of new
bytes just if there are any. Where no segment was dropped, nothing that could be delivered is
missing. -/
theorem delivers_slices (limits : Flow.Limits) (stream : Bytes) (start : UInt32)
    (pieces : List Piece)
    (orderly : Piece.Orderly limits stream start pieces (Flow.empty.begin start)) :
    let flow := Piece.receiveAll limits stream pieces (Flow.empty.begin start)
    ∃ count ≤ stream.length,
      flow.delivered = count ∧
      flow.expected = some (Serial.advance start count) ∧
      (limits.keepsPayload = true → flow.payload = stream.take count) ∧
      (∀ piece : Piece, piece.Fits stream start → piece.Close count →
        let result := piece.receive limits stream flow
        count ≤ result.1.delivered ∧
          (piece.Covers count → piece.stop ≤ result.1.delivered) ∧
          (result.2 = true ↔ count < result.1.delivered)) ∧
      (Piece.AllKept limits stream pieces (Flow.empty.begin start) →
        IsGreatest {size | size ≤ stream.length ∧
          ∀ position < size, Piece.AnyCovers pieces position} count) := by
  intro flow
  obtain ⟨count, follows, complete⟩ :=
    (Flow.follows_begin limits.keepsPayload stream start).receiveAll orderly
  simp only [false_or] at follows complete
  refine ⟨count, follows.inside, follows.delivered, follows.expected, follows.payload, ?_, ?_⟩
  · intro piece fits close
    rcases follows.receive fits close with ⟨final, received⟩
    have advances := received.of_receive
    have delivered := advances.follows.delivered
    simp only
    rw [delivered]
    exact ⟨advances.further, advances.covers, advances.reports⟩
  · intro kept
    have all := complete (by intro position none; exact none.elim) kept
    refine ⟨⟨follows.inside, follows.arrived⟩, ?_⟩
    rintro size ⟨_, covered⟩
    apply Nat.le_of_not_lt
    intro more
    rcases all count (covered count more) with before | ⟨fragment, _, offset, early, first, _⟩
    · omega
    · have ahead := early.ahead
      omega

/-- The last three bytes of the numbers before zero and the first ones after it, where the first
segment comes early and another one is lost. -/
def wrappingPieces : List Piece :=
  [⟨{ (default : Tcp) with sequence := 0 }, 2, 2⟩,
    ⟨{ (default : Tcp) with sequence := 0xfffffffe }, 0, 3⟩,
    ⟨{ (default : Tcp) with sequence := 3 }, 5, 1⟩]

theorem delivers_slices_over_zero :
    Piece.Orderly ⟨8, true⟩ [10, 11, 12, 13, 14, 15] 0xfffffffe wrappingPieces
        (Flow.empty.begin 0xfffffffe) ∧
      ∃ count ≤ 6,
        (Piece.receiveAll ⟨8, true⟩ [10, 11, 12, 13, 14, 15] wrappingPieces
          (Flow.empty.begin 0xfffffffe)).delivered = count ∧
        (Piece.receiveAll ⟨8, true⟩ [10, 11, 12, 13, 14, 15] wrappingPieces
          (Flow.empty.begin 0xfffffffe)).payload = [10, 11, 12, 13, 14, 15].take count := by
  have orderly : Piece.Orderly ⟨8, true⟩ [10, 11, 12, 13, 14, 15] 0xfffffffe wrappingPieces
      (Flow.empty.begin 0xfffffffe) :=
    ⟨⟨by decide, by decide⟩, ⟨by decide, by decide⟩, ⟨by decide, by decide⟩,
      ⟨by decide, by decide⟩, ⟨by decide, by decide⟩, ⟨by decide +kernel, by decide +kernel⟩,
      trivial⟩
  rcases delivers_slices _ _ _ _ orderly with ⟨count, inside, delivered, _, payload, _⟩
  exact ⟨orderly, count, inside, delivered, payload rfl⟩

end PacketStack
