import PacketStack.Link.RadioTap
import PacketStack.Proofs.Header.Values

/-!
Headers of capturing radios that are written and read again, with the check sequence behind the
frame.

Main statement: `decode_eq_ok` says which bytes are a header around a frame.
-/

namespace PacketStack.RadioTap

/-- A header as it can be read: it holds its own length, its words of bits come to an end, and the
check sequence of the frame behind it did not fail. -/
structure Complete (tap : RadioTap) : Prop where
  length : Bytes.toNatLE (tap.header.window 2 2) = tap.header.length
  words : (fieldsOffset? tap.header).isSome = true
  intact : tap.hasFcs = true → ¬ tap.flags?.any (·.contains .failedFcs) = true

theorem Complete.headerSize_le {tap : RadioTap} (complete : tap.Complete) :
    tap.headerSize ≤ 0xffff := by
  have minimum := tap.minimum_le
  have bound := Bytes.toNatLE_lt (tap.header.window 2 2)
  have two : (tap.header.window 2 2).length = 2 := by
    rw [Bytes.length_window]
    omega
  rw [complete.length, two, Bytes.valueCount_eq] at bound
  simp only [headerSize] at bound ⊢
  omega

def labelled (tap : RadioTap) : Bytes := tap.header.splice 2 (Bytes.ofNatLE 2 tap.headerSize)

@[simp] theorem length_labelled (tap : RadioTap) : tap.labelled.length = tap.headerSize := by
  have minimum := tap.minimum_le
  rw [labelled, Bytes.length_splice _ _ _ (by rw [Bytes.length_ofNatLE]; omega), headerSize]

theorem Complete.labelled_eq {tap : RadioTap} (complete : tap.Complete) :
    tap.labelled = tap.header := by
  have minimum := tap.minimum_le
  have two : (tap.header.window 2 2).length = 2 := by
    rw [Bytes.length_window]
    omega
  have word : Bytes.ofNatLE 2 tap.header.length = tap.header.window 2 2 := by
    have inverse := Bytes.ofNatLE_toNatLE (tap.header.window 2 2)
    rwa [two, complete.length] at inverse
  calc tap.labelled
    _ = tap.header.splice 2 (tap.header.window 2 2) := by rw [labelled, headerSize, word]
    _ = tap.header.take 4 ++ tap.header.drop 4 := by
      rw [Bytes.splice, two, ← List.append_assoc, Bytes.take_append_window]
    _ = tap.header := List.take_append_drop 4 tap.header

def check (tap : RadioTap) (body : Bytes) : Bytes := if tap.hasFcs then Crc32.bytes body else []

@[simp] theorem length_check (tap : RadioTap) (body : Bytes) :
    (tap.check body).length = tap.trailerSize := by
  unfold check trailerSize
  split
  · exact Crc32.length_bytes body
  · rfl

theorem header_over_blank (tap : RadioTap) (rest : Bytes) :
    ((headed tap.headerSize [] rest).splice 0 tap.header).splice 2
      (Bytes.ofNatLE 2 tap.headerSize) = tap.labelled ++ rest := by
  have minimum := tap.minimum_le
  have first : (headed tap.headerSize [] rest).splice 0 tap.header = tap.header ++ rest := by
    rw [Bytes.splice, List.take_zero, List.nil_append, Nat.zero_add]
    exact congrArg (tap.header ++ ·) (drop_headed tap.headerSize [] rest)
  have reach : 2 + (Bytes.ofNatLE 2 tap.headerSize).length ≤ tap.header.length := by
    rw [Bytes.length_ofNatLE]
    omega
  rw [first, labelled, Bytes.splice, Bytes.splice,
    List.take_append_of_le_length (Nat.le_trans (by decide) minimum),
    List.drop_append_of_le_length reach, List.append_assoc, List.append_assoc]

theorem turns_write {tap : RadioTap} {body bytes : Bytes} :
    tap.write.Turns (headed tap.headerSize [] (body ++ List.replicate tap.trailerSize 0)) () bytes ↔
      tap.headerSize ≤ 0xffff ∧ bytes = tap.labelled ++ (body ++ tap.check body) := by
  have minimum := tap.minimum_le
  have inside : 0 + tap.header.length ≤
      (headed tap.headerSize [] (body ++ List.replicate tap.trailerSize 0)).length := by
    rw [length_headed, headerSize]
    omega
  have reach : 2 + (Bytes.ofNatLE 2 tap.headerSize).length ≤
      ((headed tap.headerSize [] (body ++ List.replicate tap.trailerSize 0)).splice 0
        tap.header).length := by
    rw [Bytes.length_splice _ _ _ inside, length_headed, Bytes.length_ofNatLE, headerSize]
    omega
  simp only [write, Write.turns_demand_bind, Write.turns_put_bind, inside, reach, true_and,
    header_over_blank]
  apply and_congr_right
  intro _
  by_cases fcs : tap.hasFcs = true
  · have size : tap.trailerSize = fcsSize := by simp [trailerSize, fcs]
    have stop : (tap.labelled ++ (body ++ List.replicate fcsSize (0 : UInt8))).length - fcsSize =
        tap.headerSize + body.length := by
      simp only [List.length_append, length_labelled, List.length_replicate]
      omega
    have content : (tap.labelled ++ (body ++ List.replicate fcsSize (0 : UInt8))).window
        tap.headerSize (tap.headerSize + body.length - tap.headerSize) = body := by
      rw [Bytes.window, List.drop_left' (length_labelled tap), Nat.add_sub_cancel_left,
        List.take_left]
    have replaced : (tap.labelled ++ (body ++ List.replicate fcsSize (0 : UInt8))).splice
        (tap.headerSize + body.length) (Crc32.bytes body) =
          tap.labelled ++ (body ++ Crc32.bytes body) := by
      have front : (tap.labelled ++ body).length = tap.headerSize + body.length := by
        rw [List.length_append, length_labelled]
      rw [← List.append_assoc, Bytes.splice, List.take_left' front, Crc32.length_bytes,
        ← List.drop_drop, List.drop_left' front, List.append_assoc]
      simp [fcsSize]
    have room : tap.headerSize + fcsSize ≤
        (tap.labelled ++ (body ++ List.replicate fcsSize (0 : UInt8))).length := by
      simp only [List.length_append, length_labelled, List.length_replicate]
      omega
    have end_room : tap.headerSize + body.length + (Crc32.bytes body).length ≤
        (tap.labelled ++ (body ++ List.replicate fcsSize (0 : UInt8))).length := by
      simp only [List.length_append, length_labelled, List.length_replicate, Crc32.length_bytes,
        fcsSize]
      omega
    rw [size, if_pos fcs, check, if_pos fcs]
    simp only [Write.turns_reach_bind, Write.turns_frame_bind, Write.turns_put, room, true_and,
      stop, content, replaced, end_room]
  · have size : tap.trailerSize = 0 := by simp [trailerSize, fcs]
    rw [size, if_neg fcs, check, if_neg fcs, Write.turns_pure]
    simp

theorem decode_parts {tap : RadioTap} {payload check : Bytes} (complete : tap.Complete)
    (size : check.length = tap.trailerSize) :
    decode (tap.header ++ (payload ++ check)) = .ok ⟨tap, payload, some .dot11⟩ := by
  have minimum := tap.minimum_le
  have label : Bytes.toNatLE ((tap.header ++ (payload ++ check)).window 2 2) =
      tap.header.length := by
    rw [Bytes.window_append_inside _ _ _ _ (by omega), complete.length]
  have total : (tap.header ++ (payload ++ check)).length =
      tap.header.length + payload.length + tap.trailerSize := by
    rw [List.length_append, List.length_append, size]
    omega
  have usable : 8 ≤ tap.header.length ∧
      tap.header.length ≤ (tap.header ++ (payload ++ check)).length := by
    rw [total]
    omega
  have room : tap.hasFcs = true →
      tap.header.length + fcsSize ≤ (tap.header ++ (payload ++ check)).length := by
    intro fcs
    rw [total, trailerSize, if_pos fcs]
    omega
  have content : (tap.header ++ (payload ++ check)).range tap.header.length
      ((tap.header ++ (payload ++ check)).length - tap.trailerSize) = .ok payload := by
    rw [Bytes.range_eq_ok, total]
    refine ⟨by omega, by omega, ?_⟩
    rw [Bytes.window, List.drop_left,
      show tap.header.length + payload.length + tap.trailerSize - tap.trailerSize -
        tap.header.length = payload.length by omega, List.take_left]
  simp only [decode, Outcome.bind_eq_ok, requireSize_eq_ok]
  refine ⟨(), by rw [total, minimumHeader]; omega, ?_⟩
  rw [dif_pos (by rw [label]; exact usable)]
  simp only [label, List.take_left, Outcome.bind_eq_ok, Outcome.demand_eq_ok]
  exact ⟨(), complete.words, (), room, (), complete.intact, payload, content, rfl⟩

theorem decode_eq_ok {bytes : Bytes} {decoded : Decoded RadioTap} :
    decode bytes = .ok decoded ↔
      ∃ tap payload check, tap.Complete ∧ check.length = tap.trailerSize ∧
        bytes = tap.header ++ (payload ++ check) ∧ decoded = ⟨tap, payload, some .dot11⟩ := by
  constructor
  · intro read
    simp only [decode, Outcome.bind_eq_ok] at read
    rcases read with ⟨_, _, read⟩
    split at read
    · rename_i size
      simp only [Outcome.bind_eq_ok, Outcome.demand_eq_ok, Bytes.range_eq_ok] at read
      rcases read with ⟨_, words, _, room, _, intact, payload, ⟨order, inside, rfl⟩, result⟩
      cases result
      have length : (bytes.take (Bytes.toNatLE (bytes.window 2 2))).length =
          Bytes.toNatLE (bytes.window 2 2) := by
        rw [List.length_take]
        omega
      obtain ⟨tap, tap_eq⟩ : ∃ tap : RadioTap, tap =
          ⟨bytes.take (Bytes.toNatLE (bytes.window 2 2)), by rw [length]; exact size.1⟩ := ⟨_, rfl⟩
      have header : tap.header = bytes.take (Bytes.toNatLE (bytes.window 2 2)) := by rw [tap_eq]
      rw [← tap_eq] at room intact order inside ⊢
      have trailer : Bytes.toNatLE (bytes.window 2 2) + tap.trailerSize ≤ bytes.length := by
        unfold trailerSize
        split
        · rename_i fcs
          exact room fcs
        · exact size.2
      refine ⟨tap, _, bytes.drop (bytes.length - tap.trailerSize), ⟨?_, ?_, intact⟩, ?_, ?_, rfl⟩
      · rw [header, length, Bytes.window_take _ _ _ _ (by omega)]
      · rwa [header]
      · rw [List.length_drop]
        omega
      · have start : bytes.length - tap.trailerSize = Bytes.toNatLE (bytes.window 2 2) +
            (bytes.length - tap.trailerSize - Bytes.toNatLE (bytes.window 2 2)) := by omega
        rw [header, ← List.append_assoc, Bytes.take_append_window, ← start,
          List.take_append_drop]
    · cases read
  · intro holds
    rcases holds with ⟨tap, payload, check, complete, size, rfl, rfl⟩
    exact decode_parts complete size

end PacketStack.RadioTap
