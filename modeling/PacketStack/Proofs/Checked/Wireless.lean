import PacketStack.Checked.Wireless
import PacketStack.Proofs.Checked.Messages
import PacketStack.Proofs.Wireless.Frame

/-!
The readings of the headers of capturing radios and of 802.11 frames meet no fault, and their
checked readings give the same.
-/

namespace PacketStack

open Outcome (Safe)

namespace Reader

variable {α β : Type}

/-- A reader that meets no fault and leaves an end of what it was given. -/
structure Sound (reader : Reader α) : Prop where
  faultless : ∀ bytes, (reader.run bytes).Faultless
  suffix : ∀ {bytes value rest}, reader.Reads bytes value rest → rest <:+ bytes

theorem sound_pure (value : α) : Sound (pure value : Reader α) := by
  refine ⟨fun bytes => Outcome.faultless_ok _, ?_⟩
  intro bytes other rest read
  rcases reads_pure.mp read with ⟨_, rfl⟩
  exact List.suffix_rfl

theorem Sound.bind {reader : Reader α} {next : α → Reader β} (first : reader.Sound)
    (second : ∀ value, (next value).Sound) : (reader >>= next).Sound := by
  constructor
  · intro bytes
    rw [StateT.run_bind]
    exact (first.faultless bytes).bind fun read _ => (second read.1).faultless read.2
  · intro bytes value rest read
    rcases reads_bind.mp read with ⟨_, middle, front, back⟩
    exact ((second _).suffix back).trans (first.suffix front)

theorem sound_take (short : Nat → PacketError) (size : Nat) : (take short size).Sound := by
  constructor
  · intro bytes
    unfold take
    simp only [StateT.run_bind, StateT.run_get, pure_bind]
    by_cases few : bytes.length < size
    · rw [if_pos few]
      exact Outcome.faultless_refused _
    · rw [if_neg few]
      exact Outcome.faultless_ok _
  · intro bytes value rest read
    rw [(reads_take.mp read).2.2]
    exact List.drop_suffix _ _

end Reader

namespace RadioTap

theorem afterWordsChecked_step {header : Bytes} {offset : Nat}
    (room : offset + 4 ≤ header.length) : afterWordsChecked header offset =
      if (Bytes.toNatLE (header.window offset 4)).testBit 31 then
        afterWordsChecked header (offset + 4)
      else .ok (some (offset + 4)) := by
  have word : header.range? offset (offset + 4) = some (header.window offset 4) := by
    rw [Bytes.range?, if_pos ⟨Nat.le_add_right _ _, room⟩, Nat.add_sub_cancel_left]
  have four : (header.window offset 4).length = 4 := by
    rw [Bytes.length_window]
    omega
  rw [afterWordsChecked]
  split
  · rename_i missing
    cases word.symm.trans missing
  · rename_i there
    cases word.symm.trans there
    rw [Bytes.little_all four, Outcome.ok_bind]
    rfl

theorem afterWordsChecked_eq (header : Bytes) (offset : Nat) :
    afterWordsChecked header offset = .ok (afterWords? header offset) := by
  fun_induction afterWords? header offset with
  | case1 offset few =>
      rw [afterWordsChecked]
      split
      · rfl
      · rename_i there
        exact absurd (Bytes.stop_le_of_range? there) (Nat.not_le.mpr few)
  | case2 offset enough more ih =>
      rw [afterWordsChecked_step (Nat.not_lt.mp enough), if_pos more, ih]
  | case3 offset enough last =>
      rw [afterWordsChecked_step (Nat.not_lt.mp enough), if_neg last]

theorem alignChecked_eq {alignment : Nat} (positive : 0 < alignment) (offset : Nat) :
    alignChecked alignment offset = .ok (align alignment offset) := if_pos positive

theorem locateChecked_eq {layout : List (Nat × Nat)} (aligned : ∀ entry ∈ layout, 0 < entry.2)
    (present bit index offset : Nat) :
    locateChecked present bit index offset layout =
      .ok (locate present bit index offset layout) := by
  induction layout generalizing index offset with
  | nil => rfl
  | cons entry rest ih =>
      rcases entry with ⟨size, alignment⟩
      have step : alignChecked alignment offset = .ok (align alignment offset) :=
        alignChecked_eq (aligned _ List.mem_cons_self) offset
      have others (index offset : Nat) : locateChecked present bit index offset rest =
          .ok (locate present bit index offset rest) :=
        ih (fun entry member => aligned entry (List.mem_cons_of_mem _ member)) index offset
      rw [locateChecked, locate]
      by_cases there : present.testBit index = true
      · rw [if_pos there, if_pos there, step, Outcome.ok_bind]
        by_cases here : index = bit
        · rw [if_pos here, if_pos here]
          rfl
        · rw [if_neg here, if_neg here, others]
      · rw [if_neg there, if_neg there, others]

theorem size_of_locate {present bit index offset start size : Nat} {layout : List (Nat × Nat)}
    (found : locate present bit index offset layout = some (start, size)) :
    index ≤ bit ∧ (layout.map Prod.fst)[bit - index]? = some size := by
  induction layout generalizing index offset with
  | nil => cases found
  | cons entry rest ih =>
      have behind {offset : Nat}
          (found : locate present bit (index + 1) offset rest = some (start, size)) :
          index ≤ bit ∧ ((entry :: rest).map Prod.fst)[bit - index]? = some size := by
        rcases ih found with ⟨order, there⟩
        have place : bit - index = bit - (index + 1) + 1 := by omega
        rw [place, List.map_cons, List.getElem?_cons_succ]
        exact ⟨by omega, there⟩
      rw [locate] at found
      split at found
      · split at found
        · rename_i here
          cases found
          rw [here, Nat.sub_self]
          exact ⟨Nat.le_refl _, rfl⟩
        · exact behind found
      · exact behind found

theorem fieldChecked_eq {header : Bytes} (large : 8 ≤ header.length) (bit : Nat) :
    fieldChecked header bit = .ok (field? header bit) := by
  have aligned : ∀ entry ∈ fieldLayout, 0 < entry.2 := by decide
  have present : header.little 4 4 = .ok (presentWord header) := Bytes.little_eq large
  rw [fieldChecked, present, Outcome.ok_bind, field?, afterWordsChecked_eq, fieldsOffset?]
  by_cases there : (presentWord header).testBit bit = true
  · rw [if_pos there, if_pos there, Outcome.ok_bind]
    cases afterWords? header 4 with
    | none => rfl
    | some offset =>
        simp only [locateChecked_eq aligned, Outcome.ok_bind, Option.bind_eq_bind, Option.bind_some]
        cases locate (presentWord header) bit 0 offset fieldLayout with
        | none => rfl
        | some place => rfl
  · rw [if_neg there, if_neg there]
    rfl

theorem length_of_field? {header field : Bytes} (there : field? header flagsBit = some field) :
    field.length = 1 := by
  unfold field? at there
  split at there
  · simp only [Option.bind_eq_bind, Option.bind_eq_some_iff] at there
    rcases there with ⟨offset, _, ⟨start, size⟩, found, inside⟩
    have one : some 1 = some size := (size_of_locate found).2
    cases one
    unfold Bytes.range? at inside
    split at inside
    · cases inside
      rw [Bytes.length_window]
      omega
    · cases inside
  · cases there

theorem flagsChecked_eq (tap : RadioTap) : flagsChecked tap.header = .ok tap.flags? := by
  rw [flagsChecked, fieldChecked_eq tap.minimum_le, Outcome.ok_bind, flags?, number?]
  cases there : field? tap.header flagsBit with
  | none => rfl
  | some field =>
      rcases List.length_eq_one_iff.mp (length_of_field? there) with ⟨byte, rfl⟩
      have number : (Bytes.toNatLE [byte]).toUInt8 = byte := by simp [Bytes.toNatLE]
      rw [Option.map_some, Option.map_some, number]
      rfl

def stop (bytes : Bytes) (length : Nat) (tap : RadioTap) : Outcome Nat := do
  .demand (tap.hasFcs → length + fcsSize ≤ bytes.length) .radioTapWithoutFcs
  .demand (tap.hasFcs → ¬ tap.flags?.any (·.contains .failedFcs)) .radioTapFailedFcs
  return bytes.length - tap.trailerSize

theorem stop_bind {β : Type} (bytes : Bytes) (length : Nat) (tap : RadioTap)
    (next : Nat → Outcome β) : stop bytes length tap >>= next = (do
      .demand (tap.hasFcs → length + fcsSize ≤ bytes.length) .radioTapWithoutFcs
      .demand (tap.hasFcs → ¬ tap.flags?.any (·.contains .failedFcs)) .radioTapFailedFcs
      next (bytes.length - tap.trailerSize)) := by
  simp only [stop, bind_assoc, pure_bind]

theorem safe_stop {bytes : Bytes} {length : Nat} (inside : length ≤ bytes.length)
    (tap : RadioTap) : Safe (stopChecked bytes length tap.flags?) (stop bytes length tap) := by
  have known : tap.flags?.any (·.contains .fcs) = tap.hasFcs := rfl
  unfold stopChecked stop trailerSize
  rw [known]
  cases fcs : tap.hasFcs with
  | true =>
      have room : fcsSize ≤ bytes.length - length ↔ length + fcsSize ≤ bytes.length := by
        simp only [fcsSize]
        omega
      simp only [Outcome.minus_eq inside, Outcome.ok_bind, room, true_imp_iff, if_true]
      apply Safe.demanded
      intro behind
      apply Safe.demanded
      intro _
      rw [Outcome.minus_eq (Nat.le_trans (Nat.le_add_left _ _) behind)]
      exact Safe.ok _
  | false =>
      simp only [Outcome.demand, Bool.false_eq_true, false_imp_iff, if_true, if_false,
        Outcome.ok_bind]
      exact Safe.ok _

theorem stop_between {bytes : Bytes} {length place : Nat} {tap : RadioTap}
    (inside : length ≤ bytes.length) (known : stop bytes length tap = .ok place) :
    length ≤ place ∧ place ≤ bytes.length := by
  simp only [stop, Outcome.bind_eq_ok, Outcome.demand_eq_ok] at known
  rcases known with ⟨_, room, _, _, result⟩
  cases result
  unfold trailerSize
  split
  · rename_i fcs
    have behind := room fcs
    exact ⟨by omega, Nat.sub_le _ _⟩
  · exact ⟨inside, Nat.sub_le _ _⟩

theorem safe_decode (bytes : Bytes) : Safe (decodeChecked bytes) (decode bytes) := by
  apply Safe.sized
  intro large
  have number : bytes.little 2 2 = .ok (Bytes.toNatLE (bytes.window 2 2)) :=
    Bytes.little_eq (Nat.le_trans (by decide) large)
  obtain ⟨length, known⟩ : ∃ length, length = Bytes.toNatLE (bytes.window 2 2) := ⟨_, rfl⟩
  simp only [number, Outcome.ok_bind, ← known]
  by_cases framed : 8 ≤ length ∧ length ≤ bytes.length
  · rcases framed with ⟨minimum, inside⟩
    have size : 8 ≤ (bytes.take length).length := by
      rw [List.length_take]
      omega
    obtain ⟨tap, whole⟩ : ∃ tap : RadioTap, tap = ⟨bytes.take length, size⟩ := ⟨_, rfl⟩
    have flags : flagsChecked (bytes.take length) = .ok tap.flags? := by
      rw [whole, ← flagsChecked_eq]
    simp only [Bytes.range_front inside, flags, afterWordsChecked_eq, Outcome.ok_bind, minimum,
      inside, and_self, if_true, dif_pos, size, ← whole]
    apply Safe.demanded
    intro _
    have joined := stop_bind bytes length tap fun place => do
      let payload ← bytes.range length place
      return (⟨tap, payload, some .dot11⟩ : Decoded RadioTap)
    rw [← joined]
    apply Safe.bind (safe_stop inside tap)
    intro place found
    rcases stop_between inside found with ⟨order, reach⟩
    apply Safe.bind (Bytes.safe_range order reach)
    intro payload _
    exact Safe.ok _
  · simp only [if_neg framed, dif_neg framed]
    exact Safe.refl (Outcome.faultless_malformed _)

end RadioTap

namespace Wireless

theorem hwAddress_window {bytes : Bytes} {start : Nat} (inside : start + 6 ≤ bytes.length) :
    HwAddress.ofBytes (bytes.window start 6) =
      .ok (.ofNat (Bytes.toNatBE (bytes.window start 6))) := by
  have six : (bytes.window start 6).length = 6 := by
    rw [Bytes.length_window]
    omega
  rw [HwAddress.ofBytes, if_neg (by omega), List.take_of_length_le (Nat.le_of_eq six)]

theorem faultless_hwAddress (bytes : Bytes) : (HwAddress.ofBytes bytes).Faultless := by
  unfold HwAddress.ofBytes
  split
  · exact Outcome.faultless_refused _
  · exact Outcome.faultless_ok _

theorem SequenceHeader.safe_parse (flags : Flags) (bytes : Bytes) :
    Safe (parseChecked flags bytes) (parse flags bytes) := by
  apply Safe.sized
  intro large
  have short : 14 ≤ bytes.length := by
    unfold size at large
    split at large <;> omega
  have address {start : Nat} (inside : start + 6 ≤ bytes.length) :
      bytes.range start (start + 6) = .ok (bytes.window start 6) := by
    rw [Bytes.range_eq (Nat.le_add_right _ _) inside, Nat.add_sub_cancel_left]
  have control : bytes.little 12 2 = .ok (Bytes.toNatLE (bytes.window 12 2)) :=
    Bytes.little_eq short
  have first : bytes.range 0 6 = .ok (bytes.window 0 6) := address (by omega)
  have second : bytes.range 6 12 = .ok (bytes.window 6 6) := address (by omega)
  simp (disch := omega) only [control, first, second, hwAddress_window, Outcome.ok_bind]
  cases between : flags.isBetweenSystems with
  | false => exact Safe.ok _
  | true =>
      have whole : 20 ≤ bytes.length := by
        rw [size, if_pos between] at large
        exact large
      have fourth : bytes.range 14 20 = .ok (bytes.window 14 6) := address whole
      simp only [if_true, fourth, hwAddress_window whole, Outcome.ok_bind]
      exact Safe.ok _

theorem wordChecked_eq (part : Part) (offset : Nat) (bytes : Bytes) :
    wordChecked part offset bytes = (do
      requireSize part (offset + 2) bytes
      return (Bytes.toNatLE (bytes.window offset 2)).toUInt16) := by
  rw [wordChecked, requireSize]
  rcases Nat.lt_or_ge bytes.length (offset + 2) with short | room
  · rw [Bytes.require_missing short, if_pos short]
    rfl
  · have two : (bytes.window offset 2).length = 2 := by
      rw [Bytes.length_window]
      omega
    rw [Bytes.require_ok part (Nat.le_add_right _ _) room, if_neg (Nat.not_lt.mpr room),
      Nat.add_sub_cancel_left]
    simp only [Outcome.ok_bind, Bytes.little_all two]

namespace Control

theorem safe_parseFields (bytes : Bytes) :
    Safe (parseFieldsChecked bytes) (parseFields bytes) := by
  have same : parseFieldsChecked bytes = parseFields bytes := by
    simp only [parseFieldsChecked, parseFields, wordChecked_eq, bind_assoc, pure_bind]
  refine ⟨same, ?_⟩
  apply (faultless_hwAddress bytes).bind
  intro transmitter _
  apply Outcome.faultless_requireSize.bind
  intro _ _
  apply Outcome.faultless_requireSize.bind
  intro _ _
  exact Outcome.faultless_ok _

theorem safe_parseBlockAck (bytes : Bytes) :
    Safe (parseBlockAckChecked bytes) (do
      requireSize .dot11Control 18 bytes
      return blockAck (← parseFields bytes) (.ofBytes 8 (bytes.window 10 8))) := by
  rw [parseBlockAckChecked, Bytes.require_eq _ (by decide), bind_assoc]
  apply Safe.sized
  intro _
  exact Safe.bind (safe_parseFields bytes) fun _ _ => Safe.ok _

theorem safe_parse (subtype : UInt8) (bytes : Bytes) :
    Safe (parseChecked subtype bytes) (parse subtype bytes) := by
  have address (change : HwAddress → Control) :
      Outcome.Faultless (do return change (← HwAddress.ofBytes bytes)) :=
    (faultless_hwAddress bytes).bind fun _ _ => Outcome.faultless_ok _
  refine ⟨?_, ?_⟩
  · unfold parseChecked parse
    rewrite [(safe_parseBlockAck bytes).same, (safe_parseFields bytes).same]
    rfl
  · unfold parse
    split
    · exact (Safe.bind (safe_parseFields bytes) fun _ _ => Safe.ok _).faultless
    · exact (safe_parseBlockAck bytes).faultless
    · exact address psPoll
    · exact address rts
    · exact Outcome.faultless_ok _
    · exact Outcome.faultless_ok _
    · exact address cfEnd
    · exact address cfEndAck
    · exact Outcome.faultless_ok _

end Control

theorem Data.safe_parse (subtype : UInt8) (flags : Flags) (bytes : Bytes) :
    Safe (parseChecked subtype flags bytes) (parse subtype flags bytes) := by
  apply Safe.bind (SequenceHeader.safe_parse flags bytes)
  intro header _
  cases qos : isQos ⟨subtype, header, 0⟩ with
  | false =>
      simp only [qos]
      exact Safe.ok _
  | true =>
      simp only [qos, if_true, wordChecked_eq, bind_assoc, pure_bind]
      apply Safe.sized
      intro _
      exact Safe.ok _

namespace ManagementFields

theorem takeChecked_eq (size : Nat) : takeChecked size = take size := by
  funext bytes
  change (do
    let value ← Bytes.require bytes .managementFixed 0 size
    set (← Bytes.rest bytes size)
    return value : Reader Bytes) bytes = (do
    if bytes.length < size then Reader.refuse (.shortBuffer .managementFixed size bytes.length)
    set (bytes.drop size)
    return bytes.take size : Reader Bytes) bytes
  rcases Nat.lt_or_ge bytes.length size with short | room
  · rw [Bytes.require_missing short, if_pos short]
    rfl
  · rw [Bytes.require_ok _ (Nat.zero_le _) room, Bytes.rest_eq room, if_neg (Nat.not_lt.mpr room)]
    rfl

theorem readChecked_eq (subtype : UInt8) : readChecked subtype = read subtype := by
  have word : word16Checked = word16 := by rw [word16Checked, word16, takeChecked_eq]
  have beacon : readBeaconChecked = readBeacon := by
    rw [readBeaconChecked, readBeacon, takeChecked_eq, word]
  have answer : readAnswerChecked = readAnswer := by rw [readAnswerChecked, readAnswer, word]
  unfold readChecked read
  rewrite [word, beacon, answer, takeChecked_eq]
  rfl

theorem sound_word16 : word16.Sound :=
  (Reader.sound_take _ 2).bind fun _ => Reader.sound_pure _

theorem sound_read (subtype : UInt8) : (read subtype).Sound := by
  have beacon : readBeacon.Sound :=
    (Reader.sound_take _ 8).bind fun _ => sound_word16.bind fun _ => sound_word16.bind fun _ =>
      Reader.sound_pure _
  have answer : readAnswer.Sound :=
    sound_word16.bind fun _ => sound_word16.bind fun _ => sound_word16.bind fun _ =>
      Reader.sound_pure _
  unfold read
  split
  · exact sound_word16.bind fun _ => sound_word16.bind fun _ => Reader.sound_pure _
  · exact answer.bind fun _ => Reader.sound_pure _
  · exact sound_word16.bind fun _ => sound_word16.bind fun _ =>
      (Reader.sound_take _ 6).bind fun _ => Reader.sound_pure _
  · exact answer.bind fun _ => Reader.sound_pure _
  · exact Reader.sound_pure _
  · exact beacon.bind fun _ => Reader.sound_pure _
  · exact beacon.bind fun _ => Reader.sound_pure _
  · exact Reader.sound_pure _
  · exact sound_word16.bind fun _ => Reader.sound_pure _
  · exact sound_word16.bind fun _ => sound_word16.bind fun _ => sound_word16.bind fun _ =>
      Reader.sound_pure _
  · exact sound_word16.bind fun _ => Reader.sound_pure _
  · exact Reader.sound_pure _

theorem rest_of_reads {subtype : UInt8} {bytes rest : Bytes} {fields : ManagementFields}
    (known : (read subtype).Reads bytes fields rest) :
    fields.toBytes.length ≤ bytes.length ∧ rest = bytes.drop fields.toBytes.length := by
  have length := (complete_of_reads known).2.2
  have place : bytes.length - rest.length = fields.toBytes.length := by omega
  refine ⟨by omega, ?_⟩
  rw [← place]
  exact List.suffix_iff_eq_drop.mp ((sound_read subtype).suffix known)

end ManagementFields

theorem Management.safe_parse (subtype : UInt8) (flags : Flags) (bytes : Bytes) :
    Safe (parseChecked subtype flags bytes) (parse subtype flags bytes) := by
  apply Safe.bind (SequenceHeader.safe_parse flags bytes)
  intro header parsed
  have large := (SequenceHeader.complete_of_parse parsed).2
  simp only [Bytes.rest_eq large, Outcome.ok_bind, ManagementFields.readChecked_eq,
    OptionList.parseChecked_eq]
  apply Safe.bind (Safe.refl ((ManagementFields.sound_read subtype).faultless _))
  intro read known
  rcases read with ⟨fields, rest⟩
  rcases ManagementFields.rest_of_reads known with ⟨inside, left⟩
  rw [List.length_drop] at inside
  have reach : SequenceHeader.size flags + fields.toBytes.length ≤ bytes.length := by omega
  rw [List.drop_drop] at left
  cases options : fields.hasOptions with
  | true =>
      simp only [if_true, Bytes.rest_eq reach, Outcome.ok_bind, left]
      exact Safe.ok _
  | false =>
      have used : bytes.length - rest.length =
          SequenceHeader.size flags + fields.toBytes.length := by
        rw [left, List.length_drop]
        omega
      simp only [Bool.false_eq_true, if_false, used]
      exact Safe.ok _

namespace Frame

theorem safe_decodeBody (frameType subtype : UInt8) (flags : Flags) (bytes : Bytes) :
    Safe (decodeBodyChecked frameType subtype flags bytes)
      (decodeBody frameType subtype flags bytes) := by
  unfold decodeBodyChecked decodeBody
  generalize frameType.toNat = number
  match number with
  | 0 => exact Safe.bind (Management.safe_parse subtype flags bytes) fun _ _ => Safe.ok _
  | 1 => exact Safe.bind (Control.safe_parse subtype bytes) fun _ _ => Safe.ok _
  | 2 => exact Safe.bind (Data.safe_parse subtype flags bytes) fun _ _ => Safe.ok _
  | _ + 3 => exact Safe.ok _

theorem safe_decode (bytes : Bytes) : Safe (decodeChecked bytes) (decode bytes) := by
  apply Safe.sized
  intro large
  simp (disch := decide) only [HeaderField.fetch_eq large, Bytes.rest_eq large, Outcome.ok_bind]
  apply Safe.bind (safe_decodeBody _ _ _ _)
  intro read known
  rcases read with ⟨body, used⟩
  have inside : used ≤ (bytes.drop Header.size).length :=
    (complete_of_decodeBody known).2.2.2.2.1
  rw [List.length_drop] at inside
  apply Safe.bind (Bytes.safe_rest (by omega))
  intro payload _
  exact Safe.ok _

end Frame

end Wireless

end PacketStack
