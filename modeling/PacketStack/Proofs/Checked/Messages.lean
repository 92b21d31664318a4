import PacketStack.Checked.Messages
import PacketStack.Layer
import PacketStack.Proofs.Checked.Access

/-!
The readings of tagged options and of messages meet no fault, and their checked readings give the
same.
-/

namespace PacketStack

open Outcome (Safe)

theorem OptionList.parseChecked_eq (format : OptionFormat) (bytes : Bytes) :
    parseChecked format bytes = .ok (parse format bytes) := by
  fun_induction parse format bytes with
  | case1 => rw [parseChecked]
  | case2 tag rest bare last =>
      unfold parseChecked
      rw [if_pos bare, if_pos last]
  | case3 tag rest bare last ih =>
      unfold parseChecked
      rw [if_pos bare, if_neg last, ih]
      rfl
  | case4 tag bare =>
      unfold parseChecked
      rw [if_neg bare]
  | case5 tag bare length values value whole ih =>
      have enough : length.toNat ≤ values.length := by
        rw [← whole, List.length_take]
        exact Nat.min_le_right _ _
      have same : Bytes.window values 0 (length.toNat - 0) = value := rfl
      unfold parseChecked
      rw [if_neg bare]
      simp only [if_neg (Nat.not_lt.mpr enough), Bytes.range_eq (Nat.zero_le _) enough, same,
        Bytes.rest_eq enough, ih, Outcome.ok_bind]
      rfl
  | case6 tag bare length values value short =>
      have few : values.length < length.toNat := by
        rw [List.length_take] at short
        omega
      unfold parseChecked
      rw [if_neg bare]
      simp only [if_pos few]

theorem Dhcp.safe_decode (bytes : Bytes) : Safe (decodeChecked bytes) (decode bytes) := by
  apply Safe.sized
  intro large
  simp (disch := decide) only [HeaderField.fetch_eq large, Bytes.rest_eq large,
    OptionList.parseChecked_eq, Outcome.ok_bind]
  apply Safe.demanded
  intro _
  exact Safe.ok _

namespace DnsReader

variable {α β : Type} {message : Bytes}

/-- What was read of a message without a fault, with a place that is not behind its end. -/
structure Inside (message : Bytes) (outcome : Outcome (α × Nat)) : Prop where
  faultless : outcome.Faultless
  stop_le : ∀ value stop, outcome = .ok (value, stop) → stop ≤ message.length

theorem inside_ok {stop : Nat} (value : α) (inside : stop ≤ message.length) :
    Inside message (.ok (value, stop)) := by
  refine ⟨Outcome.faultless_ok _, ?_⟩
  intro other place same
  cases same
  exact inside

theorem inside_malformed (cause : Malformation) :
    Inside message (.malformed cause : Outcome (α × Nat)) :=
  ⟨Outcome.faultless_malformed cause, nofun⟩

theorem Inside.bind {first : Outcome (α × Nat)} {next : α × Nat → Outcome (β × Nat)}
    (inside : Inside message first)
    (rest : ∀ value stop, stop ≤ message.length → Inside message (next (value, stop))) :
    Inside message (first >>= next) := by
  cases first with
  | error failure => exact ⟨inside.faultless.error, nofun⟩
  | ok read => exact rest read.1 read.2 (inside.stop_le read.1 read.2 rfl)

theorem inside_readLabels (message : Bytes) (offset size pointers : Nat) :
    Inside message (DnsName.readLabels message offset size pointers) := by
  -- On the labels and pointers that are followed: wherever they lead, the name ends where the part
  -- of it does that stands at the offset.
  fun_induction DnsName.readLabels message offset size pointers with
  | case1 => exact inside_malformed _
  | case2 offset size pointers there =>
      have reach := (List.getElem?_eq_some_iff.mp there).1
      exact inside_ok _ reach
  | case3 => exact inside_malformed _
  | case4 => exact inside_malformed _
  | case5 =>
      rename_i ih
      exact ih.bind fun labels stop inside => inside_ok _ inside
  | case6 => exact inside_malformed _
  | case7 => exact inside_malformed _
  | case8 => exact inside_malformed _
  | case9 offset size pointers length there more long pointer low behind few target valid ih =>
      have reach := (List.getElem?_eq_some_iff.mp behind).1
      exact ih.bind fun labels stop _ => inside_ok _ reach
  | case10 => exact inside_malformed _

theorem inside_readName (message : Bytes) (offset : Nat) :
    Inside message (DnsName.read message offset) :=
  (inside_readLabels message offset 0 0).bind fun _ _ inside => inside_ok _ inside

def Within (reader : DnsReader α) : Prop :=
  ∀ message offset, offset ≤ message.length → Inside message (reader message offset)

theorem within_pure (value : α) : Within (pure value) := fun _ _ inside => inside_ok value inside

theorem within_refuse (cause : Malformation) : Within (refuse cause : DnsReader α) :=
  fun _ _ _ => inside_malformed cause

theorem within_get : Within (get : DnsReader Nat) := fun _ _ inside => inside_ok _ inside

theorem run_bind (reader : DnsReader α) (next : α → DnsReader β) (message : Bytes) (offset : Nat) :
    (reader >>= next) message offset =
      (reader message offset >>= fun read => next read.1 message read.2) := rfl

theorem Within.bind {reader : DnsReader α} {next : α → DnsReader β} (first : Within reader)
    (rest : ∀ value, Within (next value)) : Within (reader >>= next) := by
  intro message offset inside
  rw [run_bind]
  exact (first message offset inside).bind fun value stop reach => rest value message stop reach

theorem take_eq (size : Nat) (message : Bytes) (offset : Nat) : take size message offset =
    match message.range? offset (offset + size) with
    | none => .malformed (.dnsTruncated offset)
    | some bytes => .ok (bytes, offset + size) := by
  change (match message.range? offset (offset + size) with
    | none => refuse (.dnsTruncated offset)
    | some bytes => do
        set (offset + size)
        return bytes : DnsReader Bytes) message offset = _
  cases message.range? offset (offset + size) <;> rfl

theorem within_take (size : Nat) : Within (take size) := by
  intro message offset _
  rw [take_eq, Bytes.range?]
  by_cases room : offset ≤ offset + size ∧ offset + size ≤ message.length
  · rw [if_pos room]
    exact inside_ok _ room.2
  · rw [if_neg room]
    exact inside_malformed _

theorem within_number (size : Nat) : Within (number size) :=
  (within_take size).bind fun _ => within_pure _

theorem nameAt_eq (place : Nat) (message : Bytes) (offset : Nat) : nameAt place message offset =
    (DnsName.read message place).map fun found => (found, offset) := by
  have whole : (read : DnsReader Bytes) message offset = .ok (message, offset) := rfl
  rw [nameAt, run_bind, whole, Outcome.ok_bind]
  cases DnsName.read message place <;> rfl

theorem within_nameAt (place : Nat) : Within (nameAt place) := by
  intro message offset inside
  have sound := (inside_readName message place).faultless
  rw [nameAt_eq]
  cases known : DnsName.read message place with
  | error failure =>
      rw [known] at sound
      exact ⟨sound.error, nofun⟩
  | ok found => exact inside_ok found inside

theorem name_eq (message : Bytes) (offset : Nat) :
    name message offset = DnsName.read message offset := by
  change (nameAt offset message offset >>= fun read => .ok (read.1.1, read.1.2)) = _
  rw [nameAt_eq]
  cases DnsName.read message offset <;> rfl

theorem within_name : Within name := by
  intro message offset _
  rw [name_eq]
  exact inside_readName message offset

theorem within_query : Within query := by
  apply within_name.bind
  intro name
  apply (within_number 2).bind
  intro type
  apply (within_number 2).bind
  intro queryClass
  exact within_pure _

theorem within_data (type : RecordType) (offset : Nat) (bytes : Bytes) :
    Within (data type offset bytes) := by
  unfold data
  split
  · exact within_pure _
  · split
    · exact within_pure _
    · split
      · exact within_get.bind fun _ => within_refuse _
      · split
        · exact (within_nameAt offset).bind fun _ => within_pure _
        · split
          · exact (within_nameAt (offset + 2)).bind fun _ => within_pure _
          · exact within_pure _

theorem within_record : Within record := by
  apply within_name.bind
  intro name
  apply (within_number 2).bind
  intro type
  apply (within_number 2).bind
  intro recordClass
  apply (within_number 4).bind
  intro ttl
  apply (within_number 2).bind
  intro length
  apply within_get.bind
  intro offset
  apply (within_take length).bind
  intro bytes
  exact (within_data _ offset bytes).bind fun _ => within_pure _

theorem within_many {item : DnsReader α} (each : Within item) (count : Nat) :
    Within (many item count) := by
  induction count with
  | zero => exact within_pure _
  | succ count ih =>
      apply each.bind
      intro first
      exact ih.bind fun _ => within_pure _

theorem numberChecked_eq (size : Nat) : numberChecked size = number size := by
  funext message offset
  rw [numberChecked, number, run_bind, run_bind, take_eq, Bytes.range?]
  by_cases room : offset ≤ offset + size ∧ offset + size ≤ message.length
  · have length : (message.window offset (offset + size - offset)).length = size := by
      rw [Bytes.length_window]
      omega
    rw [if_pos room]
    simp only [Outcome.ok_bind]
    rw [lift, Bytes.big_all length]
    rfl
  · rw [if_neg room]
    rfl

theorem queryChecked_eq : queryChecked = query := by rw [queryChecked, query, numberChecked_eq]

theorem dataChecked_eq (type : RecordType) (offset : Nat) (bytes : Bytes) :
    dataChecked type offset bytes = data type offset bytes := by
  unfold dataChecked data
  by_cases v4 : type = .a ∧ bytes.length = 4
  · rw [if_pos v4, if_pos v4, Bytes.big_all v4.2]
    rfl
  · rw [if_neg v4, if_neg v4]
    by_cases v6 : type = .aaaa ∧ bytes.length = 16
    · rw [if_pos v6, if_pos v6, Bytes.exactly, if_pos v6.2]
      rfl
    · rw [if_neg v6, if_neg v6]
      by_cases exchange : type = .mx ∧ 3 ≤ bytes.length
      · rw [if_pos exchange, if_pos exchange, Bytes.big_eq (by omega)]
        rfl
      · rw [if_neg exchange, if_neg exchange]

theorem recordChecked_eq : recordChecked = record := by
  simp only [recordChecked, record, numberChecked_eq, dataChecked_eq]

theorem word_eq {message : Bytes} {index : Nat} (inside : index + 2 ≤ message.length)
    (offset : Nat) :
    word index message offset = .ok (Bytes.toNatBE (message.window index 2), offset) := by
  change (message.big index 2).map (fun value => (value, offset)) = _
  rw [Bytes.big_eq inside]
  rfl

theorem number_eq {size : Nat} {message : Bytes} {offset : Nat}
    (inside : offset + size ≤ message.length) :
    number size message offset =
      .ok (Bytes.toNatBE (message.window offset size), offset + size) := by
  rw [number, run_bind, take_eq, Bytes.range?, if_pos ⟨Nat.le_add_right _ _, inside⟩,
    Nat.add_sub_cancel_left]
  rfl

end DnsReader

namespace Dns

theorem within_reader : DnsReader.Within reader := by
  unfold reader
  iterate 6
    apply (DnsReader.within_number 2).bind
    intro _
  apply (DnsReader.within_many DnsReader.within_query _).bind
  intro queries
  iterate 3
    apply (DnsReader.within_many DnsReader.within_record _).bind
    intro _
  exact DnsReader.within_pure _

theorem readerChecked_eq {message : Bytes} (large : fixedSize ≤ message.length) :
    readerChecked message fixedSize = reader message 0 := by
  have word {index : Nat} (inside : index + 2 ≤ fixedSize) (offset : Nat) :
      DnsReader.word index message offset =
        .ok (Bytes.toNatBE (message.window index 2), offset) :=
    DnsReader.word_eq (Nat.le_trans inside large) offset
  have number {offset : Nat} (inside : offset + 2 ≤ fixedSize) :
      DnsReader.number 2 message offset =
        .ok (Bytes.toNatBE (message.window offset 2), offset + 2) :=
    DnsReader.number_eq (Nat.le_trans inside large)
  unfold readerChecked reader
  simp (disch := decide) only [DnsReader.run_bind, word, number, Outcome.ok_bind,
    DnsReader.queryChecked_eq, DnsReader.recordChecked_eq]
  rfl

theorem safe_decode (bytes : Bytes) : Safe (decodeChecked bytes) (decode bytes) := by
  apply Safe.sized
  intro large
  have inside := within_reader bytes 0 (Nat.zero_le _)
  have same : (readerChecked.run bytes).run fixedSize = (reader.run bytes).run 0 :=
    readerChecked_eq large
  rw [same]
  apply Safe.bind (Safe.refl inside.faultless)
  intro read found
  apply Safe.bind (Bytes.safe_rest (inside.stop_le read.1 read.2 found))
  intro payload _
  exact Safe.ok _

end Dns

namespace RsnKey

theorem safe_decode (bytes : Bytes) : Safe (decodeChecked bytes) (decode bytes) := by
  apply Safe.sized
  intro large
  simp (disch := decide) only [HeaderField.fetch_eq large, Bytes.rest_eq large, Outcome.ok_bind,
    Bytes.range?, Nat.zero_le, true_and, Nat.sub_zero, List.length_drop]
  by_cases room : Header.keyDataLength.get bytes ≤ bytes.length - Header.size
  · rw [if_pos room, Outcome.demand, if_pos room]
    exact Safe.ok _
  · rw [if_neg room, Outcome.demand, if_neg room]
    exact Safe.refl (Outcome.faultless_malformed _)

theorem size_le_of_decode {bytes : Bytes} {key : RsnKey} (read : decode bytes = .ok key) :
    Header.size + key.keyData.length ≤ bytes.length := by
  simp only [decode, Outcome.bind_eq_ok, requireSize_eq_ok] at read
  obtain ⟨_, large, _, _, result⟩ := read
  injection result with result
  subst result
  simp only [Bytes.length_window]
  omega

end RsnKey

namespace Rc4Key

theorem safe_decode (bytes : Bytes) : Safe (decodeChecked bytes) (decode bytes) := by
  apply Safe.sized
  intro large
  simp (disch := decide) only [HeaderField.fetch_eq large, Bytes.rest_eq large, Outcome.ok_bind,
    Bytes.range?_drop large]
  exact Safe.ok _

theorem size_le_of_decode {bytes : Bytes} {key : Rc4Key} (read : decode bytes = .ok key) :
    Header.size + key.key.length ≤ bytes.length := by
  simp only [decode, Outcome.bind_eq_ok, requireSize_eq_ok] at read
  obtain ⟨_, large, result⟩ := read
  injection result with result
  subst result
  simp only [Bytes.range?]
  split
  · simp only [Option.getD_some, Bytes.length_window]
    omega
  · simpa using large

end Rc4Key

namespace Eapol

theorem safe_decodeEap (bytes : Bytes) : Safe (decodeEapChecked bytes) (decodeEap bytes) := by
  rw [decodeEapChecked, Bytes.require_eq _ (Nat.le_add_right _ _), bind_assoc]
  apply Safe.sized
  intro large
  have octet {index : Nat} (inside : index < 4) : Bytes.byteAt (bytes.window Header.size 4) index =
      .ok (Bytes.toNatBE (bytes.window (Header.size + index) 1)).toUInt8 := by
    have there : index < (bytes.window Header.size 4).length := by
      rw [Bytes.length_window]
      omega
    rw [Bytes.byteAt_eq there, Bytes.window_window inside]
  simp (disch := decide) only [pure_bind, Nat.add_sub_cancel_left, octet, Outcome.ok_bind]
  exact Safe.ok _

theorem size_le_of_decodeEap {bytes : Bytes} {eap : Eap} (read : decodeEap bytes = .ok eap) :
    Header.size + eap.size ≤ bytes.length := by
  simp only [decodeEap, Outcome.bind_eq_ok, requireSize_eq_ok] at read
  obtain ⟨_, large, result⟩ := read
  injection result with result
  cases method : eap.method with
  | none =>
      simp only [Eap.size, method]
      exact large
  | some octet =>
      have there : bytes[Header.size + 4]? = some octet := by
        rw [← result] at method
        simp only at method
        split at method
        · exact method
        · cases method
      simp only [Eap.size, method]
      exact (List.getElem?_eq_some_iff.mp there).1

theorem safe_decodeKey (bytes : Bytes) : Safe (decodeKeyChecked bytes) (decodeKey bytes) := by
  unfold decodeKeyChecked decodeKey
  cases bytes[Header.size]? with
  | none => exact Safe.refl (Outcome.faultless_malformed _)
  | some descriptor =>
      by_cases rsn : descriptor = RsnKey.robustDescriptor ∨ descriptor = RsnKey.draftDescriptor
      · simp only [if_pos rsn]
        exact (RsnKey.safe_decode bytes).map _
      · simp only [if_neg rsn]
        by_cases rc4 : descriptor = Rc4Key.descriptor
        · simp only [if_pos rc4]
          exact (Rc4Key.safe_decode bytes).map _
        · simp only [if_neg rc4]
          exact Safe.ok _

theorem safe_decodeBody (packetType : UInt8) (frame : Bytes) :
    Safe (decodeBodyChecked packetType frame) (decodeBody packetType frame) := by
  unfold decodeBodyChecked decodeBody
  generalize packetType.toNat = number
  match number with
  | 0 => exact (safe_decodeEap frame).map _
  | 1 => exact Safe.ok _
  | 2 => exact Safe.ok _
  | 3 => exact safe_decodeKey frame
  | _ + 4 => exact Safe.ok _

theorem frameSize_le_of_decodeBody {packetType : UInt8} {frame : Bytes} {body : EapolBody}
    (large : Header.size ≤ frame.length) (read : decodeBody packetType frame = .ok body) :
    body.frameSize ≤ frame.length := by
  unfold decodeBody decodeKey at read
  split at read
  · obtain ⟨eap, known, rfl⟩ := Layer.map_eq_ok.mp read
    exact size_le_of_decodeEap known
  · injection read with result
    subst result
    exact large
  · injection read with result
    subst result
    exact large
  · split at read
    · cases read
    · split at read
      · obtain ⟨key, known, rfl⟩ := Layer.map_eq_ok.mp read
        exact RsnKey.size_le_of_decode known
      · split at read
        · obtain ⟨key, known, rfl⟩ := Layer.map_eq_ok.mp read
          exact Rc4Key.size_le_of_decode known
        · injection read with result
          subst result
          exact large
  · injection read with result
    subst result
    exact large

theorem safe_decode (bytes : Bytes) : Safe (decodeChecked bytes) (decode bytes) := by
  apply Safe.sized
  intro large
  have cut : bytes.range 0 (min (Header.length.get bytes + Header.size) bytes.length) =
      .ok (bytes.take (Header.length.get bytes + Header.size)) := by
    rw [Bytes.range_front (Nat.min_le_right _ _), ← List.take_eq_take_min]
  simp (disch := decide) only [HeaderField.fetch_eq large, cut, Outcome.ok_bind]
  apply Safe.bind (safe_decodeBody _ _)
  intro body read
  have whole : Header.size ≤ (bytes.take (Header.length.get bytes + Header.size)).length := by
    rw [List.length_take]
    omega
  apply Safe.bind (Bytes.safe_rest (frameSize_le_of_decodeBody whole read))
  intro payload _
  exact Safe.ok _

end Eapol

end PacketStack
