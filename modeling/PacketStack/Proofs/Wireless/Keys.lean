import PacketStack.Wireless.Eapol
import PacketStack.Proofs.Header.Values

/-!
Key descriptors and authentication messages that are written and read again inside of the frame of
802.1X authentication that holds them.
-/

namespace PacketStack

namespace RsnKey

def values (key : RsnKey) : List (HeaderField × Nat) :=
  [(Header.descriptorType, key.descriptorType.toNat), (Header.info, key.info.bits.toNat),
    (Header.keyLength, key.keyLength.toNat), (Header.replayCounter, key.replayCounter.toNat),
    (Header.nonce, key.nonce.toNat), (Header.iv, key.iv.toNat),
    (Header.sequenceCounter, key.sequenceCounter.toNat), (Header.id, key.id.toNat),
    (Header.mic, key.mic.toNat), (Header.keyDataLength, key.keyData.length)]

/-- A key of one of the two descriptors which are read, with data of a length that fits. -/
structure Complete (key : RsnKey) : Prop where
  known : key.descriptorType = robustDescriptor ∨ key.descriptorType = draftDescriptor
  small : key.keyData.length ≤ 0xffff

theorem turns_write {key : RsnKey} {front : List (HeaderField × Nat)} {body bytes : Bytes} :
    key.write.Turns (headed Header.size front
        (List.replicate key.keyData.length 0 ++ body)) () bytes ↔
      key.keyData.length ≤ 0xffff ∧
        bytes = headed Header.size (front ++ key.values) (key.keyData ++ body) := by
  have inside : key.keyData.length ≤
      (List.replicate key.keyData.length (0 : UInt8) ++ body).length := by
    rw [List.length_append, List.length_replicate]
    omega
  have rest : (List.replicate key.keyData.length (0 : UInt8) ++ body).drop key.keyData.length =
      body := List.drop_left' List.length_replicate
  have reach : ∀ values, Header.size + key.keyData.length ≤ (headed Header.size values
      (List.replicate key.keyData.length 0 ++ body)).length := by
    intro values
    rw [length_headed]
    omega
  unfold write
  simp (disch := decide) only [Write.turns_demand_bind, Write.turns_require_headed,
    Write.turns_store_headed, Write.turns_put, splice_headed, reach, true_and, rest]
  simp only [List.append_assoc, List.cons_append, List.nil_append]
  exact Iff.rfl

def ofBytes (bytes : Bytes) : RsnKey where
  descriptorType := (Header.descriptorType.get bytes).toUInt8
  info := ⟨(Header.info.get bytes).toUInt16⟩
  keyLength := (Header.keyLength.get bytes).toUInt16
  replayCounter := (Header.replayCounter.get bytes).toUInt64
  nonce := .ofNat 32 (Header.nonce.get bytes)
  iv := .ofNat 16 (Header.iv.get bytes)
  sequenceCounter := .ofNat 8 (Header.sequenceCounter.get bytes)
  id := .ofNat 8 (Header.id.get bytes)
  mic := .ofNat 16 (Header.mic.get bytes)
  keyData := bytes.window Header.size (Header.keyDataLength.get bytes)

theorem decode_eq_ok {bytes : Bytes} {key : RsnKey} :
    decode bytes = .ok key ↔
      Header.size + Header.keyDataLength.get bytes ≤ bytes.length ∧ key = ofBytes bytes := by
  simp only [decode, requireSize_bind_eq_ok, Outcome.demand_bind_eq_ok, Outcome.pure_eq_ok]
  constructor
  · rintro ⟨large, length, rfl⟩
    exact ⟨by omega, rfl⟩
  · rintro ⟨large, rfl⟩
    exact ⟨by omega, by omega, rfl⟩

theorem decode_headed {key : RsnKey} {front : List (HeaderField × Nat)} {body : Bytes}
    (small : key.keyData.length ≤ 0xffff)
    (fit : Fit Header.size ((front ++ key.values).map Prod.fst)) :
    decode (headed Header.size (front ++ key.values) (key.keyData ++ body)) = .ok key := by
  obtain ⟨bytes, equal⟩ : ∃ bytes,
    bytes = headed Header.size (front ++ key.values) (key.keyData ++ body) := ⟨_, rfl⟩
  have value {field : HeaderField} {value : Nat} (present : (field, value) ∈ key.values) :
      field.get bytes = value % 2 ^ field.width := by
    rw [equal]
    exact get_headed fit (List.mem_append_right _ present) _
  have descriptorType : Header.descriptorType.get bytes = key.descriptorType.toNat % 2 ^ 8 :=
    value (by simp [values])
  have info : Header.info.get bytes = key.info.bits.toNat % 2 ^ 16 := value (by simp [values])
  have keyLength : Header.keyLength.get bytes = key.keyLength.toNat % 2 ^ 16 :=
    value (by simp [values])
  have replayCounter : Header.replayCounter.get bytes = key.replayCounter.toNat % 2 ^ 64 :=
    value (by simp [values])
  have nonce : Header.nonce.get bytes = key.nonce.toNat % 2 ^ 256 := value (by simp [values])
  have iv : Header.iv.get bytes = key.iv.toNat % 2 ^ 128 := value (by simp [values])
  have sequenceCounter : Header.sequenceCounter.get bytes =
      key.sequenceCounter.toNat % 2 ^ 64 := value (by simp [values])
  have id : Header.id.get bytes = key.id.toNat % 2 ^ 64 := value (by simp [values])
  have mic : Header.mic.get bytes = key.mic.toNat % 2 ^ 128 := value (by simp [values])
  have keyDataLength : Header.keyDataLength.get bytes = key.keyData.length := by
    have cut : Header.keyDataLength.get bytes = key.keyData.length % 2 ^ 16 :=
      value (by simp [values])
    rw [cut, Nat.mod_eq_of_lt (by omega)]
  have keyData : bytes.window Header.size key.keyData.length = key.keyData := by
    rw [equal, Bytes.window, drop_headed, List.take_left]
  have read : ofBytes bytes = key := by
    simp only [ofBytes, descriptorType, info, keyLength, replayCounter, nonce, iv,
      sequenceCounter, id, mic, keyDataLength, keyData, key.nonce.ofNat_mod 256 rfl,
      key.iv.ofNat_mod 128 rfl, key.sequenceCounter.ofNat_mod 64 rfl,
      key.id.ofNat_mod 64 rfl, key.mic.ofNat_mod 128 rfl, toUInt8_mod,
      toUInt16_mod, toUInt64_mod]
  rw [← equal, decode_eq_ok, read, keyDataLength]
  refine ⟨?_, rfl⟩
  rw [equal, length_headed, List.length_append]
  omega

end RsnKey

namespace Rc4Key

def values (key : Rc4Key) : List (HeaderField × Nat) :=
  [(Header.descriptorType, descriptor.toNat),
    (Header.keyLength, if key.key.isEmpty then key.keyLength.toNat else key.key.length),
    (Header.replayCounter, key.replayCounter.toNat), (Header.iv, key.iv.toNat),
    (Header.isUnicast, key.isUnicast.toNat), (Header.index, key.index.toNat),
    (Header.signature, key.signature.toNat)]

/-- A key whose length is the one set on the descriptor, unless it is missing. -/
structure Complete (key : Rc4Key) : Prop where
  length : key.key ≠ [] → key.keyLength.toNat = key.key.length
  index : key.index.toNat < 2 ^ 7

def Accepts (key : Rc4Key) (body : Bytes) : Prop :=
  key.key = [] → key.keyLength.toNat = 0 ∨ body.length < key.keyLength.toNat

theorem turns_write {key : Rc4Key} {front : List (HeaderField × Nat)} {body bytes : Bytes} :
    key.write.Turns (headed Header.size front (List.replicate key.key.length 0 ++ body)) () bytes ↔
      bytes = headed Header.size (front ++ key.values) (key.key ++ body) := by
  have rest : (List.replicate key.key.length (0 : UInt8) ++ body).drop key.key.length = body :=
    List.drop_left' List.length_replicate
  have reach : ∀ values, Header.size + key.key.length ≤ (headed Header.size values
      (List.replicate key.key.length 0 ++ body)).length := by
    intro values
    rw [length_headed, List.length_append, List.length_replicate]
    omega
  unfold write
  simp (disch := decide) only [Write.turns_store_headed, Write.turns_put, splice_headed, reach,
    true_and, rest]
  simp only [List.append_assoc, List.cons_append, List.nil_append]
  exact Iff.rfl

def ofBytes (bytes : Bytes) : Rc4Key where
  keyLength := (Header.keyLength.get bytes).toUInt16
  replayCounter := (Header.replayCounter.get bytes).toUInt64
  iv := .ofNat 16 (Header.iv.get bytes)
  index := (Header.index.get bytes).toUInt8
  isUnicast := Header.isUnicast.get bytes = 1
  signature := .ofNat 16 (Header.signature.get bytes)
  key := (bytes.range? Header.size (Header.size + Header.keyLength.get bytes)).getD []

theorem decode_eq_ok {bytes : Bytes} {key : Rc4Key} :
    decode bytes = .ok key ↔ Header.size ≤ bytes.length ∧ key = ofBytes bytes := by
  simp only [decode, requireSize_bind_eq_ok, Outcome.pure_eq_ok]
  exact Iff.rfl

theorem keyLength_get_headed {key : Rc4Key} (complete : key.Complete)
    {front : List (HeaderField × Nat)} (body : Bytes)
    (fit : Fit Header.size ((front ++ key.values).map Prod.fst)) :
    Header.keyLength.get (headed Header.size (front ++ key.values) body) =
      key.keyLength.toNat := by
  have bound := key.keyLength.toNat_lt
  have cut : Header.keyLength.get (headed Header.size (front ++ key.values) body) =
      (if key.key.isEmpty then key.keyLength.toNat else key.key.length) % 2 ^ 16 :=
    get_headed fit (by simp [values]) _
  by_cases empty : key.key = []
  · rw [cut, empty]
    exact Nat.mod_eq_of_lt bound
  · have full : key.key.isEmpty = false := by simp [empty]
    rw [cut, full, ← complete.length empty]
    exact Nat.mod_eq_of_lt bound

theorem decode_headed {key : Rc4Key} {front : List (HeaderField × Nat)} {body : Bytes}
    (complete : key.Complete) (accepts : key.Accepts body)
    (fit : Fit Header.size ((front ++ key.values).map Prod.fst)) :
    decode (headed Header.size (front ++ key.values) (key.key ++ body)) = .ok key := by
  have keyLength := keyLength_get_headed complete (key.key ++ body) fit
  obtain ⟨bytes, equal⟩ : ∃ bytes,
    bytes = headed Header.size (front ++ key.values) (key.key ++ body) := ⟨_, rfl⟩
  rw [← equal] at keyLength ⊢
  have value {field : HeaderField} {value : Nat} (present : (field, value) ∈ key.values) :
      field.get bytes = value % 2 ^ field.width := by
    rw [equal]
    exact get_headed fit (List.mem_append_right _ present) _
  have replayCounter : Header.replayCounter.get bytes = key.replayCounter.toNat % 2 ^ 64 :=
    value (by simp [values])
  have iv : Header.iv.get bytes = key.iv.toNat % 2 ^ 128 := value (by simp [values])
  have isUnicast : Header.isUnicast.get bytes = key.isUnicast.toNat % 2 ^ 1 :=
    value (by simp [values])
  have index : Header.index.get bytes = key.index.toNat := by
    have cut : Header.index.get bytes = key.index.toNat % 2 ^ 7 := value (by simp [values])
    rw [cut, Nat.mod_eq_of_lt complete.index]
  have signature : Header.signature.get bytes = key.signature.toNat % 2 ^ 128 :=
    value (by simp [values])
  have unicast : decide (key.isUnicast.toNat % 2 ^ 1 = 1) = key.isUnicast := by
    cases key.isUnicast <;> rfl
  have length : bytes.length = Header.size + (key.key.length + body.length) := by
    rw [equal, length_headed, List.length_append]
  have found : (bytes.range? Header.size (Header.size + key.keyLength.toNat)).getD [] =
      key.key := by
    unfold Bytes.range?
    by_cases empty : key.key = []
    · rcases accepts empty with none | missing
      · rw [if_pos (by omega), none]
        simp [Bytes.window, empty]
      · rw [if_neg (by rw [length, empty, List.length_nil]; omega)]
        exact empty.symm
    · rw [if_pos (by rw [complete.length empty]; omega), complete.length empty,
        Nat.add_sub_cancel_left, equal, Bytes.window, drop_headed, List.take_left]
      rfl
  have read : ofBytes bytes = key := by
    simp only [ofBytes, keyLength, replayCounter, iv, isUnicast, index, signature, unicast, found,
      key.iv.ofNat_mod 128 rfl, key.signature.ofNat_mod 128 rfl,
      toUInt64_mod]
    rw [Nat.toUInt8_eq, Nat.toUInt16_eq, UInt8.ofNat_toNat, UInt16.ofNat_toNat]
  rw [decode_eq_ok, read]
  exact ⟨by omega, rfl⟩

theorem complete_ofBytes {bytes : Bytes} (large : Header.size ≤ bytes.length) :
    (ofBytes bytes).Complete ∧
      (ofBytes bytes).Accepts (bytes.drop (Header.size + (ofBytes bytes).key.length)) := by
  have bound : Header.keyLength.get bytes < 2 ^ 16 := Span.get_lt _ _ (by decide)
  have word : (ofBytes bytes).keyLength.toNat = Header.keyLength.get bytes := by
    have cut : (ofBytes bytes).keyLength.toNat = Header.keyLength.get bytes % 2 ^ 16 :=
      UInt16.toNat_ofNat'
    rw [cut, Nat.mod_eq_of_lt bound]
  have small : (ofBytes bytes).index.toNat < 2 ^ 7 := by
    have limit : Header.index.get bytes < 2 ^ 7 := Span.get_lt _ _ (by decide)
    have cut : (ofBytes bytes).index.toNat = Header.index.get bytes % 2 ^ 8 :=
      UInt8.toNat_ofNat'
    rw [cut]
    omega
  have key : (ofBytes bytes).key =
      (bytes.range? Header.size (Header.size + Header.keyLength.get bytes)).getD [] := rfl
  unfold Bytes.range? at key
  split at key
  · rename_i inside
    have length : (ofBytes bytes).key.length = Header.keyLength.get bytes := by
      rw [key, Option.getD_some, Bytes.length_window]
      omega
    refine ⟨⟨fun _ => word.trans length.symm, small⟩, fun empty => Or.inl ?_⟩
    rw [word, ← length, empty, List.length_nil]
  · rename_i outside
    rw [Option.getD_none] at key
    refine ⟨⟨fun full => absurd key full, small⟩, fun _ => Or.inr ?_⟩
    rw [word, key, List.length_drop, List.length_nil]
    omega

end Rc4Key

end PacketStack
