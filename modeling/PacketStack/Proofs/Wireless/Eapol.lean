import PacketStack.Layer
import PacketStack.Proofs.Wireless.Keys

/-!
Frames of 802.1X authentication that are written and read again, also where bytes stand behind
them.

Main statements: `decode_written` reads a written frame back, `complete_of_decode` says that what
was read can be written so.
-/

namespace PacketStack

namespace Eap

def toBytes (eap : Eap) (length : Nat) : Bytes :=
  eap.code :: eap.id :: (Bytes.ofNatBE 2 length ++ eap.method.toList)

theorem length_toBytes (eap : Eap) (length : Nat) : (eap.toBytes length).length = eap.size := by
  rcases eap with ⟨code, id, method⟩
  cases method <;> simp [toBytes, size]

def Complete (eap : Eap) : Prop := eap.method.isSome = true → eap.code = 1 ∨ eap.code = 2

def Accepts (eap : Eap) (body : Bytes) : Prop :=
  eap.method = none → eap.code = 1 ∨ eap.code = 2 → body = []

theorem turns_write {eap : Eap} {length : Nat} {front : List (HeaderField × Nat)}
    {body bytes : Bytes} :
    (Eapol.writeEap eap length).Turns (headed Eapol.Header.size front
        (List.replicate eap.size 0 ++ body)) () bytes ↔
      bytes = headed Eapol.Header.size front (eap.toBytes length ++ body) := by
  rcases eap with ⟨code, id, method⟩
  obtain ⟨high, low, word⟩ : ∃ high low, Bytes.ofNatBE 2 length = [high, low] := ⟨_, _, rfl⟩
  have first := splice_headed Eapol.Header.size front
  have behind := fun offset => splice_headed_behind Eapol.Header.size offset front
  unfold Eapol.writeEap
  cases method with
  | none =>
      simp only [Write.turns_put_bind, Write.turns_pure, first, behind, word, length_headed, size,
        toBytes]
      simp [Bytes.splice, Eapol.Header.size, List.replicate_succ]
      constructor
      · intro turned
        exact turned.2.2.2
      · intro equal
        exact ⟨by omega, by omega, by omega, equal⟩
  | some method =>
      simp only [Write.turns_put_bind, Write.turns_put, first, behind, word, length_headed, size,
        toBytes]
      simp [Bytes.splice, Eapol.Header.size, List.replicate_succ]
      constructor
      · intro turned
        exact turned.2.2.2.2
      · intro equal
        exact ⟨by omega, by omega, by omega, by omega, equal⟩

end Eap

namespace EapolBody

def fixedSize : EapolBody → Nat
  | .rc4Key _ => Rc4Key.Header.size
  | .rsnKey _ => RsnKey.Header.size
  | .start | .logoff | .other _ | .eap _ => Eapol.Header.size

def values : EapolBody → List (HeaderField × Nat)
  | .rc4Key key => key.values
  | .rsnKey key => key.values
  | .start | .logoff | .other _ | .eap _ => []

def content (length : Nat) : EapolBody → Bytes
  | .eap message => message.toBytes length
  | .rc4Key key => key.key
  | .rsnKey key => key.keyData
  | .start | .logoff | .other _ => []

theorem frameSize_eq (body : EapolBody) (length : Nat) :
    body.frameSize = body.fixedSize + (body.content length).length := by
  cases body with
  | eap message => rw [frameSize, fixedSize, content, Eap.length_toBytes]
  | _ => rfl

def Complete : EapolBody → Prop
  | .eap message => message.Complete
  | .rc4Key key => key.Complete
  | .rsnKey key => key.Complete
  | .other packetType => 3 ≤ packetType.toNat
  | .start | .logoff => True

def Accepts (body : EapolBody) (rest : Bytes) : Prop :=
  match body with
  | .eap message => message.Accepts rest
  | .rc4Key key => key.Accepts rest
  | .other packetType => packetType.toNat = 3 → ∃ descriptor others, rest = descriptor :: others ∧
      descriptor ≠ RsnKey.robustDescriptor ∧ descriptor ≠ RsnKey.draftDescriptor ∧
      descriptor ≠ Rc4Key.descriptor
  | .start | .logoff | .rsnKey _ => True

end EapolBody

namespace Eapol

def values (eapol : Eapol) (length : Nat) : List (HeaderField × Nat) :=
  [(Header.version, eapol.version.toNat), (Header.packetType, eapol.body.packetType.toNat),
    (Header.length, length)]

theorem fit (eapol : Eapol) (length : Nat) :
    Fit eapol.body.fixedSize ((eapol.values length ++ eapol.body.values).map Prod.fst) := by
  rcases eapol with ⟨version, body⟩
  cases body with
  | rc4Key key =>
      change Fit Rc4Key.Header.size [Header.version, Header.packetType, Header.length,
        Rc4Key.Header.descriptorType, Rc4Key.Header.keyLength, Rc4Key.Header.replayCounter,
        Rc4Key.Header.iv, Rc4Key.Header.isUnicast, Rc4Key.Header.index, Rc4Key.Header.signature]
      decide
  | rsnKey key =>
      change Fit RsnKey.Header.size [Header.version, Header.packetType, Header.length,
        RsnKey.Header.descriptorType, RsnKey.Header.info, RsnKey.Header.keyLength,
        RsnKey.Header.replayCounter, RsnKey.Header.nonce, RsnKey.Header.iv,
        RsnKey.Header.sequenceCounter, RsnKey.Header.id, RsnKey.Header.mic,
        RsnKey.Header.keyDataLength]
      decide
  | start | logoff | other packetType | eap message =>
      change Fit Header.size [Header.version, Header.packetType, Header.length]
      decide

def written (eapol : Eapol) (body : Bytes) : Bytes :=
  let length := eapol.headerSize + body.length - Header.size
  headed eapol.body.fixedSize (eapol.values length ++ eapol.body.values)
    (eapol.body.content length ++ body)

theorem length_written (eapol : Eapol) (body : Bytes) :
    (eapol.written body).length = eapol.headerSize + body.length := by
  have size := eapol.body.frameSize_eq (eapol.headerSize + body.length - Header.size)
  rw [written, length_headed, List.length_append, ← Nat.add_assoc, ← size, headerSize]

theorem size_le_headerSize (eapol : Eapol) : Header.size ≤ eapol.headerSize := by
  rcases eapol with ⟨version, body⟩
  cases body <;> simp only [headerSize, EapolBody.frameSize, Header.size, Rc4Key.Header.size,
    RsnKey.Header.size] <;> omega

theorem turns_write {eapol : Eapol} {body bytes : Bytes} :
    eapol.write.Turns (headed eapol.headerSize [] body) () bytes ↔
      eapol.headerSize + body.length ≤ 0xffff + Header.size ∧ bytes = eapol.written body := by
  have four : Header.size = 4 := rfl
  have least := eapol.size_le_headerSize
  obtain ⟨length, length_eq⟩ : ∃ length, length = eapol.headerSize + body.length - Header.size :=
    ⟨_, rfl⟩
  have total : (headed eapol.headerSize [] body).length - Header.size = length := by
    rw [length_headed, length_eq]
  have reach : Header.size ≤ (headed eapol.headerSize [] body).length := by
    rw [length_headed]
    omega
  have limit : length ≤ 0xffff ↔ eapol.headerSize + body.length ≤ 0xffff + Header.size := by
    omega
  have blank : headed eapol.headerSize [] body = headed eapol.body.fixedSize []
      (List.replicate (eapol.body.content length).length 0 ++ body) := by
    rw [headerSize, EapolBody.frameSize_eq _ length, headed_split]
  unfold write
  simp only [Write.turns_reach_bind, Write.turns_frame_bind, Write.turns_demand_bind, total, reach,
    true_and, limit]
  apply and_congr_right
  intro small
  rw [blank, written, ← length_eq]
  rcases eapol with ⟨version, content⟩
  cases content with
  | start | logoff | other packetType =>
      simp (disch := decide) only [EapolBody.fixedSize, EapolBody.content, EapolBody.values,
        Write.turns_store_headed, Write.turns_pure, List.nil_append, List.append_nil,
        List.cons_append, List.length_nil, List.replicate_zero, true_and]
      exact Iff.rfl
  | eap message =>
      simp (disch := decide) only [EapolBody.fixedSize, EapolBody.content, EapolBody.values,
        Write.turns_store_headed, Eap.length_toBytes, Eap.turns_write, List.nil_append,
        List.append_nil, List.cons_append]
      exact Iff.rfl
  | rc4Key key =>
      simp (disch := decide) only [EapolBody.fixedSize, EapolBody.content, EapolBody.values,
        Write.turns_store_headed, Rc4Key.turns_write, List.nil_append, List.cons_append]
      exact Iff.rfl
  | rsnKey key =>
      have short : key.keyData.length ≤ 0xffff := by
        simp only [headerSize, EapolBody.frameSize, RsnKey.Header.size] at small
        omega
      simp (disch := decide) only [EapolBody.fixedSize, EapolBody.content, EapolBody.values,
        Write.turns_store_headed, RsnKey.turns_write, List.nil_append, List.cons_append, short,
        true_and]
      exact Iff.rfl

def frame (bytes : Bytes) : Bytes := bytes.take (Header.length.get bytes + Header.size)

theorem decode_eq_ok {bytes : Bytes} {decoded : Decoded Eapol} :
    decode bytes = .ok decoded ↔
      Header.size ≤ bytes.length ∧ ∃ body,
        decodeBody (Header.packetType.get bytes).toUInt8 (frame bytes) = .ok body ∧
          body.frameSize ≤ (frame bytes).length ∧
          decoded = ⟨⟨(Header.version.get bytes).toUInt8, body⟩,
            (frame bytes).drop body.frameSize, none⟩ := by
  simp only [decode, Outcome.bind_eq_ok, requireSize_eq_ok, Bytes.rest_eq_ok]
  constructor
  · intro holds
    rcases holds with ⟨_, large, body, read, payload, ⟨inside, rfl⟩, result⟩
    cases result
    exact ⟨large, body, read, inside, rfl⟩
  · intro holds
    rcases holds with ⟨large, body, read, inside, rfl⟩
    exact ⟨(), large, body, read, _, ⟨inside, rfl⟩, rfl⟩

theorem decodeEap_headed {message : Eap} {length : Nat} {front : List (HeaderField × Nat)}
    {rest : Bytes} (complete : message.Complete) (accepts : message.Accepts rest) :
    decodeEap (headed Header.size front (message.toBytes length ++ rest)) = .ok message := by
  rcases message with ⟨code, id, method⟩
  obtain ⟨high, low, word⟩ : ∃ high low, Bytes.ofNatBE 2 length = [high, low] := ⟨_, _, rfl⟩
  have shape : (Eap.mk code id method).toBytes length ++ rest =
      code :: id :: high :: low :: (method.toList ++ rest) := by
    rw [Eap.toBytes, word]
    rfl
  have number (byte : UInt8) : (Bytes.toNatBE [byte]).toUInt8 = byte := by
    simp [Bytes.toNatBE, Bytes.toNatLE]
  have first : (headed Header.size front (code :: id :: high :: low :: (method.toList ++
      rest))).window Header.size 1 = [code] := by
    rw [Bytes.window, drop_headed]
    rfl
  have second : (headed Header.size front (code :: id :: high :: low :: (method.toList ++
      rest))).window (Header.size + 1) 1 = [id] := by
    rw [window_headed]
    rfl
  have fifth : (headed Header.size front (code :: id :: high :: low :: (method.toList ++
      rest)))[Header.size + 4]? = (method.toList ++ rest)[0]? := by
    rw [getElem?_headed]
    rfl
  have large : Header.size + 4 ≤ (headed Header.size front (code :: id :: high :: low ::
      (method.toList ++ rest))).length := by
    rw [length_headed, List.length_cons, List.length_cons, List.length_cons, List.length_cons]
    omega
  have found : (if code = 1 ∨ code = 2 then (method.toList ++ rest)[0]? else none) = method := by
    cases method with
    | none =>
        split
        · rename_i kind
          rw [accepts rfl kind]
          rfl
        · rfl
    | some method =>
        rw [if_pos (complete rfl)]
        rfl
  rw [shape, decodeEap]
  simp only [Outcome.bind_eq_ok, requireSize_eq_ok, first, second, fifth, number, found]
  exact ⟨(), large, rfl⟩

theorem descriptor_of_get {bytes : Bytes} {descriptor : UInt8} (name : String)
    (large : Header.size < bytes.length)
    (stored : (HeaderField.byte name Header.size).get bytes = descriptor.toNat % 2 ^ 8) :
    bytes[Header.size]? = some descriptor := by
  have present : bytes[Header.size]? = some bytes[Header.size] := List.getElem?_eq_getElem large
  rw [HeaderField.get_byte present, Nat.mod_eq_of_lt descriptor.toNat_lt] at stored
  rw [present, UInt8.toNat.inj stored]

theorem descriptor_written {eapol : Eapol} {descriptor : UInt8} {rest : Bytes} (name : String)
    (stored : (HeaderField.byte name Header.size, descriptor.toNat) ∈ eapol.body.values) :
    (eapol.written rest)[Header.size]? = some descriptor := by
  apply descriptor_of_get name
  · rw [length_written, headerSize]
    rcases eapol with ⟨version, body⟩
    cases body with
    | rc4Key key =>
        simp only [EapolBody.frameSize, Rc4Key.Header.size, Header.size]
        omega
    | rsnKey key =>
        simp only [EapolBody.frameSize, RsnKey.Header.size, Header.size]
        omega
    | _ => cases stored
  · exact get_headed (eapol.fit _) (List.mem_append_right _ stored) _

theorem decodeBody_written {eapol : Eapol} {rest : Bytes} (complete : eapol.body.Complete)
    (accepts : eapol.body.Accepts rest) :
    decodeBody eapol.body.packetType (eapol.written rest) = .ok eapol.body := by
  rcases eapol with ⟨version, body⟩
  have fields := fun length => fit ⟨version, body⟩ length
  cases body with
  | start | logoff => rfl
  | eap message =>
      change EapolBody.eap <$> decodeEap _ = _
      rw [written]
      simp only [EapolBody.fixedSize, EapolBody.content]
      rw [decodeEap_headed complete accepts]
      rfl
  | rc4Key key =>
      change decodeKey _ = _
      have descriptor : (written ⟨version, .rc4Key key⟩ rest)[Header.size]? =
          some Rc4Key.descriptor := by
        apply descriptor_written "descriptor_type"
        simp [EapolBody.values, Rc4Key.values, Rc4Key.Header.descriptorType, Header.size]
      rw [decodeKey, descriptor]
      simp only [written, EapolBody.fixedSize, EapolBody.content, EapolBody.values]
      rw [if_neg (by decide), if_pos trivial, Rc4Key.decode_headed complete accepts (fields _)]
      rfl
  | rsnKey key =>
      change decodeKey _ = _
      have descriptor : (written ⟨version, .rsnKey key⟩ rest)[Header.size]? =
          some key.descriptorType := by
        apply descriptor_written "descriptor_type"
        simp [EapolBody.values, RsnKey.values, RsnKey.Header.descriptorType, Header.size]
      rw [decodeKey, descriptor]
      simp only [written, EapolBody.fixedSize, EapolBody.content, EapolBody.values]
      rw [if_pos complete.known, RsnKey.decode_headed complete.small (fields _)]
      rfl
  | other packetType =>
      have known : 3 ≤ packetType.toNat := complete
      by_cases key : packetType.toNat = 3
      · rcases accepts key with ⟨descriptor, others, rfl, robust, draft, older⟩
        have three : packetType = 3 := UInt8.toNat.inj key
        have present : (written ⟨version, .other packetType⟩ (descriptor :: others))[Header.size]? =
            some descriptor := by
          rw [written, ← Nat.add_zero Header.size]
          exact getElem?_headed _ _ _ _
        subst three
        change decodeKey _ = _
        rw [decodeKey, present]
        simp [robust, draft, older]
      · change decodeBody packetType _ = _
        unfold decodeBody
        split
        · omega
        · omega
        · omega
        · omega
        · rfl

theorem decode_written {eapol : Eapol} {body : Bytes} (complete : eapol.body.Complete)
    (accepts : eapol.body.Accepts body)
    (small : eapol.headerSize + body.length ≤ 0xffff + Header.size) (padding : Bytes) :
    decode (eapol.written body ++ padding) = .ok ⟨eapol, body, none⟩ := by
  have least := eapol.size_le_headerSize
  have size := eapol.length_written body
  have fields := eapol.fit (eapol.headerSize + body.length - Header.size)
  obtain ⟨bytes, equal⟩ : ∃ bytes, bytes = eapol.written body ++ padding := ⟨_, rfl⟩
  have value {field : HeaderField} {value : Nat}
      (present : (field, value) ∈ eapol.values (eapol.headerSize + body.length - Header.size)) :
      field.get bytes = value % 2 ^ field.width := by
    rw [equal, written, headed_append]
    exact get_headed fields (List.mem_append_left _ present) _
  have version : Header.version.get bytes = eapol.version.toNat % 2 ^ 8 :=
    value (by simp [values])
  have packetType : Header.packetType.get bytes = eapol.body.packetType.toNat % 2 ^ 8 :=
    value (by simp [values])
  have length : Header.length.get bytes = eapol.headerSize + body.length - Header.size := by
    have cut : Header.length.get bytes =
        (eapol.headerSize + body.length - Header.size) % 2 ^ 16 := value (by simp [values])
    rw [cut, Nat.mod_eq_of_lt (by omega)]
  have whole : frame bytes = eapol.written body := by
    rw [frame, length, equal, List.take_left' (by omega)]
  have payload : (eapol.written body).drop eapol.headerSize = body := by
    rw [headerSize, EapolBody.frameSize_eq, ← List.drop_drop, written, drop_headed, List.drop_left]
  have large : Header.size ≤ bytes.length := by
    rw [equal, List.length_append, size]
    omega
  rw [← equal, decode_eq_ok]
  refine ⟨large, eapol.body, ?_, ?_, ?_⟩
  · rw [packetType, toUInt8_mod, whole, decodeBody_written complete accepts]
  · rw [whole, size, headerSize]
    exact Nat.le_add_right _ _
  · rw [version, toUInt8_mod, whole, ← headerSize, payload]

theorem complete_of_decodeEap {bytes : Bytes} {message : Eap}
    (read : decodeEap bytes = .ok message) :
    message.Complete ∧ message.Accepts (bytes.drop (Header.size + message.size)) := by
  simp only [decodeEap, Outcome.bind_eq_ok, requireSize_eq_ok] at read
  rcases read with ⟨_, large, result⟩
  cases result
  simp only [Eap.Complete, Eap.Accepts, Eap.size]
  constructor
  · intro present
    split at present
    · assumption
    · cases present
  · intro absent kind
    rw [if_pos kind] at absent
    have short := List.getElem?_eq_none_iff.mp absent
    simp only [if_pos kind, absent, Option.isSome_none, Bool.false_eq_true, if_false]
    exact List.drop_of_length_le short

theorem complete_of_decodeKey {bytes : Bytes} {body : EapolBody}
    (read : decodeKey bytes = .ok body) :
    body.Complete ∧ body.Accepts (bytes.drop body.frameSize) := by
  cases present : bytes[Header.size]? with
  | none =>
      rw [decodeKey, present] at read
      cases read
  | some descriptor =>
      simp only [decodeKey, present] at read
      split at read
      · rename_i known
        rcases Layer.map_eq_ok.mp read with ⟨key, decoded, result⟩
        cases result
        rcases RsnKey.decode_eq_ok.mp decoded with ⟨inside, rfl⟩
        have bound : RsnKey.Header.keyDataLength.get bytes < 2 ^ 16 :=
          Span.get_lt _ _ (by decide)
        have type : (RsnKey.ofBytes bytes).descriptorType = descriptor := by
          have number : RsnKey.Header.descriptorType.get bytes = descriptor.toNat :=
            HeaderField.get_byte present
          rw [RsnKey.ofBytes, number, Nat.toUInt8_eq, UInt8.ofNat_toNat]
        have length : (RsnKey.ofBytes bytes).keyData.length ≤ 0xffff := by
          rw [RsnKey.ofBytes, Bytes.length_window]
          omega
        exact ⟨⟨by rwa [type], length⟩, trivial⟩
      · split at read
        · rcases Layer.map_eq_ok.mp read with ⟨key, decoded, result⟩
          cases result
          rcases Rc4Key.decode_eq_ok.mp decoded with ⟨large, rfl⟩
          exact Rc4Key.complete_ofBytes large
        · rename_i unknown older
          cases read
          rw [not_or] at unknown
          have inside := (List.getElem?_eq_some_iff.mp present).1
          have front : bytes.drop Header.size = descriptor :: bytes.drop (Header.size + 1) := by
            rw [List.drop_eq_getElem_cons inside, (List.getElem?_eq_some_iff.mp present).2]
          exact ⟨Nat.le_refl 3, fun _ => ⟨descriptor, _, front, unknown.1, unknown.2, older⟩⟩

theorem complete_of_decodeBody {packetType : UInt8} {bytes : Bytes} {body : EapolBody}
    (read : decodeBody packetType bytes = .ok body) :
    body.Complete ∧ body.Accepts (bytes.drop body.frameSize) := by
  unfold decodeBody at read
  split at read
  · rcases Layer.map_eq_ok.mp read with ⟨message, decoded, result⟩
    cases result
    exact complete_of_decodeEap decoded
  · cases read
    exact ⟨trivial, trivial⟩
  · cases read
    exact ⟨trivial, trivial⟩
  · exact complete_of_decodeKey read
  · rename_i notEap notStart notLogoff notKey
    cases read
    have zero : packetType.toNat ≠ 0 := notEap
    have one : packetType.toNat ≠ 1 := notStart
    have two : packetType.toNat ≠ 2 := notLogoff
    have known : 3 ≤ packetType.toNat := by omega
    exact ⟨known, fun key => absurd key notKey⟩

theorem complete_of_decode {bytes : Bytes} {decoded : Decoded Eapol}
    (read : decode bytes = .ok decoded) :
    decoded.header.body.Complete ∧ decoded.header.body.Accepts decoded.payload ∧
      decoded.next = none ∧
      decoded.header.headerSize + decoded.payload.length ≤ bytes.length := by
  rcases decode_eq_ok.mp read with ⟨large, body, parsed, inside, rfl⟩
  rcases complete_of_decodeBody parsed with ⟨complete, accepts⟩
  refine ⟨complete, accepts, rfl, ?_⟩
  have short : (frame bytes).length ≤ bytes.length := by
    rw [frame, List.length_take]
    exact Nat.min_le_right _ _
  calc body.frameSize + ((frame bytes).drop body.frameSize).length
    _ = (frame bytes).length := by rw [List.length_drop, Nat.add_sub_cancel' inside]
    _ ≤ bytes.length := short

end Eapol

end PacketStack
