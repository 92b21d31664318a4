import PacketStack.Proofs.Header.Bounds
import PacketStack.Proofs.Header.Tiling
import PacketStack.Proofs.Packet.Framing
import PacketStack.Protection.SessionKeys

/-!
The integrity codes of handshakes, which are made of the bytes that were captured.

The bytes themselves are not kept, they are written again from the values that were read of them.
`KeyFrame.Heads` says when nothing is lost in this way: every bit belongs to a field. Main
statement: `KeyFrame.code?_captured`.
-/

namespace PacketStack

theorem Octets.bytes_ofBytes_of_le {size : Nat} {bytes : Bytes} (long : size ≤ bytes.length) :
    (Octets.ofBytes size bytes).bytes = bytes.take size := by
  change bytes.take size ++ List.replicate (size - bytes.length) 0 = bytes.take size
  rw [Nat.sub_eq_zero_of_le long, List.replicate_zero, List.append_nil]

theorem Hmac.length_sha1 (key message : Bytes) : (Hmac.sha1 key message).length = 20 :=
  (Sha1.hash _).length_eq

theorem Hmac.length_md5 (key message : Bytes) : (Hmac.md5 key message).length = 16 :=
  (Md5.hash _).length_eq

theorem Octets.toNat_ofNat {size value : Nat} (small : value < 2 ^ (8 * size)) :
    (Octets.ofNat size value).toNat = value := by
  change Bytes.toNatBE (Bytes.ofNatBE size value) = value
  rw [Bytes.toNatBE_ofNatBE, Bytes.valueCount_eq, Nat.mod_eq_of_lt small]

theorem Bytes.take_splice_inside (bytes data : Bytes) {start count : Nat}
    (inside : start + data.length ≤ count) (large : count ≤ bytes.length) :
    (bytes.splice start data).take count = Bytes.splice (bytes.take count) start data := by
  have front : (bytes.take start ++ data).length = start + data.length := by
    rw [List.length_append, List.length_take]
    omega
  rw [Bytes.splice, Bytes.splice, ← List.append_assoc, ← List.append_assoc, List.take_append, front,
    List.take_of_length_le (by rwa [front]), List.take_take, Nat.min_eq_left (by omega),
    List.drop_take]

theorem HeaderField.put_octets {name : String} {offset size : Nat} {bytes : Bytes}
    (octets : Octets size) (inside : offset + size ≤ bytes.length) :
    (HeaderField.octets name offset size).put octets.toNat bytes =
      bytes.splice offset octets.bytes := by
  have reach : (HeaderField.octets name offset size).endByte ≤ bytes.length := by
    simp only [Span.endByte, HeaderField.octets, HeaderField.whole]
    omega
  have length := octets.length_eq
  apply Bytes.eq_of_bit_eq
  · rw [Span.length_put, Bytes.length_splice _ _ _ (by omega)]
  intro index _
  rw [Span.bit_put _ _ _ _ reach, Bytes.bit_splice _ _ _ _ (by omega)]
  have start : (HeaderField.octets name offset size).start = 8 * offset := rfl
  have width : (HeaderField.octets name offset size).width = 8 * size := rfl
  have number : Span.ordered (HeaderField.octets name offset size).toSpan octets.toNat =
      octets.toNat := by
    change octets.toNat % 2 ^ (8 * size) % 2 ^ (8 * size) = octets.toNat
    rw [Nat.mod_mod, Nat.mod_eq_of_lt octets.toNat_lt]
  have same : (8 * offset ≤ index ∧ index < 8 * offset + 8 * size) ↔
      (8 * offset ≤ index ∧ index < 8 * (offset + octets.bytes.length)) := by omega
  rw [start, width, number]
  simp only [same]
  split
  · rename_i within
    rw [Octets.toNat, Bytes.testBit_toNatBE, decide_eq_true (by omega), Bool.true_and]
    congr 1
    omega
  · rfl

namespace RsnKey

variable {bytes : Bytes}

theorem get_of_mem_values (large : Header.size + Header.keyDataLength.get bytes ≤ bytes.length) :
    ∀ value ∈ (ofBytes bytes).values, value.1.get bytes = value.2 := by
  have limit {field : HeaderField} (big : field.littleEndian = false) {width : Nat}
      (size : field.width = width) : field.get bytes < 2 ^ width := by
    rw [← size]
    exact Span.get_lt field.toSpan bytes fun little => nomatch big.symm.trans little
  have byte {field : HeaderField} (big : field.littleEndian = false) (width : field.width = 8) :
      field.get bytes = (field.get bytes).toUInt8.toNat :=
    (UInt8.toNat_ofNat_of_lt' (limit big width)).symm
  have word {field : HeaderField} (big : field.littleEndian = false) (width : field.width = 16) :
      field.get bytes = (field.get bytes).toUInt16.toNat :=
    (UInt16.toNat_ofNat_of_lt' (limit big width)).symm
  have octets {field : HeaderField} {size : Nat} (big : field.littleEndian = false)
      (width : field.width = 8 * size) :
      field.get bytes = (Octets.ofNat size (field.get bytes)).toNat :=
    (Octets.toNat_ofNat (limit big width)).symm
  have counter : Header.replayCounter.get bytes =
      (Header.replayCounter.get bytes).toUInt64.toNat :=
    (UInt64.toNat_ofNat_of_lt' (limit rfl rfl)).symm
  have data : Header.keyDataLength.get bytes = (ofBytes bytes).keyData.length := by
    rw [ofBytes, Bytes.length_window]
    omega
  intro value member
  simp only [values, List.mem_cons, List.not_mem_nil, or_false] at member
  rcases member with rfl | rfl | rfl | rfl | rfl | rfl | rfl | rfl | rfl | rfl
  · exact byte rfl rfl
  · exact word rfl rfl
  · exact word rfl rfl
  · exact counter
  · exact octets rfl rfl
  · exact octets rfl rfl
  · exact octets rfl rfl
  · exact octets rfl rfl
  · exact octets rfl rfl
  · exact data

theorem ofBytes_append {front : Bytes} (rest : Bytes)
    (large : Header.size + Header.keyDataLength.get front ≤ front.length) :
    ofBytes (front ++ rest) = ofBytes front := by
  have same (field : HeaderField) (inside : field.endByte ≤ Header.size) :
      field.get (front ++ rest) = field.get front := by
    apply Span.get_append
    omega
  have data : (front ++ rest).window Header.size (Header.keyDataLength.get front) =
      front.window Header.size (Header.keyDataLength.get front) :=
    Bytes.window_append_inside _ _ _ _ large
  simp (disch := decide) only [ofBytes, same Header.descriptorType, same Header.info,
    same Header.keyLength, same Header.replayCounter, same Header.nonce, same Header.iv,
    same Header.sequenceCounter, same Header.id, same Header.mic, same Header.keyDataLength, data]

theorem ofBytes_put_mic (mic : Octets 16) (large : Header.size ≤ bytes.length) :
    ofBytes (Header.mic.put mic.toNat bytes) = { ofBytes bytes with mic } := by
  have other (field : HeaderField) (apart : field.Disjoint Header.mic.toSpan)
      (inside : field.endByte ≤ Header.size) :
      field.get (Header.mic.put mic.toNat bytes) = field.get bytes :=
    Span.get_put_of_disjoint _ _ _ _ apart (Nat.le_trans inside large)
  have code : Header.mic.get (Header.mic.put mic.toNat bytes) = mic.toNat % 2 ^ 128 :=
    Span.get_put _ _ _ (by decide) (Nat.le_trans (by decide) large)
  have data (length : Nat) : (Header.mic.put mic.toNat bytes).window Header.size length =
      bytes.window Header.size length := Span.window_put_behind _ _ (by decide)
  simp (disch := decide) only [ofBytes, other Header.descriptorType, other Header.info,
    other Header.keyLength, other Header.replayCounter, other Header.nonce, other Header.iv,
    other Header.sequenceCounter, other Header.id, other Header.keyDataLength, code, data,
    mic.ofNat_mod 128 rfl]

end RsnKey

theorem Eapol.rsnKey_of_decodeBody {packetType : UInt8} {frame : Bytes} {key : RsnKey}
    (read : decodeBody packetType frame = .ok (.rsnKey key)) :
    packetType = 3 ∧ RsnKey.decode frame = .ok key := by
  unfold decodeBody at read
  split at read
  · rcases Layer.map_eq_ok.mp read with ⟨message, _, result⟩
    cases result
  · cases read
  · cases read
  · rename_i three
    refine ⟨UInt8.toNat.inj three, ?_⟩
    unfold decodeKey at read
    split at read
    · cases read
    · split at read
      · rcases Layer.map_eq_ok.mp read with ⟨found, decoded, result⟩
        cases result
        exact decoded
      · split at read
        · rcases Layer.map_eq_ok.mp read with ⟨found, _, result⟩
          cases result
        · cases read
  · cases read

namespace KeyFrame

variable {bytes : Bytes} {frame : KeyFrame}

/-- The captured bytes up to the declared end of their frame. -/
def capturedBytes (bytes : Bytes) : Bytes :=
  bytes.take (Eapol.Header.size + Eapol.Header.length.get bytes)

/-- The bytes are read as a frame which its descriptor fills up to the declared end. -/
structure Captured (bytes : Bytes) (frame : KeyFrame) : Prop where
  read : ∃ payload next, Eapol.decode bytes = .ok ⟨frame.eapol, payload, next⟩
  filled : Eapol.Header.length.get bytes = 95 + frame.key.keyData.length

def ofBytes (bytes : Bytes) : KeyFrame :=
  ⟨(Eapol.Header.version.get bytes).toUInt8, RsnKey.ofBytes bytes⟩

/-- The fields of the bytes are those of a frame which its descriptor fills. -/
structure Heads (bytes : Bytes) : Prop where
  packetType : Eapol.Header.packetType.get bytes = 3
  known : (RsnKey.ofBytes bytes).descriptorType = RsnKey.robustDescriptor ∨
    (RsnKey.ofBytes bytes).descriptorType = RsnKey.draftDescriptor
  filled : Eapol.Header.length.get bytes = 95 + RsnKey.Header.keyDataLength.get bytes
  large : RsnKey.Header.size + RsnKey.Header.keyDataLength.get bytes ≤ bytes.length

theorem Captured.heads (captured : Captured bytes frame) :
    Heads bytes ∧ frame = ofBytes bytes := by
  rcases frame with ⟨version, key⟩
  rcases captured with ⟨⟨payload, next, read⟩, filled⟩
  have complete : key.Complete := (Eapol.complete_of_decode read).1
  rcases Eapol.decode_eq_ok.mp read with ⟨four, body, parsed, inside, result⟩
  simp only [eapol, Decoded.mk.injEq, Eapol.mk.injEq] at result
  obtain ⟨⟨rfl, rfl⟩, -, -⟩ := result
  rcases Eapol.rsnKey_of_decodeBody parsed with ⟨three, decoded⟩
  rcases RsnKey.decode_eq_ok.mp decoded with ⟨large, rfl⟩
  have split : Eapol.frame bytes ++ bytes.drop (Eapol.Header.length.get bytes +
      Eapol.Header.size) = bytes := List.take_append_drop _ _
  have whole := RsnKey.ofBytes_append (bytes.drop (Eapol.Header.length.get bytes +
    Eapol.Header.size)) large
  have reach : RsnKey.Header.keyDataLength.endByte ≤ (Eapol.frame bytes).length :=
    Nat.le_trans (by decide) (Nat.le_trans (Nat.le_add_right RsnKey.Header.size _) large)
  have count := Span.get_append _ _ (bytes.drop (Eapol.Header.length.get bytes +
    Eapol.Header.size)) reach
  rw [split] at whole count
  have data : (RsnKey.ofBytes (Eapol.frame bytes)).keyData.length =
      RsnKey.Header.keyDataLength.get (Eapol.frame bytes) := by
    rw [RsnKey.ofBytes, Bytes.length_window]
    omega
  have short : (Eapol.frame bytes).length ≤ bytes.length := by
    rw [Eapol.frame, List.length_take]
    exact Nat.min_le_right _ _
  have type : Eapol.Header.packetType.get bytes = 3 := by
    have small : Eapol.Header.packetType.get bytes < 2 ^ 8 := Span.get_lt _ _ (by decide)
    rw [← UInt8.toNat_ofNat_of_lt' small]
    exact congrArg UInt8.toNat three
  refine ⟨⟨type, ?_, ?_, ?_⟩, ?_⟩
  · rw [whole]
    exact complete.known
  · rw [filled, data, count]
  · omega
  · rw [ofBytes, whole]

theorem Heads.written (heads : Heads bytes) :
    (ofBytes bytes).eapol.written [] = capturedBytes bytes := by
  have four : Eapol.Header.size = 4 := rfl
  have size : RsnKey.Header.size = 99 := rfl
  have filled := heads.filled
  have large := heads.large
  obtain ⟨captured, equal⟩ : ∃ captured, captured = capturedBytes bytes := ⟨_, rfl⟩
  have length : captured.length =
      RsnKey.Header.size + RsnKey.Header.keyDataLength.get bytes := by
    rw [equal, capturedBytes, List.length_take]
    omega
  have split : captured ++ bytes.drop (Eapol.Header.size + Eapol.Header.length.get bytes) =
      bytes := by
    rw [equal, capturedBytes, List.take_append_drop]
  have same (field : HeaderField) (inside : field.endByte ≤ RsnKey.Header.size) :
      field.get captured = field.get bytes := by
    have append := Span.get_append field.toSpan captured (bytes.drop (Eapol.Header.size +
      Eapol.Header.length.get bytes)) (by omega)
    rw [← append, split]
  have count := same RsnKey.Header.keyDataLength (by decide)
  have key := RsnKey.ofBytes_append (bytes.drop (Eapol.Header.size +
    Eapol.Header.length.get bytes)) (by rw [count, length])
  rw [split] at key
  have data : (RsnKey.ofBytes bytes).keyData = captured.drop RsnKey.Header.size := by
    rw [key, RsnKey.ofBytes, Bytes.window, List.take_of_length_le]
    rw [List.length_drop, length, count]
    omega
  have byte {field : HeaderField} (small : field.get bytes < 2 ^ 8) :
      (field.get bytes).toUInt8.toNat = field.get bytes := UInt8.toNat_ofNat_of_lt' small
  have announced : (ofBytes bytes).eapol.headerSize + ([] : Bytes).length - Eapol.Header.size =
      Eapol.Header.length.get bytes := by
    change RsnKey.Header.size + (RsnKey.ofBytes bytes).keyData.length + 0 - Eapol.Header.size = _
    rw [data, List.length_drop, length]
    omega
  have read : ∀ value ∈ (ofBytes bytes).eapol.values (Eapol.Header.length.get bytes) ++
      (RsnKey.ofBytes bytes).values, value.1.get captured = value.2 := by
    intro value member
    rcases List.mem_append.mp member with front | behind
    · simp only [Eapol.values, List.mem_cons, List.not_mem_nil, or_false] at front
      rcases front with rfl | rfl | rfl
      · rw [same Eapol.Header.version (by decide)]
        exact (byte (Span.get_lt _ _ (by decide))).symm
      · rw [same Eapol.Header.packetType (by decide), heads.packetType]
        rfl
      · exact same Eapol.Header.length (by decide)
    · rw [key] at behind
      exact RsnKey.get_of_mem_values (by rw [count, length]) value behind
  have tiles : Tiles 0 (((ofBytes bytes).eapol.values (Eapol.Header.length.get bytes) ++
      (RsnKey.ofBytes bytes).values).map Prod.fst) (8 * RsnKey.Header.size) := by
    change Tiles 0 [Eapol.Header.version, Eapol.Header.packetType, Eapol.Header.length,
      RsnKey.Header.descriptorType, RsnKey.Header.info, RsnKey.Header.keyLength,
      RsnKey.Header.replayCounter, RsnKey.Header.nonce, RsnKey.Header.iv,
      RsnKey.Header.sequenceCounter, RsnKey.Header.id, RsnKey.Header.mic,
      RsnKey.Header.keyDataLength] _
    decide
  rw [Eapol.written, announced, ← equal]
  change headed RsnKey.Header.size _ ((RsnKey.ofBytes bytes).keyData ++ []) = captured
  rw [List.append_nil, data]
  exact headed_of_get tiles (by omega) read

theorem Heads.length_keyData (heads : Heads bytes) :
    (ofBytes bytes).key.keyData.length = RsnKey.Header.keyDataLength.get bytes := by
  have large := heads.large
  change (bytes.window RsnKey.Header.size (RsnKey.Header.keyDataLength.get bytes)).length = _
  rw [Bytes.length_window]
  omega

theorem Heads.complete (heads : Heads bytes) : (ofBytes bytes).key.Complete := by
  have limit : RsnKey.Header.keyDataLength.get bytes < 2 ^ 16 := Span.get_lt _ _ (by decide)
  exact ⟨heads.known, by rw [heads.length_keyData]; omega⟩

theorem Heads.headerSize_le (heads : Heads bytes) :
    (ofBytes bytes).eapol.headerSize ≤ 0xffff + Eapol.Header.size := by
  have limit : Eapol.Header.length.get bytes < 2 ^ 16 := Span.get_lt _ _ (by decide)
  have filled := heads.filled
  change RsnKey.Header.size + (ofBytes bytes).key.keyData.length ≤ _
  rw [heads.length_keyData, RsnKey.Header.size, Eapol.Header.size]
  omega

theorem Heads.captured (heads : Heads bytes) : Captured bytes (ofBytes bytes) := by
  have complete : (ofBytes bytes).eapol.body.Complete := heads.complete
  have small : (ofBytes bytes).eapol.headerSize + ([] : Bytes).length ≤
      0xffff + Eapol.Header.size := heads.headerSize_le
  have read := Eapol.decode_written complete trivial small (bytes.drop
    (Eapol.Header.size + Eapol.Header.length.get bytes))
  rw [heads.written, capturedBytes, List.take_append_drop] at read
  exact ⟨⟨[], none, read⟩, by rw [heads.length_keyData, heads.filled]⟩

theorem Heads.serialize (heads : Heads bytes) :
    (Packet.single (.eapol (ofBytes bytes).eapol)).serialize = .ok (capturedBytes bytes) := by
  have regular : (Layer.eapol (ofBytes bytes).eapol).Regular none := heads.complete
  rw [← heads.written]
  have small := heads.headerSize_le
  exact (Packet.serialize_single_eq_ok regular small).mpr
    ⟨Nat.lt_of_le_of_lt small (by decide), rfl⟩

theorem Captured.serialize (captured : Captured bytes frame) :
    (Packet.single (.eapol frame.eapol)).serialize = .ok (capturedBytes bytes) := by
  rcases captured.heads with ⟨heads, rfl⟩
  exact heads.serialize

theorem Captured.length_le (captured : Captured bytes frame) :
    Eapol.Header.size + Eapol.Header.length.get bytes ≤ bytes.length := by
  rcases captured.heads with ⟨heads, _⟩
  have large := heads.large
  rw [heads.filled, Eapol.Header.size]
  rw [RsnKey.Header.size] at large
  omega

/-- The frame with another integrity code. -/
def withCode (mic : Octets 16) (frame : KeyFrame) : KeyFrame :=
  { frame with key := { frame.key with mic } }

theorem Captured.splice (captured : Captured bytes frame) (mic : Octets 16) :
    Captured (bytes.splice 81 mic.bytes) (frame.withCode mic) ∧
      capturedBytes (bytes.splice 81 mic.bytes) = (capturedBytes bytes).splice 81 mic.bytes := by
  rcases captured.heads with ⟨heads, rfl⟩
  have four : Eapol.Header.size = 4 := rfl
  have large : RsnKey.Header.size ≤ bytes.length := Nat.le_trans (Nat.le_add_right _ _) heads.large
  have room : 81 + 16 ≤ bytes.length := Nat.le_trans (by decide) large
  have put : RsnKey.Header.mic.put mic.toNat bytes = bytes.splice 81 mic.bytes :=
    HeaderField.put_octets mic room
  have other (field : HeaderField) (apart : field.Disjoint RsnKey.Header.mic.toSpan)
      (inside : field.endByte ≤ RsnKey.Header.size) :
      field.get (bytes.splice 81 mic.bytes) = field.get bytes := by
    rw [← put]
    exact Span.get_put_of_disjoint _ _ _ _ apart (Nat.le_trans inside large)
  have key : RsnKey.ofBytes (bytes.splice 81 mic.bytes) = { RsnKey.ofBytes bytes with mic } := by
    rw [← put]
    exact RsnKey.ofBytes_put_mic mic large
  have size : (bytes.splice 81 mic.bytes).length = bytes.length :=
    Bytes.length_splice _ _ _ (by rwa [mic.length_eq])
  have length := other Eapol.Header.length (by decide) (by decide)
  have count := other RsnKey.Header.keyDataLength (by decide) (by decide)
  have same : ofBytes (bytes.splice 81 mic.bytes) = (ofBytes bytes).withCode mic := by
    rw [ofBytes, key, other Eapol.Header.version (by decide) (by decide)]
    rfl
  have replaced : Heads (bytes.splice 81 mic.bytes) := by
    refine ⟨?_, ?_, ?_, ?_⟩
    · rw [other Eapol.Header.packetType (by decide) (by decide), heads.packetType]
    · rw [key]
      exact heads.known
    · rw [length, count, heads.filled]
    · rw [size, count]
      exact heads.large
  refine ⟨same ▸ replaced.captured, ?_⟩
  rw [capturedBytes, capturedBytes, length]
  apply Bytes.take_splice_inside
  · rw [mic.length_eq, heads.filled]
    omega
  · exact captured.length_le

/-- The code of a captured frame is the first part of a keyed digest of the captured bytes, in which
zeros stand in place of the code. So the code that was captured has no part in it: with any other
code in its place the bytes are read as the same frame and give the same. -/
theorem code?_captured (captured : Captured bytes frame) (key : Bytes) :
    let digest := if frame.key.info.descriptorVersion = 2 then Hmac.sha1 else Hmac.md5
    (Packet.single (.eapol frame.eapol)).serialize = .ok (capturedBytes bytes) ∧
      (capturedBytes bytes).length = 4 + Eapol.Header.length.get bytes ∧
      ∃ code, frame.code? key = some code ∧
        code.bytes =
          (digest key ((capturedBytes bytes).splice 81 (List.replicate 16 0))).take 16 ∧
        ∀ mic : Octets 16, Captured (bytes.splice 81 mic.bytes) (frame.withCode mic) ∧
          (frame.withCode mic).code? key = some code := by
  intro digest
  have length : (capturedBytes bytes).length = 4 + Eapol.Header.length.get bytes := by
    rw [capturedBytes, List.length_take]
    exact Nat.min_eq_left captured.length_le
  rcases captured.splice (.zero 16) with ⟨blank, zeroed⟩
  have written := blank.serialize
  rw [zeroed] at written
  have made : frame.code? key = some (.ofBytes 16
      (digest key ((capturedBytes bytes).splice 81 (List.replicate 16 0)))) := by
    change (do
      let bytes ← (Packet.single (.eapol (frame.withCode (.zero 16)).eapol)).serialize.value?
      some (Octets.ofBytes 16 (digest key bytes))) = _
    rw [written]
    rfl
  have long (message : Bytes) : 16 ≤ (digest key message).length := by
    unfold digest
    split
    · rw [Hmac.length_sha1]
      decide
    · rw [Hmac.length_md5]
  refine ⟨captured.serialize, length, _, made, ?_, fun mic => ⟨(captured.splice mic).1, made⟩⟩
  exact Octets.bytes_ofBytes_of_le (long _)

/-- A second message with two bytes of key data and three of padding. -/
def secondMessage : Bytes :=
  [1, 3, 0, 97, 2, 0x01, 0x0a, 0, 16] ++ List.replicate 72 0x5a ++ List.replicate 16 0xa5 ++
    [0, 2, 0x30, 0x14, 0, 0, 0]

theorem secondMessage_code : Captured secondMessage (ofBytes secondMessage) ∧
    ∃ code, (ofBytes secondMessage).code? [1, 2, 3] = some code ∧
      code.bytes = (Hmac.sha1 [1, 2, 3]
        ([1, 3, 0, 97, 2, 0x01, 0x0a, 0, 16] ++ List.replicate 72 0x5a ++ List.replicate 16 0 ++
          [0, 2, 0x30, 0x14])).take 16 := by
  have heads : Heads secondMessage :=
    ⟨by decide +kernel, by decide +kernel, by decide +kernel, by decide +kernel⟩
  have sha1 : (ofBytes secondMessage).key.info.descriptorVersion = 2 := by decide +kernel
  have zeroed : (capturedBytes secondMessage).splice 81 (List.replicate 16 0) =
      [1, 3, 0, 97, 2, 0x01, 0x0a, 0, 16] ++ List.replicate 72 0x5a ++ List.replicate 16 0 ++
        [0, 2, 0x30, 0x14] := by decide +kernel
  rcases code?_captured heads.captured [1, 2, 3] with ⟨_, _, code, made, value, _⟩
  rw [if_pos sha1, zeroed] at value
  exact ⟨heads.captured, code, made, value⟩

end KeyFrame

end PacketStack
