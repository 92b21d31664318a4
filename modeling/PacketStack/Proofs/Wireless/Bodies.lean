import PacketStack.Proofs.Address.Hardware
import PacketStack.Proofs.Header.Values
import PacketStack.Wireless.Control

/-!
The headers of data frames and the bodies of control frames, written and read again in front of
other bytes.
-/

namespace PacketStack

theorem Bytes.toUInt16_ofNatLE (value : UInt16) :
    (Bytes.toNatLE (Bytes.ofNatLE 2 value.toNat)).toUInt16 = value := by
  rw [Bytes.toNatLE_ofNatLE, Bytes.valueCount_eq]
  exact toUInt16_mod value

theorem Bytes.toUInt64_ofNatLE (value : UInt64) :
    (Bytes.toNatLE (Bytes.ofNatLE 8 value.toNat)).toUInt64 = value := by
  rw [Bytes.toNatLE_ofNatLE, Bytes.valueCount_eq]
  exact toUInt64_mod value

theorem HwAddress.ofBytes_eq_ok {bytes : Bytes} {address : HwAddress} :
    HwAddress.ofBytes bytes = .ok address ↔
      6 ≤ bytes.length ∧ address = HwAddress.ofNat (Bytes.toNatBE (bytes.take 6)) := by
  unfold HwAddress.ofBytes
  split
  · rename_i short
    constructor
    · intro read
      cases read
    · intro holds
      rcases holds with ⟨long, _⟩
      omega
  · rename_i long
    constructor
    · intro read
      cases read
      exact ⟨by omega, rfl⟩
    · intro holds
      rcases holds with ⟨_, rfl⟩
      rfl

theorem HwAddress.ofBytes_octets (address : HwAddress) (rest : Bytes) :
    HwAddress.ofBytes (address.octets ++ rest) = .ok address := by
  rw [HwAddress.ofBytes_eq_ok, List.take_left' address.length_octets, HwAddress.ofNat_octets,
    List.length_append, HwAddress.length_octets]
  exact ⟨Nat.le_add_right _ _, rfl⟩

namespace Wireless

namespace SequenceHeader

/-- A header whose numbers fit their bits, with a fourth address only where there is room for
one. -/
structure Complete (header : SequenceHeader) (flags : Flags) : Prop where
  fragment : header.fragment.toNat < 16
  sequence : header.sequence.toNat < 4096
  addr4 : flags.isBetweenSystems = false → header.addr4 = .zero

@[simp] theorem length_toBytes (header : SequenceHeader) (flags : Flags) :
    (header.toBytes flags).length = size flags := by
  unfold toBytes size
  split <;> simp

theorem toNat_low_bits (control : UInt16) :
    (control &&& 0x0f).toUInt8.toNat = control.toNat % 16 := by
  have number : (control &&& 0x0f).toUInt8.toNat = (control.toNat &&& 15) % 256 := by
    rw [UInt16.toNat_toUInt8, UInt16.toNat_and]
    rfl
  rw [number, Nat.and_two_pow_sub_one_eq_mod _ 4]
  omega

theorem toNat_high_bits (control : UInt16) : (control >>> 4).toNat = control.toNat / 16 := by
  rw [UInt16.toNat_shiftRight, Nat.shiftRight_eq_div_pow]
  rfl

theorem toNat_sequenceControl {header : SequenceHeader} {flags : Flags}
    (complete : header.Complete flags) :
    header.sequenceControl.toNat = 16 * header.sequence.toNat + header.fragment.toNat := by
  have fragment := complete.fragment
  have sequence := complete.sequence
  have low : header.fragment.toNat &&& 15 = header.fragment.toNat := by
    rw [Nat.and_two_pow_sub_one_eq_mod _ 4, Nat.mod_eq_of_lt fragment]
  have high : header.sequence.toNat <<< 4 % 2 ^ 16 = 2 ^ 4 * header.sequence.toNat := by
    rw [Nat.shiftLeft_eq]
    omega
  have parts : header.sequenceControl.toNat =
      header.fragment.toNat &&& 15 ||| header.sequence.toNat <<< 4 % 2 ^ 16 := by
    simp [sequenceControl]
  rw [parts, low, high, Nat.or_comm, ← Nat.two_pow_add_eq_or_of_lt (i := 4) fragment]

theorem fragment_of_sequenceControl {header : SequenceHeader} {flags : Flags}
    (complete : header.Complete flags) :
    (header.sequenceControl &&& 0x0f).toUInt8 = header.fragment := by
  have fragment := complete.fragment
  apply UInt8.toNat.inj
  rw [toNat_low_bits, toNat_sequenceControl complete]
  omega

theorem sequence_of_sequenceControl {header : SequenceHeader} {flags : Flags}
    (complete : header.Complete flags) : header.sequenceControl >>> 4 = header.sequence := by
  have fragment := complete.fragment
  apply UInt16.toNat.inj
  rw [toNat_high_bits, toNat_sequenceControl complete]
  omega

theorem parse_toBytes {header : SequenceHeader} {flags : Flags}
    (complete : header.Complete flags) (rest : Bytes) :
    parse flags (header.toBytes flags ++ rest) = .ok header := by
  obtain ⟨tail, tail_eq⟩ : ∃ tail, tail =
    (if flags.isBetweenSystems = true then header.addr4.octets else []) ++ rest := ⟨_, rfl⟩
  have shape : header.toBytes flags ++ rest = header.addr2.octets ++ (header.addr3.octets ++
      (Bytes.ofNatLE 2 header.sequenceControl.toNat ++ tail)) := by
    rw [tail_eq, toBytes]
    simp only [List.append_assoc]
  have large : size flags ≤ (header.toBytes flags ++ rest).length := by
    rw [List.length_append, length_toBytes]
    exact Nat.le_add_right _ _
  have second : (header.toBytes flags ++ rest).window 0 6 = header.addr2.octets := by
    rw [shape, Bytes.window_append_left _ _ _ (HwAddress.length_octets _)]
  have third : (header.toBytes flags ++ rest).window 6 6 = header.addr3.octets := by
    rw [shape, Bytes.window_append_right _ _ _ _ (by simp), HwAddress.length_octets,
      Bytes.window_append_left _ _ _ (HwAddress.length_octets _)]
  have control : (header.toBytes flags ++ rest).window 12 2 =
      Bytes.ofNatLE 2 header.sequenceControl.toNat := by
    rw [shape, Bytes.window_append_right _ _ _ _ (by simp),
      Bytes.window_append_right _ _ _ _ (by simp), HwAddress.length_octets,
      HwAddress.length_octets, Bytes.window_append_left _ _ _ (Bytes.length_ofNatLE _ _)]
  have fourth : (if flags.isBetweenSystems = true then
      HwAddress.ofNat (Bytes.toNatBE ((header.toBytes flags ++ rest).window 14 6))
      else .zero) = header.addr4 := by
    cases between : flags.isBetweenSystems with
    | false => exact (complete.addr4 between).symm
    | true =>
        rw [between, if_pos rfl] at tail_eq
        rw [if_pos rfl, shape, Bytes.window_append_right _ _ _ _ (by simp),
          Bytes.window_append_right _ _ _ _ (by simp), HwAddress.length_octets,
          HwAddress.length_octets, Bytes.window_append_right _ _ _ _ (by simp),
          Bytes.length_ofNatLE, tail_eq,
          Bytes.window_append_left _ _ _ (HwAddress.length_octets _), HwAddress.ofNat_octets]
  simp only [parse, Outcome.bind_eq_ok, requireSize_eq_ok, second, third, control, fourth,
    HwAddress.ofNat_octets, Bytes.toUInt16_ofNatLE, fragment_of_sequenceControl complete,
    sequence_of_sequenceControl complete]
  exact ⟨(), large, rfl⟩

theorem complete_of_parse {flags : Flags} {bytes : Bytes} {header : SequenceHeader}
    (read : parse flags bytes = .ok header) :
    header.Complete flags ∧ size flags ≤ bytes.length := by
  simp only [parse, Outcome.bind_eq_ok, requireSize_eq_ok] at read
  rcases read with ⟨_, large, result⟩
  cases result
  refine ⟨⟨?_, ?_, fun apart => by simp [apart]⟩, large⟩
  · rw [toNat_low_bits]
    omega
  · have bound := (Bytes.toNatLE (bytes.window 12 2)).toUInt16.toNat_lt
    rw [toNat_high_bits]
    omega

end SequenceHeader

namespace Data

/-- A header with a quality of service only where its subtype has room for it. -/
structure Complete (data : Data) (flags : Flags) : Prop where
  header : data.header.Complete flags
  qosControl : data.isQos = false → data.qosControl = 0

theorem parse_toBytes {data : Data} {flags : Flags} (complete : data.Complete flags)
    (rest : Bytes) : parse data.subtype flags (data.toBytes flags ++ rest) = .ok data := by
  rcases data with ⟨subtype, header, qosControl⟩
  have first : header.Complete flags := complete.header
  have same : isQos ⟨subtype, header, 0⟩ = isQos ⟨subtype, header, qosControl⟩ := rfl
  rw [toBytes, List.append_assoc]
  cases service : isQos ⟨subtype, header, qosControl⟩ with
  | false =>
      have zero : qosControl = 0 := complete.qosControl service
      subst zero
      have absent : ¬ isQos ⟨subtype, header, 0⟩ = true := by simp [service]
      rw [parse, if_neg (by simp), List.nil_append, SequenceHeader.parse_toBytes first]
      exact if_neg absent
  | true =>
      have front := header.length_toBytes flags
      have word : (header.toBytes flags ++ (Bytes.ofNatLE 2 qosControl.toNat ++ rest)).window
          (SequenceHeader.size flags) 2 = Bytes.ofNatLE 2 qosControl.toNat := by
        rw [Bytes.window, List.drop_left' front, List.take_left' (Bytes.length_ofNatLE _ _)]
      have large : SequenceHeader.size flags + 2 ≤
          (header.toBytes flags ++ (Bytes.ofNatLE 2 qosControl.toNat ++ rest)).length := by
        simp only [List.length_append, front, Bytes.length_ofNatLE]
        omega
      have required : requireSize .dot11Data (SequenceHeader.size flags + 2)
          (header.toBytes flags ++ (Bytes.ofNatLE 2 qosControl.toNat ++ rest)) = .ok () :=
        requireSize_eq_ok.mpr large
      rw [parse, if_pos rfl, SequenceHeader.parse_toBytes first]
      refine (if_pos (same.trans service)).trans ?_
      simp only [required, word, Bytes.toUInt16_ofNatLE]
      rfl

theorem complete_of_parse {subtype : UInt8} {flags : Flags} {bytes : Bytes} {data : Data}
    (read : parse subtype flags bytes = .ok data) :
    data.Complete flags ∧ data.subtype = subtype ∧
      (data.toBytes flags).length ≤ bytes.length := by
  simp only [parse, Outcome.bind_eq_ok] at read
  rcases read with ⟨header, parsed, read⟩
  rcases SequenceHeader.complete_of_parse parsed with ⟨first, large⟩
  split at read
  · rename_i service
    rcases Outcome.bind_eq_ok.mp read with ⟨_, room, result⟩
    cases result
    refine ⟨⟨first, fun plain => ?_⟩, rfl, ?_⟩
    · have same : isQos ⟨subtype, header, 0⟩ = false := plain
      rw [same] at service
      cases service
    · have size := requireSize_eq_ok.mp room
      have used : isQos ⟨subtype, header,
        (Bytes.toNatLE (bytes.window (SequenceHeader.size flags) 2)).toUInt16⟩ = true := service
      rw [toBytes, used, if_pos rfl, List.length_append, SequenceHeader.length_toBytes,
        Bytes.length_ofNatLE]
      exact size
  · rename_i service
    cases read
    refine ⟨⟨first, fun _ => rfl⟩, rfl, ?_⟩
    rw [toBytes, if_neg service, List.append_nil, SequenceHeader.length_toBytes]
    exact large

end Data

namespace Control

def Complete : Control → Prop
  | .other subtype => subtype.toNat < 8 ∨ 16 ≤ subtype.toNat
  | _ => True

theorem parseFields_toBytes (fields : BlockAckFields) (rest : Bytes) :
    parseFields (toBytes.blockAckBytes fields ++ rest) = .ok fields := by
  have shape : toBytes.blockAckBytes fields ++ rest = fields.transmitter.octets ++
      (Bytes.ofNatLE 2 fields.control.toNat ++
        (Bytes.ofNatLE 2 fields.startSequence.toNat ++ rest)) := by
    simp only [toBytes.blockAckBytes, List.append_assoc]
  have control : (toBytes.blockAckBytes fields ++ rest).window 6 2 =
      Bytes.ofNatLE 2 fields.control.toNat := by
    rw [shape, Bytes.window_append_right _ _ _ _ (by simp), HwAddress.length_octets,
      Bytes.window_append_left _ _ _ (Bytes.length_ofNatLE _ _)]
  have start : (toBytes.blockAckBytes fields ++ rest).window 8 2 =
      Bytes.ofNatLE 2 fields.startSequence.toNat := by
    rw [shape, Bytes.window_append_right _ _ _ _ (by simp), HwAddress.length_octets,
      Bytes.window_append_right _ _ _ _ (by simp), Bytes.length_ofNatLE,
      Bytes.window_append_left _ _ _ (Bytes.length_ofNatLE _ _)]
  have large : 10 ≤ (toBytes.blockAckBytes fields ++ rest).length := by
    simp only [shape, List.length_append, HwAddress.length_octets, Bytes.length_ofNatLE]
    omega
  have transmitter : HwAddress.ofBytes (toBytes.blockAckBytes fields ++ rest) =
      .ok fields.transmitter := by
    rw [shape, HwAddress.ofBytes_octets]
  simp only [parseFields, Outcome.bind_eq_ok, transmitter, requireSize_eq_ok, control, start,
    Bytes.toUInt16_ofNatLE]
  exact ⟨_, rfl, (), by omega, (), large, rfl⟩

theorem length_of_parseFields {bytes : Bytes} {fields : BlockAckFields}
    (read : parseFields bytes = .ok fields) : 10 ≤ bytes.length := by
  simp only [parseFields, Outcome.bind_eq_ok, requireSize_eq_ok] at read
  rcases read with ⟨_, _, _, _, _, large, _⟩
  exact large

@[simp] theorem length_blockAckBytes (fields : BlockAckFields) :
    (toBytes.blockAckBytes fields).length = 10 := by
  simp [toBytes.blockAckBytes]

theorem parse_toBytes {control : Control} (complete : control.Complete) (rest : Bytes) :
    parse control.subtype (control.toBytes ++ rest) = .ok control := by
  cases control with
  | rts transmitter | psPoll transmitter | cfEnd transmitter | cfEndAck transmitter =>
      simp only [parse, subtype, toBytes, UInt8.reduceToNat, HwAddress.ofBytes_octets]
      rfl
  | cts | ack => rfl
  | blockAckRequest fields =>
      simp only [parse, subtype, toBytes, UInt8.reduceToNat, parseFields_toBytes]
      rfl
  | blockAck fields bitmap =>
      have bits : (toBytes.blockAckBytes fields ++ (bitmap.bytes ++ rest)).window 10 8 =
          bitmap.bytes := by
        rw [Bytes.window_append_right _ _ _ _ (by simp), length_blockAckBytes,
          Bytes.window_append_left _ _ _ bitmap.length_eq]
      have large : 18 ≤ (toBytes.blockAckBytes fields ++ (bitmap.bytes ++ rest)).length := by
        simp only [List.length_append, length_blockAckBytes, bitmap.length_eq]
        omega
      have required : requireSize .dot11Control 18 (toBytes.blockAckBytes fields ++
          (bitmap.bytes ++ rest)) = .ok () := requireSize_eq_ok.mpr large
      simp only [parse, subtype, toBytes, UInt8.reduceToNat, List.append_assoc, bits,
        Octets.ofBytes_bytes, parseFields_toBytes, required]
      rfl
  | other subtype =>
      have range : subtype.toNat < 8 ∨ 16 ≤ subtype.toNat := complete
      change parse subtype _ = _
      unfold parse
      split <;> first | omega | rfl

theorem complete_of_parse {subtype : UInt8} {bytes : Bytes} {control : Control}
    (read : parse subtype bytes = .ok control) :
    control.Complete ∧ control.subtype = subtype ∧ control.toBytes.length ≤ bytes.length := by
  unfold parse at read
  split at read
  case h_1 number =>
    rcases Outcome.bind_eq_ok.mp read with ⟨fields, parsed, result⟩
    cases result
    have large := length_of_parseFields parsed
    exact ⟨trivial, UInt8.toNat.inj number.symm, by rwa [toBytes, length_blockAckBytes]⟩
  case h_2 number =>
    simp only [Outcome.bind_eq_ok, requireSize_eq_ok] at read
    rcases read with ⟨_, large, fields, parsed, result⟩
    cases result
    refine ⟨trivial, UInt8.toNat.inj number.symm, ?_⟩
    rw [toBytes, List.length_append, length_blockAckBytes, Octets.length_eq]
    exact large
  case h_3 number | h_4 number | h_7 number | h_8 number =>
    rcases Outcome.bind_eq_ok.mp read with ⟨transmitter, parsed, result⟩
    cases result
    rcases HwAddress.ofBytes_eq_ok.mp parsed with ⟨large, _⟩
    exact ⟨trivial, UInt8.toNat.inj number.symm, by rwa [toBytes, HwAddress.length_octets]⟩
  case h_5 number | h_6 number =>
    cases read
    exact ⟨trivial, UInt8.toNat.inj number.symm, Nat.zero_le _⟩
  case h_9 eight nine ten eleven twelve thirteen fourteen fifteen =>
    cases read
    refine ⟨?_, rfl, Nat.zero_le _⟩
    change subtype.toNat < 8 ∨ 16 ≤ subtype.toNat
    simp only [imp_false] at eight nine ten eleven twelve thirteen fourteen fifteen
    omega

end Control

end Wireless

end PacketStack
