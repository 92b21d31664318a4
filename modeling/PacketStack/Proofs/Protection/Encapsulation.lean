import PacketStack.Proofs.Protection.Opening

/-!
Decryption and encapsulation as inverses of each other.

Main statements: `Ccmp.inverse_in_transit`, also for headers that change on the way, and
`Tkip.inverse_behind_header`, which names the one integrity code that is not checked.
-/

namespace PacketStack

namespace Wireless

/-- The flags that may change when a frame is sent again or delayed on the way. -/
def Flags.changeable (isQos : Bool) : Flags :=
  let always := (retry.union powerManagement).union moreData
  if isQos then always.union order else always

/-- A data frame may arrive with another header than it was protected with: other flags of those
that change, and another duration, sequence number and quality of service apart from the traffic
identifier. -/
structure Frame.Arrives (frame other : Frame) (fields others : Data) : Prop where
  sent : frame.data? = some fields
  received : other.data? = some others
  protocol : other.protocol = frame.protocol
  flags : other.flags.without (.changeable fields.isQos) =
    frame.flags.without (.changeable fields.isQos)
  addr1 : other.addr1 = frame.addr1
  subtype : others.subtype = fields.subtype
  addr2 : others.header.addr2 = fields.header.addr2
  addr3 : others.header.addr3 = fields.header.addr3
  addr4 : others.header.addr4 = fields.header.addr4
  fragment : others.header.fragment = fields.header.fragment
  trafficId : others.trafficId = fields.trafficId

namespace Flags

variable {flags others unwanted wanted : Flags}

theorem intersect_of_without (same : others.without unwanted = flags.without unwanted)
    (outside : wanted.without unwanted = wanted) :
    others.intersect wanted = flags.intersect wanted := by
  have within (given : Flags) :
      given.intersect wanted = (given.without unwanted).intersect wanted := by
    calc given.intersect wanted
      _ = given.intersect (wanted.without unwanted) := by rw [outside]
      _ = (given.without unwanted).intersect wanted := by
        rw [intersect, intersect, without, without, UInt8.and_comm wanted.bits, UInt8.and_assoc]
  rw [within others, same, ← within flags]

theorem contains_of_without (same : others.without unwanted = flags.without unwanted)
    (outside : wanted.without unwanted = wanted) :
    others.contains wanted = flags.contains wanted :=
  congrArg (fun common : Flags => common.bits == wanted.bits) (intersect_of_without same outside)

theorem isBetweenSystems_of_without {isQos : Bool}
    (same : others.without (changeable isQos) = flags.without (changeable isQos)) :
    others.isBetweenSystems = flags.isBetweenSystems := by
  have up : toDs.without (changeable isQos) = toDs := by cases isQos <;> rfl
  have down : fromDs.without (changeable isQos) = fromDs := by cases isQos <;> rfl
  rw [isBetweenSystems, isBetweenSystems, contains_of_without same up,
    contains_of_without same down]

end Flags

theorem Frame.frameType_of_data? {frame : Frame} {fields : Data}
    (carries : frame.data? = some fields) : frame.frameType = 2 := by
  unfold Frame.data? at carries
  split at carries
  · rename_i body
    rw [Frame.frameType, body]
    rfl
  · cases carries

end Wireless

namespace Protection

namespace Ccmp

open Wireless (Frame Data Flags)

variable {cipher : BlockCipher} {frame other : Frame} {fields others : Data}
variable {payload data : Bytes}

theorem coveredFlags_of_without {flags others : Flags} {isQos : Bool}
    (same : others.without (.changeable isQos) = flags.without (.changeable isQos)) :
    coveredFlags others isQos = coveredFlags flags isQos := by
  cases isQos with
  | false => exact congrArg (Flags.union · .protectedFrame) (Flags.intersect_of_without same rfl)
  | true => exact congrArg (Flags.union · .protectedFrame) (Flags.intersect_of_without same rfl)

theorem context_of_arrives (arrives : frame.Arrives other fields others) (number : BitVec 48) :
    Context.of other others number = Context.of frame fields number := by
  have isQos : others.isQos = fields.isQos := by rw [Data.isQos, Data.isQos, arrives.subtype]
  have priorities : priority others = priority fields := by
    rw [priority, priority, isQos, arrives.trafficId]
  have type : coveredType other others = coveredType frame fields := by
    rw [coveredType, coveredType, arrives.protocol, arrives.subtype,
      Frame.frameType_of_data? arrives.received, Frame.frameType_of_data? arrives.sent]
  have flags : coveredFlags other.flags others.isQos = coveredFlags frame.flags fields.isQos := by
    rw [isQos, coveredFlags_of_without arrives.flags]
  rw [Context.of, Context.of, priorities, type, flags, isQos, arrives.addr1, arrives.addr2,
    arrives.addr3, arrives.addr4, arrives.fragment, Flags.isBetweenSystems_of_without arrives.flags]

theorem decrypt?_of_arrives (arrives : frame.Arrives other fields others) (number : BitVec 48)
    (keyId : UInt8) (data : Bytes) :
    decrypt? cipher other (encapsulate cipher frame fields number keyId data) = some data := by
  have same : encapsulate cipher frame fields number keyId data =
      encapsulate cipher other others number keyId data := by
    rw [encapsulate, encapsulate, context_of_arrives arrives]
  rw [same, decrypt?_encapsulate arrives.received]

theorem header_numberOf {front : Bytes} (size : front.length = headerSize) (keyId : UInt8) :
    header (numberOf front) keyId =
      (front.set 2 0).set 3 ((0x20 : UInt8) ||| (keyId <<< (6 : UInt8))) := by
  match front, size with
  | [a, b, reserved, key, c, d, e, f], _ =>
      have small : Bytes.toNatLE [a, b, c, d, e, f] < 2 ^ 48 := Bytes.toNatLE_lt [a, b, c, d, e, f]
      have octets : Bytes.ofNatLE 6 (numberOf [a, b, reserved, key, c, d, e, f]).toNat =
          [a, b, c, d, e, f] := by
        calc Bytes.ofNatLE 6 (numberOf [a, b, reserved, key, c, d, e, f]).toNat
          _ = Bytes.ofNatLE 6 (Bytes.toNatLE [a, b, c, d, e, f]) :=
            congrArg (Bytes.ofNatLE 6) (Nat.mod_eq_of_lt small)
          _ = [a, b, c, d, e, f] := Bytes.ofNatLE_toNatLE [a, b, c, d, e, f]
      rw [header, octets]
      rfl

theorem getElem?_header_numberOf {front : Bytes} (size : front.length = headerSize) (keyId : UInt8)
    {place : Nat} (notReserved : place ≠ 2) (notKey : place ≠ 3) :
    (header (numberOf front) keyId)[place]? = front[place]? := by
  rw [header_numberOf size, List.getElem?_set_ne notKey.symm, List.getElem?_set_ne notReserved.symm]

theorem encapsulate_of_decrypt? (carries : frame.data? = some fields)
    (accepted : decrypt? cipher frame payload = some data) (keyId : UInt8) :
    encapsulate cipher frame fields (numberOf (payload.take headerSize)) keyId data =
      header (numberOf (payload.take headerSize)) keyId ++ payload.drop headerSize := by
  rcases (decrypt?_eq_some_iff carries).mp accepted with
    ⟨front, encrypted, received, size, codeLength, rfl, decrypts, check⟩
  have code := (xor_eq_code_iff codeLength).mp check
  rw [List.append_assoc, List.take_left' size, List.drop_left' size, encapsulate, List.append_assoc,
    code, ← decrypts, crypt_crypt]

theorem length_of_decrypt? (carries : frame.data? = some fields)
    (accepted : decrypt? cipher frame payload = some data) : headerSize ≤ payload.length := by
  rcases (decrypt?_eq_some_iff carries).mp accepted with ⟨front, _, _, size, _, rfl, _, _⟩
  rw [List.append_assoc, List.length_append, size]
  exact Nat.le_add_right _ _

theorem getElem?_encapsulate_of_decrypt? (carries : frame.data? = some fields)
    (accepted : decrypt? cipher frame payload = some data) (keyId : UInt8) {place : Nat}
    (notReserved : place ≠ 2) (notKey : place ≠ 3) :
    (encapsulate cipher frame fields (numberOf (payload.take headerSize)) keyId data)[place]? =
      payload[place]? := by
  have size : (payload.take headerSize).length = headerSize :=
    List.length_take_of_le (length_of_decrypt? carries accepted)
  rw [encapsulate_of_decrypt? carries accepted]
  conv_rhs => rw [← List.take_append_drop headerSize payload]
  rw [List.getElem?_append, List.getElem?_append, length_header, size]
  split
  · exact getElem?_header_numberOf size keyId notReserved notKey
  · rfl

theorem code_unique {front : Bytes} {left right : Octets codeSize}
    (first : decrypt? cipher frame (front ++ left.bytes) ≠ none)
    (second : decrypt? cipher frame (front ++ right.bytes) ≠ none) : left = right := by
  have expected (code : Octets codeSize)
      (accepted : decrypt? cipher frame (front ++ code.bytes) ≠ none) :
      ∀ fields, frame.data? = some fields →
        code.bytes = expectedCode cipher frame fields front := by
    intro fields carries
    rcases Option.ne_none_iff_exists'.mp accepted with ⟨data, opened⟩
    have whole := eq_of_decrypt?_eq_some carries opened
    have front_eq : (front ++ code.bytes).take ((front ++ code.bytes).length - codeSize) = front :=
      List.take_left' (by rw [List.length_append, code.length_eq, Nat.add_sub_cancel])
    rw [front_eq] at whole
    exact List.append_cancel_left whole
  cases carried : frame.data? with
  | none =>
      have refused : decrypt? cipher frame (front ++ left.bytes) = none := by
        rw [decrypt?, carried]
        exact ite_self none
      exact absurd refused first
  | some fields =>
      have same := (expected left first fields carried).trans (expected right second fields
        carried).symm
      cases left
      cases right
      cases same
      rfl

/-- With any block cipher, what was encapsulated is decrypted under any header with which it may
arrive. What is decrypted is encapsulated again to the same bytes, but for one that is reserved and
the one that names the key, and only one code is accepted behind given bytes. -/
theorem inverse_in_transit (cipher : BlockCipher) :
    (∀ (frame other : Frame) (fields others : Data) (number : BitVec 48) (keyId : UInt8)
        (data : Bytes), frame.Arrives other fields others →
      decrypt? cipher other (encapsulate cipher frame fields number keyId data) = some data) ∧
    (∀ (frame : Frame) (fields : Data) (payload data : Bytes) (keyId : UInt8),
      frame.data? = some fields → decrypt? cipher frame payload = some data →
        let again :=
          encapsulate cipher frame fields (numberOf (payload.take headerSize)) keyId data
        again.length = payload.length ∧
          ∀ place, place ≠ 2 → place ≠ 3 → again[place]? = payload[place]?) ∧
    (∀ (frame : Frame) (front : Bytes) (left right : Octets codeSize),
      decrypt? cipher frame (front ++ left.bytes) ≠ none →
        decrypt? cipher frame (front ++ right.bytes) ≠ none → left = right) := by
  refine ⟨?_, ?_, fun frame front left right => code_unique⟩
  · intro frame other fields others number keyId data arrives
    exact decrypt?_of_arrives arrives number keyId data
  · intro frame fields payload data keyId carries accepted again
    refine ⟨?_, fun place => getElem?_encapsulate_of_decrypt? carries accepted keyId⟩
    have long := length_of_decrypt? carries accepted
    have size := congrArg List.length (encapsulate_of_decrypt? carries accepted keyId)
    calc again.length
      _ = headerSize + (payload.length - headerSize) := by
        rw [size, List.length_append, length_header, List.length_drop]
      _ = payload.length := by omega

def sentFields : Data where
  subtype := 8
  header := ⟨.ofNat 2, .ofNat 3, 0, 0x338, .zero⟩
  qosControl := 0x0005

def sentFrame : Frame := ⟨0, Flags.toDs.union .protectedFrame, 44, .ofNat 1, .data sentFields⟩

def resentFields : Data :=
  { sentFields with header := { sentFields.header with sequence := 0x339 }, qosControl := 0x0305 }

/-- All that may change has changed. -/
def resentFrame : Frame :=
  { sentFrame with
    flags := sentFrame.flags.union (.changeable true)
    duration := 0
    body := .data resentFields }

def sentPayload (cipher : BlockCipher) : Bytes :=
  encapsulate cipher sentFrame sentFields 0xb5039776e70c 0 [1, 2, 3]

theorem resentFrame_opened :
    let cipher := (Aes.ofKey (.zero 16)).encrypt
    let payload := sentPayload cipher
    sentFrame.Arrives resentFrame sentFields resentFields ∧
      decrypt? cipher resentFrame payload = some [1, 2, 3] ∧
      (encapsulate cipher resentFrame resentFields (numberOf (payload.take headerSize)) 3
        [1, 2, 3]).length = payload.length ∧
      ∀ code : Octets codeSize,
        decrypt? cipher resentFrame (payload.take (payload.length - codeSize) ++ code.bytes) ≠
          none → code.bytes = payload.drop (payload.length - codeSize) := by
  intro cipher payload
  obtain ⟨opens, again, unique⟩ := inverse_in_transit cipher
  have arrives : sentFrame.Arrives resentFrame sentFields resentFields :=
    ⟨rfl, rfl, rfl, rfl, rfl, rfl, rfl, rfl, rfl, rfl, rfl⟩
  have opened : decrypt? cipher resentFrame payload = some [1, 2, 3] :=
    opens _ _ _ _ 0xb5039776e70c 0 [1, 2, 3] arrives
  have long : codeSize ≤ payload.length := by
    simp [payload, sentPayload, encapsulate, headerSize, codeSize]
  refine ⟨arrives, opened, (again _ _ payload _ 3 rfl opened).1, fun code accepted => ?_⟩
  have size : (payload.drop (payload.length - codeSize)).length = codeSize := by
    rw [List.length_drop, Nat.sub_sub_self long]
  refine congrArg Octets.bytes (unique resentFrame _ code ⟨_, size⟩ accepted ?_)
  rw [List.take_append_drop, opened]
  exact Option.some_ne_none _

end Ccmp

namespace Tkip

/-- The parts of a counter of 48 bits. -/
def Counter.ofNumber (number : BitVec 48) : Counter :=
  ⟨.ofNat number.toNat, .ofNat (number.toNat >>> 16)⟩

def octet (number : BitVec 48) (place : Nat) : UInt8 := .ofNat (number.toNat >>> (8 * place))

/-- The header of a counter, whose bytes stand in six of the eight places. -/
def headerOf (number : BitVec 48) (keyId : UInt8) : Bytes :=
  [octet number 1, (octet number 1 ||| 0x20) &&& 0x7f, octet number 0,
    (0x20 : UInt8) ||| (keyId <<< (6 : UInt8)),
    octet number 2, octet number 3, octet number 4, octet number 5]

theorem header_ofNumber (number : BitVec 48) (keyId : UInt8) :
    header (.ofNumber number) keyId = headerOf number keyId := by
  have next (shift : Nat) : number.toNat >>> (shift + 8) = number.toNat >>> shift / 256 :=
    (Nat.shiftRight_add _ _ _).trans (Nat.shiftRight_eq_div_pow _ 8)
  have lowest : (Counter.ofNumber number).low.toUInt8 = octet number 0 := by
    apply UInt8.toNat.inj
    change number.toNat % 65536 % 256 = number.toNat % 256
    omega
  have second : ((Counter.ofNumber number).low >>> 8).toUInt8 = octet number 1 := by
    have shift : (8 : UInt16).toNat % 16 = 8 := rfl
    have high : number.toNat >>> 8 = number.toNat / 256 := next 0
    apply UInt8.toNat.inj
    rw [UInt16.toNat_toUInt8, UInt16.toNat_shiftRight, shift, Nat.shiftRight_eq_div_pow]
    change number.toNat % 65536 / 256 % 256 = number.toNat >>> 8 % 256
    omega
  have high : (Counter.ofNumber number).high.toNat = number.toNat >>> 16 := by
    have small : number.toNat >>> 16 < 2 ^ 32 := by
      rw [Nat.shiftRight_eq_div_pow]
      omega
    exact UInt32.toNat_ofNat_of_lt' small
  have third : octet number 3 = .ofNat (number.toNat >>> 16 / 256) :=
    congrArg UInt8.ofNat (next 16)
  have fourth : octet number 4 = .ofNat (number.toNat >>> 16 / 256 / 256) :=
    congrArg UInt8.ofNat ((next 24).trans (congrArg (· / 256) (next 16)))
  have fifth : octet number 5 = .ofNat (number.toNat >>> 16 / 256 / 256 / 256) :=
    congrArg UInt8.ofNat ((next 32).trans (congrArg (· / 256)
      ((next 24).trans (congrArg (· / 256) (next 16)))))
  rw [header, lowest, second, high, headerOf, third, fourth, fifth]
  rfl

/-- Data behind a given header, encrypted with its check under the counter of the header. -/
def encapsulateBehind (key : Octets 16) (sender : HwAddress) (front data : Bytes) : Bytes :=
  front ++ crypt key sender (counterOf front) (Crc32.attach data)

variable {key : Octets 16} {sender : HwAddress} {payload data : Bytes}

theorem encapsulate_eq_behind (counter : Counter) (keyId : UInt8) (data : Bytes) :
    encapsulate key sender counter keyId data =
      encapsulateBehind key sender (header counter keyId) data := by
  rw [encapsulate, encapsulateBehind, counterOf_header]

theorem eq_encapsulateBehind_iff :
    payload = encapsulateBehind key sender (payload.take headerSize) data ↔
      crypt key sender (counterOf (payload.take headerSize)) (payload.drop headerSize) =
        Crc32.attach data := by
  constructor
  · intro sealed
    have body : payload.drop headerSize = crypt key sender (counterOf (payload.take headerSize))
        (Crc32.attach data) := by
      have parts : payload.take headerSize ++ payload.drop headerSize =
          encapsulateBehind key sender (payload.take headerSize) data :=
        (List.take_append_drop _ _).trans sealed
      exact List.append_cancel_left parts
    rw [body, crypt_crypt]
  · intro check
    calc payload
      _ = payload.take headerSize ++ payload.drop headerSize :=
        (List.take_append_drop _ _).symm
      _ = encapsulateBehind key sender (payload.take headerSize) data := by
        rw [encapsulateBehind, ← check, crypt_crypt]

theorem attach_injective {left right : Bytes} (same : Crc32.attach left = Crc32.attach right) :
    left = right := by
  have detached := congrArg Crc32.detach? same
  rwa [Crc32.detach?_attach, Crc32.detach?_attach, Option.some.injEq] at detached

theorem exists_michael (accepted : decrypt? key sender payload = some data) :
    ∃ michael : Octets michaelSize, ∀ other : Bytes,
      payload = encapsulateBehind key sender (payload.take headerSize) (data ++ other) ↔
        other = michael.bytes := by
  obtain ⟨_, michael, size, check⟩ := decrypt?_eq_some_iff.mp accepted
  refine ⟨⟨michael, size⟩, fun other => ?_⟩
  rw [eq_encapsulateBehind_iff, check]
  constructor
  · intro same
    exact (List.append_cancel_left (attach_injective same)).symm
  · rintro rfl
    rfl

/-- What was encapsulated is decrypted, for every counter, and what is decrypted was encapsulated
behind the header that it has, with one integrity code alone. A payload which is too short for all
parts is refused. -/
theorem inverse_behind_header (key : Octets 16) (sender : HwAddress) :
    (∀ (number : BitVec 48) (keyId : UInt8) (data : Bytes) (michael : Octets michaelSize),
      data ≠ [] →
        let payload := encapsulate key sender (.ofNumber number) keyId (data ++ michael.bytes)
        payload = encapsulateBehind key sender (headerOf number keyId) (data ++ michael.bytes) ∧
          decrypt? key sender payload = some data) ∧
    (∀ payload data : Bytes, decrypt? key sender payload = some data →
      20 < payload.length ∧
        ∃ michael : Octets michaelSize, ∀ other : Bytes,
          payload = encapsulateBehind key sender (payload.take headerSize) (data ++ other) ↔
            other = michael.bytes) ∧
    (∀ payload : Bytes, payload.length ≤ 20 → decrypt? key sender payload = none) := by
  refine ⟨?_, ?_, fun payload short => if_pos short⟩
  · intro number keyId data michael nonempty payload
    refine ⟨?_, decrypt?_encapsulate _ _ _ _ _ _ nonempty michael.length_eq⟩
    rw [← header_ofNumber]
    exact encapsulate_eq_behind _ _ _
  · intro payload data accepted
    exact ⟨(decrypt?_eq_some_iff.mp accepted).long, exists_michael accepted⟩

theorem largeCounter_opened :
    let key : Octets 16 := .zero 16
    let payload := encapsulate key (.ofNat 2) (.ofNumber 0x123456789abc) 1
      ([42] ++ (Octets.zero michaelSize).bytes)
    decrypt? key (.ofNat 2) payload = some [42] ∧
      20 < payload.length ∧
      (∃ michael : Octets michaelSize, ∀ other : Bytes,
        payload = encapsulateBehind key (.ofNat 2) (payload.take headerSize) ([42] ++ other) ↔
          other = michael.bytes) ∧
      decrypt? key (.ofNat 2) (payload.take 20) = none := by
  intro key payload
  obtain ⟨opens, sealed, refuses⟩ := inverse_behind_header key (.ofNat 2)
  have opened : decrypt? key (.ofNat 2) payload = some [42] :=
    (opens 0x123456789abc 1 [42] (.zero michaelSize) (List.cons_ne_nil _ _)).2
  obtain ⟨long, michael⟩ := sealed payload [42] opened
  exact ⟨opened, long, michael, refuses (payload.take 20) (List.length_take_le _ _)⟩

end Tkip

end Protection

end PacketStack
