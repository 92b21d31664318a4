import PacketStack.Proofs.Header.Values

/-!
The getters and setters of fields, bit by bit.

Where each bit of a number is read from, and what each bit of a buffer is made of, can be told from
an offset, a mask and a shift alone. Main statements: `HeaderField.value_eq` and
`HeaderField.write_eq_put` say that a getter and a setter whose bits are those of a span read and
write that span.
-/

namespace PacketStack

open Bytes

theorem Bytes.byte_testBit (bytes : Bytes) (offset index : Nat) :
    (bytes.byte offset).toNat.testBit index =
      (decide (index < 8) && bit bytes (8 * offset + 7 - index)) := by
  by_cases short : index < 8
  · have place : (8 * offset + 7 - index) / 8 = offset := by omega
    have position : 7 - (8 * offset + 7 - index) % 8 = index := by omega
    rw [decide_eq_true short, Bool.true_and, bit, place, position, byte]
  · have large : (bytes.byte offset).toNat < 2 ^ index :=
      Nat.lt_of_lt_of_le (bytes.byte offset).toNat_lt (Nat.pow_le_pow_right (by decide) (by omega))
    rw [decide_eq_false short, Bool.false_and, Nat.testBit_lt_two_pow large]

theorem Bytes.word_testBit (bytes : Bytes) (offset index : Nat)
    (inside : offset + 4 ≤ bytes.length) :
    (bytes.word offset).toNat.testBit index =
      (decide (index < 32) && bit bytes (8 * offset + 31 - index)) := by
  have length : (bytes.window offset 4).length = 4 := by
    rw [length_window]
    omega
  have number : (bytes.word offset).toNat = toNatBE (bytes.window offset 4) % 2 ^ 32 :=
    UInt32.toNat_ofNat'
  rw [number, Nat.testBit_mod_two_pow, testBit_toNatBE, length, ← Bool.and_assoc, Bool.and_self]
  by_cases short : index < 32
  · rw [decide_eq_true short, Bool.true_and, Bool.true_and, bit_window _ _ _ _ (by omega)]
    congr 1
    omega
  · rw [decide_eq_false short, Bool.false_and, Bool.false_and]

theorem Bytes.byte_testBit_of_within (bytes : Bytes) {offset index : Nat}
    (within : 8 * offset ≤ index ∧ index < 8 * (offset + 1)) :
    (bytes.byte offset).toNat.testBit (8 * offset + 7 - index) = bit bytes index := by
  have back : 8 * offset + 7 - (8 * offset + 7 - index) = index := by omega
  rw [byte_testBit, back, decide_eq_true (by omega), Bool.true_and]

theorem Bytes.word_testBit_of_within (bytes : Bytes) {offset index : Nat}
    (inside : offset + 4 ≤ bytes.length)
    (within : 8 * offset ≤ index ∧ index < 8 * (offset + 4)) :
    (bytes.word offset).toNat.testBit (8 * offset + 31 - index) = bit bytes index := by
  have back : 8 * offset + 31 - (8 * offset + 31 - index) = index := by omega
  rw [word_testBit _ _ _ inside, back, decide_eq_true (by omega), Bool.true_and]

namespace Getter

def stop : Getter → Nat
  | big offset size | little offset size => offset + size
  | byte offset _ _ => offset + 1
  | word offset _ _ => offset + 4

def place? (index : Nat) : Getter → Option Nat
  | big offset size => if index < 8 * size then some (8 * (offset + size) - 1 - index) else none
  | little offset size =>
      if index < 8 * size then some (8 * offset + (8 * (index / 8) + 7 - index % 8)) else none
  | byte offset shift mask =>
      if mask.toNat.testBit index ∧ shift.toNat % 8 + index < 8 then
        some (8 * offset + 7 - (shift.toNat % 8 + index))
      else none
  | word offset shift mask =>
      if mask.toNat.testBit index ∧ shift.toNat % 32 + index < 32 then
        some (8 * offset + 31 - (shift.toNat % 32 + index))
      else none

theorem testBit_read (getter : Getter) {bytes : Bytes} (inside : getter.stop ≤ bytes.length)
    (index : Nat) :
    (getter.read bytes).testBit index = (getter.place? index).any (bit bytes) := by
  cases getter with
  | big offset size =>
      have inside : offset + size ≤ bytes.length := inside
      have length : (bytes.window offset size).length = size := by
        rw [length_window]
        omega
      rw [read, place?, testBit_toNatBE, length]
      split
      · rename_i short
        rw [decide_eq_true short, Bool.true_and, bit_window _ _ _ _ (by omega), Option.any_some]
        congr 1
        omega
      · rename_i long
        rw [decide_eq_false long, Bool.false_and, Option.any_none]
  | little offset size =>
      have inside : offset + size ≤ bytes.length := inside
      have place : (8 * (index / 8) + 7 - index % 8) / 8 = index / 8 := by omega
      have position : 7 - (8 * (index / 8) + 7 - index % 8) % 8 = index % 8 := by omega
      have spelled : (read bytes (little offset size)).testBit index =
          bit (bytes.window offset size) (8 * (index / 8) + 7 - index % 8) := by
        rw [read, testBit_toNatLE, bit, place, position]
      rw [spelled, place?]
      split
      · exact bit_window _ _ _ _ (by omega)
      · have short : (bytes.window offset size).length ≤ index / 8 := by
          rw [length_window]
          omega
        rw [bit, place, List.getD_eq_getElem?_getD, List.getElem?_eq_none short]
        exact Nat.zero_testBit _
  | byte offset shift mask =>
      rw [read, place?, UInt8.toNat_and, Nat.testBit_and, UInt8.toNat_shiftRight,
        Nat.testBit_shiftRight, byte_testBit]
      cases mask.toNat.testBit index <;>
        by_cases short : shift.toNat % 8 + index < 8 <;> simp [short]
  | word offset shift mask =>
      rw [read, place?, UInt32.toNat_and, Nat.testBit_and, UInt32.toNat_shiftRight,
        Nat.testBit_shiftRight, word_testBit _ _ _ inside]
      cases mask.toNat.testBit index <;>
        by_cases short : shift.toNat % 32 + index < 32 <;> simp [short]

end Getter

/-- What a bit of a buffer is made of by a setter. -/
inductive Origin where
  | kept
  | cleared
  /-- A bit of the number that is written. -/
  | value (index : Nat)
  deriving DecidableEq

namespace Origin

def bit (old : Bool) (value : Nat) : Origin → Bool
  | kept => old
  | cleared => false
  | .value index => value.testBit index

def masked (mask shift index : Nat) : Origin :=
  if mask.testBit index then if shift ≤ index then value (index - shift) else cleared else kept

theorem getLsbD_merge {width : Nat} (old mask : BitVec width) (number shift index : Nat)
    (short : index < width) :
    ((old &&& ~~~mask) ||| ((BitVec.ofNat width number <<< shift) &&& mask)).getLsbD index =
      (masked mask.toNat shift index).bit (old.getLsbD index) number := by
  have selected : mask.toNat.testBit index = mask.getLsbD index := BitVec.testBit_toNat mask
  have moved : index - shift < width := by omega
  simp only [masked, selected, BitVec.getLsbD_or, BitVec.getLsbD_and, BitVec.getLsbD_not,
    BitVec.getLsbD_shiftLeft, BitVec.getLsbD_ofNat, short, moved, decide_true, Bool.true_and]
  cases mask.getLsbD index
  · simp [bit]
  · by_cases above : shift ≤ index
    · have behind : ¬ index < shift := Nat.not_lt_of_le above
      simp [bit, above, behind]
    · have before : index < shift := Nat.lt_of_not_le above
      simp [bit, above, before]

end Origin

namespace Setter

def origin (index : Nat) : Setter → Origin
  | big offset size =>
      if 8 * offset ≤ index ∧ index < 8 * (offset + size) then
        .value (8 * (offset + size) - 1 - index)
      else .kept
  | little offset size =>
      if 8 * offset ≤ index ∧ index < 8 * (offset + size) then
        .value (8 * ((index - 8 * offset) / 8) + 7 - (index - 8 * offset) % 8)
      else .kept
  | byte offset mask shift =>
      if 8 * offset ≤ index ∧ index < 8 * (offset + 1) then
        .masked mask.toNat (shift.toNat % 8) (8 * offset + 7 - index)
      else .kept
  | word offset mask shift =>
      if 8 * offset ≤ index ∧ index < 8 * (offset + 4) then
        .masked mask.toNat (shift.toNat % 32) (8 * offset + 31 - index)
      else .kept

theorem origin_of_behind (setter : Setter) {index : Nat} (behind : 8 * setter.stop ≤ index) :
    setter.origin index = .kept := by
  cases setter <;> exact if_neg (by simp only [stop] at behind; omega)

@[simp] theorem length_write (setter : Setter) {bytes : Bytes} (value : Nat)
    (inside : setter.stop ≤ bytes.length) :
    (setter.write bytes value).length = bytes.length := by
  cases setter <;> apply length_splice <;>
    simpa only [length_ofNatBE, length_ofNatLE, List.length_singleton, stop] using inside

theorem bit_write (setter : Setter) {bytes : Bytes} (value : Nat)
    (inside : setter.stop ≤ bytes.length) (index : Nat) :
    bit (setter.write bytes value) index = (setter.origin index).bit (bit bytes index) value := by
  cases setter with
  | big offset size =>
      have inside : offset + size ≤ bytes.length := inside
      rw [write, origin, bit_splice _ _ _ _ (by rwa [length_ofNatBE]), length_ofNatBE]
      split
      · rw [bit_ofNatBE _ _ _ (by omega), Origin.bit]
        congr 1
        omega
      · rfl
  | little offset size =>
      have inside : offset + size ≤ bytes.length := inside
      rw [write, origin, bit_splice _ _ _ _ (by rwa [length_ofNatLE]), length_ofNatLE]
      split
      · rw [bit_ofNatLE _ _ _ (by omega), Origin.bit]
      · rfl
  | byte offset mask shift =>
      have inside : offset + 1 ≤ bytes.length := inside
      rw [write, origin, bit_splice _ _ _ _ inside, List.length_singleton]
      split
      · rename_i within
        have place : (index - 8 * offset) / 8 = 0 := by omega
        have position : 7 - (index - 8 * offset) % 8 = 8 * offset + 7 - index := by omega
        rw [← byte_testBit_of_within bytes within, bit, place, position, List.getD_cons_zero]
        exact Origin.getLsbD_merge (bytes.byte offset).toBitVec mask.toBitVec value
          (shift.toNat % 8) (8 * offset + 7 - index) (by omega)
      · rfl
  | word offset mask shift =>
      have inside : offset + 4 ≤ bytes.length := inside
      rw [write, origin, bit_splice _ _ _ _ (by rwa [length_ofNatBE]), length_ofNatBE]
      split
      · rename_i within
        have position : 8 * 4 - 1 - (index - 8 * offset) = 8 * offset + 31 - index := by omega
        rw [← word_testBit_of_within bytes inside within, bit_ofNatBE _ _ _ (by omega), position]
        exact Origin.getLsbD_merge (bytes.word offset).toBitVec mask.toBitVec value
          (shift.toNat % 32) (8 * offset + 31 - index) (by omega)
      · rfl

end Setter

namespace Span

def mirror (span : Span) (index : Nat) : Nat :=
  if span.littleEndian then 8 * (index / 8) + 7 - index % 8 else span.width - 1 - index

def place? (span : Span) (index : Nat) : Option Nat :=
  if index < span.width then some (span.start + span.mirror index) else none

def origin (span : Span) (index : Nat) : Origin :=
  if span.start ≤ index ∧ index < span.start + span.width then
    .value (span.mirror (index - span.start))
  else .kept

theorem mirror_lt (span : Span) (whole : span.Whole) {index : Nat} (short : index < span.width) :
    span.mirror index < span.width := by
  unfold mirror
  split
  · rename_i little
    have bytes := whole little
    omega
  · omega

theorem mirror_reverse (span : Span) (whole : span.Whole) {index : Nat}
    (short : index < span.width) :
    span.width - 1 - span.mirror (span.width - 1 - index) = span.mirror index := by
  unfold mirror
  split
  · rename_i little
    have bytes := whole little
    omega
  · omega

theorem testBit_order (span : Span) (whole : span.Whole) (value : Nat) {index : Nat}
    (short : index < span.width) :
    (span.order value).testBit index = value.testBit (span.width - 1 - span.mirror index) := by
  unfold order mirror
  split
  · rename_i little
    have bytes := whole little
    have place : (8 * (index / 8) + 7 - index % 8) / 8 = index / 8 := by omega
    have position : 7 - (8 * (index / 8) + 7 - index % 8) % 8 = index % 8 := by omega
    have spelled := bit_ofNatBE (span.width / 8) value (8 * (index / 8) + 7 - index % 8) (by omega)
    rw [bit, place, position] at spelled
    rw [testBit_toNatLE, spelled]
    congr 1
    omega
  · congr 1
    omega

theorem testBit_get (span : Span) (whole : span.Whole) {bytes : Bytes}
    (inside : span.endByte ≤ bytes.length) (index : Nat) :
    (span.get bytes).testBit index = (span.place? index).any (bit bytes) := by
  unfold place?
  split
  · rename_i short
    have near := span.mirror_lt whole short
    have back : span.start + span.width - 1 - (span.width - 1 - span.mirror index) =
        span.start + span.mirror index := by omega
    rw [get_eq, testBit_order _ whole _ short, testBit_plain _ _ _ inside, back,
      decide_eq_true (by omega), Bool.true_and, Option.any_some]
  · rename_i long
    have small : span.get bytes < 2 ^ index :=
      Nat.lt_of_lt_of_le (span.get_lt bytes whole) (Nat.pow_le_pow_right (by decide) (by omega))
    rw [Nat.testBit_lt_two_pow small, Option.any_none]

theorem bit_put_origin (span : Span) (whole : span.Whole) {bytes : Bytes} (value : Nat)
    (inside : span.endByte ≤ bytes.length) (index : Nat) :
    bit (span.put value bytes) index = (span.origin index).bit (bit bytes index) value := by
  rw [bit_put _ _ _ _ inside, origin]
  split
  · have offset : span.start + span.width - 1 - index =
        span.width - 1 - (index - span.start) := by omega
    have near := span.mirror_lt whole (show index - span.start < span.width by omega)
    rw [offset, ordered, Nat.testBit_mod_two_pow, decide_eq_true (by omega), Bool.true_and,
      testBit_order _ whole _ (by omega), span.mirror_reverse whole (by omega),
      Nat.testBit_mod_two_pow, decide_eq_true near, Bool.true_and, Origin.bit]
  · rfl

end Span

namespace FieldType

def bits : FieldType → Nat
  | byte | protocol | icmpType => 8
  | word16 | etherType | operation => 16
  | word32 | internet => 32
  | word64 => 64
  | octets size => 8 * size
  | hardware => 48
  | internet6 => 128

theorem ofNat_mod (type : FieldType) (number : Nat) :
    type.ofNat (number % 2 ^ type.bits) = type.ofNat number := by
  have byte : (number % 2 ^ 8).toUInt8 = number.toUInt8 := UInt8.toNat_inj.mp (by simp)
  have word : (number % 2 ^ 16).toUInt16 = number.toUInt16 := UInt16.toNat_inj.mp (by simp)
  have vector (width : Nat) : BitVec.ofNat width (number % 2 ^ width) = BitVec.ofNat width number :=
    BitVec.eq_of_toNat_eq (by simp)
  cases type with
  | byte => exact byte
  | word16 => exact word
  | word32 => exact UInt32.toNat_inj.mp (by simp [ofNat, bits])
  | word64 => exact UInt64.toNat_inj.mp (by simp [ofNat, bits])
  | octets size =>
      have same := ofNatBE_toNatBE (ofNatBE size number)
      rw [length_ofNatBE, toNatBE_ofNatBE, valueCount_eq] at same
      have cut : Octets.ofNat size (number % 2 ^ (8 * size)) = Octets.ofNat size number := by
        simp only [Octets.ofNat, same]
      exact cut
  | hardware => exact congrArg HwAddress.mk (vector 48)
  | internet => exact congrArg Ipv4Address.mk (vector 32)
  | internet6 => exact congrArg Ipv6Address.mk (vector 128)
  | protocol => exact congrArg IpProtocol.ofId byte
  | etherType => exact congrArg EtherType.ofId word
  | operation => exact congrArg ArpOperation.ofId word
  | icmpType => exact congrArg IcmpType.ofId byte

theorem ofNat_congr {type : FieldType} {left right : Nat}
    (same : ∀ index < type.bits, left.testBit index = right.testBit index) :
    type.ofNat left = type.ofNat right := by
  have cut : left % 2 ^ type.bits = right % 2 ^ type.bits := by
    apply Nat.eq_of_testBit_eq
    intro index
    rw [Nat.testBit_mod_two_pow, Nat.testBit_mod_two_pow]
    by_cases short : index < type.bits
    · rw [same index short]
    · rw [decide_eq_false short, Bool.false_and, Bool.false_and]
  rw [← ofNat_mod type left, cut, ofNat_mod]

def truncate (width : Nat) : (type : FieldType) → type.Value → type.Value
  | byte, value => (UInt8.toNat value % 2 ^ width).toUInt8
  | word16, value => (UInt16.toNat value % 2 ^ width).toUInt16
  | word32, value => (UInt32.toNat value % 2 ^ width).toUInt32
  | word64, value => (UInt64.toNat value % 2 ^ width).toUInt64
  | octets _, value | hardware, value | internet, value | internet6, value => value
  | protocol, value => IpProtocol.canonical value
  | etherType, value => EtherType.canonical value
  | operation, value => ArpOperation.canonical value
  | icmpType, value => IcmpType.canonical value

def Fills (width : Nat) : FieldType → Prop
  | byte | word16 | word32 | word64 => True
  | type => width = type.bits

instance (width : Nat) : (type : FieldType) → Decidable (type.Fills width)
  | byte | word16 | word32 | word64 => inferInstanceAs (Decidable True)
  | octets _ | hardware | internet | internet6 | protocol | etherType | operation | icmpType =>
      inferInstanceAs (Decidable (_ = _))

theorem ofNat_toNat_mod {type : FieldType} {width : Nat} (fills : type.Fills width)
    (value : type.Value) :
    type.ofNat (type.toNat value % 2 ^ width) = type.truncate width value := by
  cases type with
  | byte => rfl
  | word16 => rfl
  | word32 => rfl
  | word64 => rfl
  | octets size => exact Octets.ofNat_mod value width fills
  | hardware =>
      cases fills
      exact HwAddress.ofNat_mod value
  | internet =>
      cases fills
      exact Ipv4Address.ofNat_mod value
  | internet6 =>
      cases fills
      exact Ipv6Address.ofNat_mod value
  | protocol =>
      cases fills
      exact congrArg IpProtocol.ofId (toUInt8_mod (IpProtocol.id value))
  | etherType =>
      cases fills
      exact congrArg EtherType.ofId (toUInt16_mod (EtherType.id value))
  | operation =>
      cases fills
      exact congrArg ArpOperation.ofId (toUInt16_mod (ArpOperation.id value))
  | icmpType =>
      cases fills
      exact congrArg IcmpType.ofId (toUInt8_mod (IcmpType.id value))

end FieldType

namespace HeaderField

def Reads (field : HeaderField) : Prop :=
  ∀ index < field.type.bits, field.getter.place? index = field.place? index

def Writes (field : HeaderField) (setter : Setter) : Prop :=
  field.endByte ≤ setter.stop ∧
    ∀ index < 8 * setter.stop, setter.origin index = field.origin index

def Accessible (size : Nat) (field : HeaderField) : Prop :=
  field.getter.stop ≤ size ∧ field.Reads ∧ field.type.Fills field.width ∧
    ∀ setter ∈ field.setter, setter.stop ≤ size ∧ field.Writes setter

def Plain (field : HeaderField) : Prop :=
  field.littleEndian = false ∧ field.start % 8 = 0 ∧ field.width % 8 = 0 ∧
    field.getter = .big (field.start / 8) (field.width / 8) ∧
    field.setter = some (.big (field.start / 8) (field.width / 8))

theorem Plain.accessible_iff {field : HeaderField} (plain : field.Plain) (size : Nat) :
    field.Accessible size ↔ field.endByte ≤ size ∧ field.type.Fills field.width := by
  rcases plain with ⟨big, start, width, getter, setter⟩
  have stop : field.start / 8 + field.width / 8 = field.endByte := by
    simp only [Span.endByte]
    omega
  have reads : field.Reads := by
    intro index _
    rw [getter, Getter.place?, Span.place?, Span.mirror, big]
    by_cases short : index < field.width
    · rw [if_pos short, if_pos (by omega), if_neg Bool.false_ne_true]
      congr 1
      omega
    · rw [if_neg short, if_neg (by omega)]
  have writes : field.Writes (.big (field.start / 8) (field.width / 8)) := by
    refine ⟨Nat.le_of_eq stop.symm, fun index _ => ?_⟩
    rw [Setter.origin, Span.origin, Span.mirror, big]
    by_cases within : field.start ≤ index ∧ index < field.start + field.width
    · rw [if_pos within, if_pos (by omega), if_neg Bool.false_ne_true]
      congr 1
      omega
    · rw [if_neg within, if_neg (by omega)]
  simp only [Accessible, getter, setter, Getter.stop, Option.mem_some_iff, forall_eq',
    Setter.stop, stop, reads, writes, true_and, and_true]
  exact ⟨fun holds => ⟨holds.1, holds.2.1⟩, fun holds => ⟨holds.1, holds.2, holds.1⟩⟩

instance (field : HeaderField) : Decidable field.Plain :=
  inferInstanceAs (Decidable (_ ∧ _ ∧ _ ∧ _ ∧ _))

instance (field : HeaderField) : Decidable field.Reads :=
  inferInstanceAs (Decidable (∀ index < field.type.bits,
    field.getter.place? index = field.place? index))

instance (field : HeaderField) (setter : Setter) : Decidable (field.Writes setter) :=
  inferInstanceAs (Decidable (_ ∧
    ∀ index < 8 * setter.stop, setter.origin index = field.origin index))

instance (size : Nat) (field : HeaderField) : Decidable (field.Accessible size) :=
  if plain : field.Plain then decidable_of_iff' _ (plain.accessible_iff size)
  else inferInstanceAs (Decidable (_ ∧ _ ∧ _ ∧
    ∀ setter ∈ field.setter, setter.stop ≤ size ∧ field.Writes setter))

variable {field : HeaderField} {bytes : Bytes}

theorem value_eq (whole : field.Whole) (reads : field.Reads)
    (read : field.getter.stop ≤ bytes.length) (inside : field.endByte ≤ bytes.length) :
    field.value bytes = field.type.ofNat (field.get bytes) := by
  apply FieldType.ofNat_congr
  intro index short
  rw [Getter.testBit_read _ read, Span.testBit_get _ whole inside, reads index short]

theorem write_eq_put {setter : Setter} (whole : field.Whole) (writes : field.Writes setter)
    (inside : setter.stop ≤ bytes.length) (value : Nat) :
    setter.write bytes value = field.put value bytes := by
  have reach : field.endByte ≤ bytes.length := Nat.le_trans writes.1 inside
  apply eq_of_bit_eq
  · rw [setter.length_write value inside, Span.length_put]
  intro index _
  rw [setter.bit_write value inside, field.bit_put_origin whole value reach]
  by_cases within : index < 8 * setter.stop
  · rw [writes.2 index within]
  · have outside : ¬ (field.start ≤ index ∧ index < field.start + field.width) := by
      have before := writes.1
      simp only [Span.endByte] at before
      omega
    rw [setter.origin_of_behind (Nat.le_of_not_lt within), Span.origin, if_neg outside]

end HeaderField

end PacketStack
