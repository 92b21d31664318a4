import Mathlib.Data.List.Pairwise
import PacketStack.Headers
import PacketStack.Proofs.Header.Accessors

/-!
Views of headers as lenses, one for each field.

Main statement: `setters_independent` says that what is set in a view is read back by its own
getters, and that no other getter and no bit of another field can tell that it was set.
-/

namespace PacketStack

open Bytes

section Fill

variable {size : Nat} {fields : List HeaderField} {values : List (HeaderField × Nat)}
variable {bytes : Bytes}

theorem bit_fill_of_outside {index : Nat}
    (outside : ∀ pair ∈ values, index < pair.1.start ∨ pair.1.start + pair.1.width ≤ index) :
    bit (fill values bytes) index = bit bytes index := by
  induction values generalizing bytes with
  | nil => rfl
  | cons first rest ih =>
      have others : bit (fill rest (first.1.put first.2 bytes)) index =
          bit (first.1.put first.2 bytes) index :=
        ih fun pair member => outside pair (List.mem_cons_of_mem _ member)
      exact others.trans (first.1.bit_put_of_outside _ _ (outside first List.mem_cons_self))

theorem Fit.mono {large : Nat} (fit : Fit size fields) (order : size ≤ large) : Fit large fields :=
  ⟨fit.1, fun field member =>
    ⟨Nat.le_trans (fit.2 field member).1 order, (fit.2 field member).2⟩⟩

theorem Fit.sublist {chosen : List HeaderField} (fit : Fit size fields)
    (part : chosen.Sublist fields) : Fit size chosen :=
  ⟨fit.1.sublist part, fun field member => fit.2 field (part.subset member)⟩

theorem Fit.get_fill_of_notMem {field : HeaderField} (fit : Fit bytes.length fields)
    (part : (values.map Prod.fst).Sublist fields) (member : field ∈ fields)
    (apart : field ∉ values.map Prod.fst) : field.get (fill values bytes) = field.get bytes := by
  apply get_fill_of_disjoint (fit.2 field member).1
  intro pair present
  have touched : pair.1 ∈ values.map Prod.fst := List.mem_map_of_mem present
  have different : field ≠ pair.1 := fun same => apart (same ▸ touched)
  have : Std.Symm fun first second : HeaderField => first.Disjoint second.toSpan :=
    ⟨fun _ _ => Or.symm⟩
  exact fit.1.forall member (part.subset touched) different

end Fill

/-- A field and a value for it. -/
structure FieldValue where
  field : HeaderField
  value : field.type.Value

def FieldValue.number (set : FieldValue) : HeaderField × Nat :=
  (set.field, set.field.type.toNat set.value)

namespace HeaderView

/-- What setting fields to values makes of a view. -/
structure Sets (view after : HeaderView) (values : List FieldValue) : Prop where
  layout : after.layout = view.layout
  writable : after.writable = view.writable
  length : after.bytes.length = view.bytes.length
  read : ∀ set ∈ values, after.get set.field = set.field.type.truncate set.field.width set.value
  others : ∀ field ∈ view.layout.fields, field ∉ values.map FieldValue.field →
    after.get field = view.get field
  bytes : ∀ index,
    (∀ set ∈ values, index < set.field.firstByte ∨ set.field.endByte ≤ index) →
    after.bytes[index]? = view.bytes[index]?
  bits : ∀ index,
    (∀ set ∈ values, index < set.field.start ∨ set.field.start + set.field.width ≤ index) →
    bit after.bytes index = bit view.bytes index

theorem ofBytes_eq_ok {layout : HeaderLayout} {writable : Bool} {bytes : Bytes}
    {view : HeaderView} : ofBytes layout writable bytes = .ok view ↔
      layout.minimum ≤ bytes.length ∧ view = ⟨layout, bytes, writable⟩ := by
  unfold ofBytes
  split
  · rename_i short
    constructor
    · intro accepted
      cases accepted
    · intro accepted
      omega
  · rename_i large
    constructor
    · intro accepted
      cases accepted
      exact ⟨by omega, rfl⟩
    · intro accepted
      rw [accepted.2]

variable {layout : HeaderLayout} {bytes : Bytes}

theorem sets_of_fill (fit : Fit layout.minimum layout.fields)
    (accessible : ∀ field ∈ layout.fields, field.Accessible layout.minimum)
    (large : layout.minimum ≤ bytes.length) {values : List FieldValue}
    (part : (values.map FieldValue.field).Sublist layout.fields) :
    Sets ⟨layout, bytes, true⟩ ⟨layout, fill (values.map FieldValue.number) bytes, true⟩
      values := by
  have fields : (values.map FieldValue.number).map Prod.fst = values.map FieldValue.field :=
    List.map_map
  have part : ((values.map FieldValue.number).map Prod.fst).Sublist layout.fields := by rwa [fields]
  have whole : Fit bytes.length layout.fields := fit.mono large
  have value {field : HeaderField} (member : field ∈ layout.fields) {buffer : Bytes}
      (size : buffer.length = bytes.length) :
      field.value buffer = field.type.ofNat (field.get buffer) := by
    rcases accessible field member with ⟨stop, reads, -, -⟩
    rcases fit.2 field member with ⟨inside, aligned⟩
    exact HeaderField.value_eq aligned reads (by omega) (by omega)
  have bits (index : Nat)
      (outside : ∀ set ∈ values,
        index < set.field.start ∨ set.field.start + set.field.width ≤ index) :
      bit (fill (values.map FieldValue.number) bytes) index = bit bytes index :=
    bit_fill_of_outside (List.forall_mem_map.mpr outside)
  constructor
  case layout => rfl
  case writable => rfl
  case length => exact length_fill _ bytes
  case read =>
    intro set present
    have member : set.field ∈ layout.fields :=
      part.subset (fields ▸ List.mem_map_of_mem present)
    have stored : set.field.get (fill (values.map FieldValue.number) bytes) =
        set.field.type.toNat set.value % 2 ^ set.field.width :=
      get_fill (whole.sublist part) (List.mem_map_of_mem present)
    change set.field.value _ = _
    rw [value member (length_fill _ bytes), stored]
    exact FieldType.ofNat_toNat_mod (accessible _ member).2.2.1 set.value
  case others =>
    intro field member apart
    change field.value _ = field.value _
    rw [value member (length_fill _ bytes), value member rfl,
      whole.get_fill_of_notMem part member (by rwa [fields])]
  case bytes =>
    intro index outside
    apply getElem?_eq_of_bit_eq (length_fill _ bytes)
    intro position _
    apply bits
    intro set present
    have clear := outside set present
    simp only [Span.firstByte, Span.endByte] at clear
    omega
  case bits => exact bits

theorem layouts_fit : ∀ entry ∈ headerLayouts, Fit entry.2.minimum entry.2.fields := by
  decide +kernel

theorem layouts_accessible : ∀ entry ∈ headerLayouts, ∀ field ∈ entry.2.fields,
    field.Accessible entry.2.minimum := by
  decide +kernel

theorem set_eq_ok (fit : Fit layout.minimum layout.fields) {field : HeaderField}
    (member : field ∈ layout.fields) (accessible : field.Accessible layout.minimum)
    (large : layout.minimum ≤ bytes.length) (settable : field.setter.isSome)
    (value : field.type.Value) :
    set ⟨layout, bytes, true⟩ field value =
      .ok ⟨layout, fill [FieldValue.number ⟨field, value⟩] bytes, true⟩ := by
  obtain ⟨setter, given⟩ := Option.isSome_iff_exists.mp settable
  rcases accessible.2.2.2 setter given with ⟨stop, writes⟩
  have inside : setter.stop ≤ bytes.length := Nat.le_trans stop large
  simp only [set, given, if_pos inside]
  rw [HeaderField.write_eq_put (fit.2 field member).2 writes inside]
  rfl

end HeaderView

namespace Wireless.Frame.Header

/-- The fields of the first byte of a frame, with the values that are set at once. -/
def controls (version type subtypeId : UInt8) : List FieldValue :=
  [⟨protocol, version⟩, ⟨frameType, type⟩, ⟨subtype, subtypeId⟩]

theorem testBit_control (version type subtypeId : UInt8) {index : Nat} (short : index < 8) :
    (control version type subtypeId).toNat.testBit index =
      if index < 2 then version.toNat.testBit index
      else if index < 4 then type.toNat.testBit (index - 2)
      else subtypeId.toNat.testBit (index - 4) := by
  have low (position : Nat) : (3 : Nat).testBit position = decide (position < 2) :=
    Nat.testBit_two_pow_sub_one 2 position
  have high (position : Nat) : (15 : Nat).testBit position = decide (position < 4) :=
    Nat.testBit_two_pow_sub_one 4 position
  simp only [control, UInt8.toNat_or, UInt8.toNat_and, UInt8.toNat_shiftLeft, Nat.testBit_or,
    Nat.testBit_and, Nat.testBit_mod_two_pow, Nat.testBit_shiftLeft, UInt8.reduceToNat, low, high,
    short, decide_true, Bool.true_and, Nat.reduceMod]
  by_cases first : index < 2
  · have before : ¬ 2 ≤ index ∧ ¬ 4 ≤ index := by omega
    simp [first, before]
  · by_cases second : index < 4
    · have between : 2 ≤ index ∧ ¬ 4 ≤ index ∧ index - 2 < 2 := by omega
      simp [first, second, between]
    · have behind : 2 ≤ index ∧ 4 ≤ index ∧ ¬ index - 2 < 2 ∧ index - 4 < 4 := by omega
      simp [first, second, behind]

theorem splice_control (version type subtypeId : UInt8) {bytes : Bytes} (some : 0 < bytes.length) :
    bytes.splice 0 [control version type subtypeId] =
      fill ((controls version type subtypeId).map FieldValue.number) bytes := by
  have inside : 0 + [control version type subtypeId].length ≤ bytes.length := some
  have room (buffer : Bytes) (size : buffer.length = bytes.length) : 0 < buffer.length := by omega
  apply eq_of_bit_eq
  · rw [length_splice _ _ _ inside, length_fill]
  intro index _
  change _ = bit (subtype.put subtypeId.toNat (frameType.put type.toNat
    (protocol.put version.toNat bytes))) index
  rw [bit_splice _ _ _ _ inside]
  by_cases touched : index < 8
  · have place : index / 8 = 0 := by omega
    have position : 7 - index % 8 = 7 - index := by omega
    rw [if_pos ⟨Nat.zero_le _, touched⟩, Nat.mul_zero, Nat.sub_zero, bit, place, position,
      List.getD_cons_zero, testBit_control _ _ _ (by omega)]
    by_cases front : index < 4
    · have place : 7 - index - 4 = 0 + 4 - 1 - index := by omega
      rw [if_neg (by omega), if_neg (by omega), place]
      exact (subtype.bit_put_of_within rfl _ (room _ (by simp)) ⟨Nat.zero_le _, front⟩).symm
    · rw [subtype.bit_put_of_outside _ _ (Or.inr (Nat.le_of_not_lt front))]
      by_cases middle : index < 6
      · have place : 7 - index - 2 = 4 + 2 - 1 - index := by omega
        rw [if_neg (by omega), if_pos (by omega), place]
        exact (frameType.bit_put_of_within rfl _ (room _ (by simp))
          ⟨Nat.le_of_not_lt front, middle⟩).symm
      · have place : 7 - index = 6 + 2 - 1 - index := by omega
        rw [frameType.bit_put_of_outside _ _ (Or.inr (Nat.le_of_not_lt middle)),
          if_pos (by omega), place]
        exact (protocol.bit_put_of_within rfl _ some ⟨Nat.le_of_not_lt middle, touched⟩).symm
  · have behind (span : Span) (front : span.start + span.width ≤ 8) :
        index < span.start ∨ span.start + span.width ≤ index := by omega
    rw [if_neg (fun within => touched within.2),
      subtype.bit_put_of_outside _ _ (behind _ (by decide)),
      frameType.bit_put_of_outside _ _ (behind _ (by decide)),
      protocol.bit_put_of_outside _ _ (behind _ (by decide))]

end Wireless.Frame.Header

namespace HeaderView

/-- Each field of each header that has a setter is set on its own, and the three numbers in the
first byte of a wireless frame are set at once. What is read back is the value that was set, cut to
the width of its field and by the name that its number has. -/
theorem setters_independent :
    (∀ entry ∈ headerLayouts, ∀ bytes view, ofBytes entry.2 true bytes = .ok view →
      ∀ field ∈ entry.2.fields, field.setter.isSome → ∀ value : field.type.Value, ∃ after,
        view.set field value = .ok after ∧ view.Sets after [⟨field, value⟩]) ∧
    ∀ bytes view, ofBytes Wireless.Frame.Header.layout true bytes = .ok view →
      ∀ version type subtypeId, ∃ after,
        Wireless.Frame.Header.setControl view version type subtypeId = .ok after ∧
          view.Sets after (Wireless.Frame.Header.controls version type subtypeId) := by
  constructor
  · intro entry listed bytes view accepted field member settable value
    rcases ofBytes_eq_ok.mp accepted with ⟨large, rfl⟩
    have fit := layouts_fit entry listed
    have accessible := layouts_accessible entry listed
    have alone : ([(⟨field, value⟩ : FieldValue)].map FieldValue.field).Sublist entry.2.fields :=
      List.singleton_sublist.mpr member
    exact ⟨_, set_eq_ok fit member (accessible field member) large settable value,
      sets_of_fill fit accessible large alone⟩
  · intro bytes view accepted version type subtypeId
    rcases ofBytes_eq_ok.mp accepted with ⟨large, rfl⟩
    have listed : ("dot11", Wireless.Frame.Header.layout) ∈ headerLayouts := by
      simp [headerLayouts]
    have front : ((Wireless.Frame.Header.controls version type subtypeId).map
        FieldValue.field).Sublist Wireless.Frame.Header.layout.fields :=
      (List.prefix_append _ _).sublist
    have inside : 0 < bytes.length := Nat.lt_of_lt_of_le (by decide) large
    refine ⟨_, ?_, sets_of_fill (layouts_fit _ listed) (layouts_accessible _ listed) large front⟩
    rw [← Wireless.Frame.Header.splice_control _ _ _ inside]
    exact if_pos inside

/-- In a header of ones: a flow label that is too large leaves the bits of the traffic class next to
it, and the frame control leaves the flags. -/
theorem setters_independent_of_ones :
    (∃ view after, ofBytes Ipv6.Header.layout true (List.replicate 40 0xff) = .ok view ∧
      view.set Ipv6.Header.flowLabel (0x7012345 : UInt32) = .ok after ∧
      view.Sets after [⟨Ipv6.Header.flowLabel, (0x7012345 : UInt32)⟩] ∧
      after.get Ipv6.Header.flowLabel = (0x12345 : UInt32) ∧
      after.get Ipv6.Header.trafficClass = (0xff : UInt8)) ∧
    ∃ view after, ofBytes Wireless.Frame.Header.layout true (List.replicate 10 0xff) = .ok view ∧
      Wireless.Frame.Header.setControl view 4 1 13 = .ok after ∧
      view.Sets after (Wireless.Frame.Header.controls 4 1 13) ∧
      after.get Wireless.Frame.Header.protocol = (0 : UInt8) ∧
      after.get Wireless.Frame.Header.flags = (0xff : UInt8) := by
  constructor
  · have listed : ("ipv6", Ipv6.Header.layout) ∈ headerLayouts := by simp [headerLayouts]
    have accepted : ofBytes Ipv6.Header.layout true (List.replicate 40 0xff) = .ok _ := rfl
    rcases setters_independent.1 _ listed _ _ accepted Ipv6.Header.flowLabel
      (by simp [Ipv6.Header.layout]) rfl (0x7012345 : UInt32) with ⟨after, stored, sets⟩
    refine ⟨_, after, accepted, stored, sets, sets.read _ List.mem_cons_self, ?_⟩
    exact sets.others _ (by simp [Ipv6.Header.layout]) (by decide)
  · have accepted : ofBytes Wireless.Frame.Header.layout true (List.replicate 10 0xff) = .ok _ :=
      rfl
    rcases setters_independent.2 _ _ accepted 4 1 13 with ⟨after, stored, sets⟩
    refine ⟨_, after, accepted, stored, sets, sets.read _ List.mem_cons_self, ?_⟩
    exact sets.others _ (by simp [Wireless.Frame.Header.layout]) (by decide)

/-- A protocol that is set by its number alone is read by its name. -/
theorem protocol_read_by_name : ∃ view after,
    ofBytes Ipv4.Header.layout true (List.replicate 20 0) = .ok view ∧
      view.set Ipv4.Header.protocol (IpProtocol.other 6) = .ok after ∧
      after.get Ipv4.Header.protocol = IpProtocol.tcp ∧
      after.get Ipv4.Header.protocol ≠ IpProtocol.other 6 :=
  ⟨_, _, rfl, rfl, rfl, nofun⟩

end HeaderView

end PacketStack
