import PacketStack.Proofs.Application.TaggedOptions
import PacketStack.Proofs.Wireless.Bodies
import PacketStack.Wireless.Management

/-!
The bodies of management frames, written and read again. Their options take all that follows the
fixed fields.
-/

namespace PacketStack

namespace Reader

def Reads {α : Type} (reader : Reader α) (bytes : Bytes) (value : α) (rest : Bytes) : Prop :=
  reader.run bytes = .ok (value, rest)

theorem reads_bind {α β : Type} {reader : Reader α} {next : α → Reader β} {bytes rest : Bytes}
    {value : β} :
    (reader >>= next).Reads bytes value rest ↔
      ∃ first middle, reader.Reads bytes first middle ∧ (next first).Reads middle value rest := by
  simp only [Reads, StateT.run_bind, Outcome.bind_eq_ok, Prod.exists]

theorem reads_pure {α : Type} {result value : α} {bytes rest : Bytes} :
    (pure result : Reader α).Reads bytes value rest ↔ value = result ∧ rest = bytes := by
  constructor
  · intro read
    cases read
    exact ⟨rfl, rfl⟩
  · intro holds
    rcases holds with ⟨rfl, rfl⟩
    rfl

theorem reads_take {short : Nat → PacketError} {size : Nat} {bytes data rest : Bytes} :
    (Reader.take short size).Reads bytes data rest ↔
      size ≤ bytes.length ∧ data = bytes.take size ∧ rest = bytes.drop size := by
  have run : (Reader.take short size).run bytes =
      if bytes.length < size then .error (.refused (short bytes.length))
      else .ok (bytes.take size, bytes.drop size) := by
    unfold Reader.take
    simp only [StateT.run_bind, StateT.run_get, pure_bind]
    by_cases few : bytes.length < size
    · rw [if_pos few, if_pos few]
      rfl
    · rw [if_neg few, if_neg few]
      rfl
  rw [Reads, run]
  by_cases few : bytes.length < size
  · rw [if_pos few]
    constructor
    · intro read
      cases read
    · intro holds
      rcases holds with ⟨enough, _⟩
      omega
  · rw [if_neg few]
    constructor
    · intro read
      cases read
      exact ⟨by omega, rfl, rfl⟩
    · intro holds
      rcases holds with ⟨_, rfl, rfl⟩
      rfl

theorem reads_take_append {short : Nat → PacketError} {size : Nat} {data : Bytes}
    (whole : data.length = size) (rest : Bytes) :
    (Reader.take short size).Reads (data ++ rest) data rest := by
  rw [reads_take, List.take_left' whole, List.drop_left' whole, List.length_append, whole]
  exact ⟨Nat.le_add_right _ _, rfl, rfl⟩

end Reader
namespace Wireless

namespace ManagementFields

def Complete : ManagementFields → Prop
  | .other subtype => subtype.toNat = 6 ∨ subtype.toNat = 7 ∨ 13 ≤ subtype.toNat
  | _ => True

theorem reads_word16 {bytes rest : Bytes} {value : UInt16} :
    word16.Reads bytes value rest ↔
      2 ≤ bytes.length ∧ value = (Bytes.toNatLE (bytes.take 2)).toUInt16 ∧
        rest = bytes.drop 2 := by
  simp only [word16, take, Reader.reads_bind, Reader.reads_take, Reader.reads_pure]
  constructor
  · intro holds
    rcases holds with ⟨_, _, ⟨enough, rfl, rfl⟩, rfl, rfl⟩
    exact ⟨enough, rfl, rfl⟩
  · intro holds
    rcases holds with ⟨enough, rfl, rfl⟩
    exact ⟨_, _, ⟨enough, rfl, rfl⟩, rfl, rfl⟩

theorem reads_word16_written (value : UInt16) (rest : Bytes) :
    word16.Reads (Bytes.ofNatLE 2 value.toNat ++ rest) value rest := by
  have front : (Bytes.ofNatLE 2 value.toNat).length = 2 := Bytes.length_ofNatLE _ _
  rw [reads_word16, List.take_left' front, List.drop_left' front, Bytes.toUInt16_ofNatLE,
    List.length_append, front]
  exact ⟨Nat.le_add_right _ _, rfl, rfl⟩

theorem words_cons (value : UInt16) (values : List UInt16) (rest : Bytes) :
    words (value :: values) ++ rest = Bytes.ofNatLE 2 value.toNat ++ (words values ++ rest) := by
  rw [words, List.flatMap_cons, List.append_assoc, ← words]

theorem words_nil (rest : Bytes) : words [] ++ rest = rest := rfl

@[simp] theorem length_words (values : List UInt16) :
    (words values).length = 2 * values.length := by
  induction values with
  | nil => rfl
  | cons value values ih =>
      rw [words, List.flatMap_cons, ← words, List.length_append, ih, Bytes.length_ofNatLE,
        List.length_cons]
      omega

theorem reads_beacon (fields : BeaconFields) (rest : Bytes) :
    readBeacon.Reads (Bytes.ofNatLE 8 fields.timestamp.toNat ++
      (words [fields.interval, fields.capabilities] ++ rest)) fields rest := by
  have front : (Bytes.ofNatLE 8 fields.timestamp.toNat).length = 8 := Bytes.length_ofNatLE _ _
  simp only [readBeacon, take, Reader.reads_bind, Reader.reads_pure, words_cons, words_nil]
  exact ⟨_, _, Reader.reads_take_append front _, _, _, reads_word16_written _ _, _, _,
    reads_word16_written _ _, by rw [Bytes.toUInt64_ofNatLE], rfl⟩

theorem reads_answer (answer : AssociationAnswer) (rest : Bytes) :
    readAnswer.Reads (words [answer.capabilities, answer.status, answer.associationId] ++ rest)
      answer rest := by
  simp only [readAnswer, Reader.reads_bind, Reader.reads_pure, words_cons, words_nil]
  exact ⟨_, _, reads_word16_written _ _, _, _, reads_word16_written _ _, _, _,
    reads_word16_written _ _, rfl, rfl⟩

theorem reads_toBytes {fields : ManagementFields} (complete : fields.Complete) (rest : Bytes) :
    (read fields.subtype).Reads (fields.toBytes ++ rest) fields rest := by
  cases fields with
  | associationRequest capabilities listenInterval =>
      simp only [read, subtype, toBytes, UInt8.reduceToNat, Reader.reads_bind, Reader.reads_pure,
        words_cons, words_nil]
      exact ⟨_, _, reads_word16_written _ _, _, _, reads_word16_written _ _, rfl, rfl⟩
  | associationResponse answer | reassociationResponse answer =>
      simp only [read, subtype, toBytes, UInt8.reduceToNat, Reader.reads_bind, Reader.reads_pure]
      exact ⟨_, _, reads_answer answer rest, rfl, rfl⟩
  | reassociationRequest capabilities listenInterval currentAp =>
      have front := currentAp.length_octets
      simp only [read, subtype, toBytes, take, UInt8.reduceToNat, Reader.reads_bind,
        Reader.reads_pure, List.append_assoc, words_cons, words_nil]
      exact ⟨_, _, reads_word16_written _ _, _, _, reads_word16_written _ _, _, _,
        Reader.reads_take_append front _, by rw [HwAddress.ofNat_octets], rfl⟩
  | probeRequest | atim => exact Reader.reads_pure.mpr ⟨rfl, rfl⟩
  | probeResponse fields | beacon fields =>
      simp only [read, subtype, toBytes, UInt8.reduceToNat, Reader.reads_bind, Reader.reads_pure,
        List.append_assoc]
      exact ⟨_, _, reads_beacon fields rest, rfl, rfl⟩
  | disassociation reason | deauthentication reason =>
      simp only [read, subtype, toBytes, UInt8.reduceToNat, Reader.reads_bind, Reader.reads_pure,
        words_cons, words_nil]
      exact ⟨_, _, reads_word16_written _ _, rfl, rfl⟩
  | authentication algorithm sequence status =>
      simp only [read, subtype, toBytes, UInt8.reduceToNat, Reader.reads_bind, Reader.reads_pure,
        words_cons, words_nil]
      exact ⟨_, _, reads_word16_written _ _, _, _, reads_word16_written _ _, _, _,
        reads_word16_written _ _, rfl, rfl⟩
  | other subtype =>
      have range : subtype.toNat = 6 ∨ subtype.toNat = 7 ∨ 13 ≤ subtype.toNat := complete
      change (read subtype).Reads rest _ _
      unfold read
      split
      all_goals first | omega | exact Reader.reads_pure.mpr ⟨rfl, rfl⟩

theorem complete_of_reads {subtype : UInt8} {bytes rest : Bytes} {fields : ManagementFields}
    (read : (ManagementFields.read subtype).Reads bytes fields rest) :
    fields.Complete ∧ fields.subtype = subtype ∧
      fields.toBytes.length + rest.length = bytes.length := by
  unfold ManagementFields.read at read
  split at read <;>
    simp only [readBeacon, readAnswer, take, Reader.reads_bind, Reader.reads_pure,
      Reader.reads_take, reads_word16] at read
  case h_1 number =>
    rcases read with ⟨_, _, ⟨first, rfl, rfl⟩, _, _, ⟨second, rfl, rfl⟩, rfl, rfl⟩
    refine ⟨trivial, UInt8.toNat.inj number.symm, ?_⟩
    simp only [toBytes, length_words, List.length_cons, List.length_nil, List.length_drop]
      at first second ⊢
    omega
  case h_2 number | h_4 number =>
    obtain ⟨_, _, ⟨_, _, ⟨first, rfl, rfl⟩, _, _, ⟨second, rfl, rfl⟩, _, _, ⟨third, rfl, rfl⟩,
      rfl, rfl⟩, rfl, rfl⟩ := read
    refine ⟨trivial, UInt8.toNat.inj number.symm, ?_⟩
    simp only [toBytes, length_words, List.length_cons, List.length_nil, List.length_drop]
      at first second third ⊢
    omega
  case h_3 number =>
    obtain ⟨_, _, ⟨first, rfl, rfl⟩, _, _, ⟨second, rfl, rfl⟩, _, _, ⟨third, rfl, rfl⟩, rfl,
      rfl⟩ := read
    refine ⟨trivial, UInt8.toNat.inj number.symm, ?_⟩
    simp only [toBytes, length_words, List.length_append, HwAddress.length_octets,
      List.length_cons, List.length_nil, List.length_drop] at first second third ⊢
    omega
  case h_5 number | h_8 number =>
    rcases read with ⟨rfl, rfl⟩
    exact ⟨trivial, UInt8.toNat.inj number.symm, Nat.zero_add _⟩
  case h_6 number | h_7 number =>
    obtain ⟨_, _, ⟨_, _, ⟨first, rfl, rfl⟩, _, _, ⟨second, rfl, rfl⟩, _, _, ⟨third, rfl, rfl⟩,
      rfl, rfl⟩, rfl, rfl⟩ := read
    refine ⟨trivial, UInt8.toNat.inj number.symm, ?_⟩
    simp only [toBytes, length_words, List.length_append, Bytes.length_ofNatLE, List.length_cons,
      List.length_nil, List.length_drop] at first second third ⊢
    omega
  case h_9 number | h_11 number =>
    rcases read with ⟨_, _, ⟨first, rfl, rfl⟩, rfl, rfl⟩
    refine ⟨trivial, UInt8.toNat.inj number.symm, ?_⟩
    simp only [toBytes, length_words, List.length_cons, List.length_nil, List.length_drop]
    omega
  case h_10 number =>
    obtain ⟨_, _, ⟨first, rfl, rfl⟩, _, _, ⟨second, rfl, rfl⟩, _, _, ⟨third, rfl, rfl⟩, rfl,
      rfl⟩ := read
    refine ⟨trivial, UInt8.toNat.inj number.symm, ?_⟩
    simp only [toBytes, length_words, List.length_cons, List.length_nil, List.length_drop]
      at first second third ⊢
    omega
  case h_12 =>
    rename_i zero one two three four five eight nine ten eleven twelve
    rcases read with ⟨rfl, rfl⟩
    refine ⟨?_, rfl, Nat.zero_add _⟩
    change subtype.toNat = 6 ∨ subtype.toNat = 7 ∨ 13 ≤ subtype.toNat
    simp only [imp_false] at zero one two three four five eight nine ten eleven twelve
    omega

end ManagementFields

namespace Management

/-- A body whose options can be read again, without any where its fields have none. -/
structure Complete (management : Management) (flags : Flags) : Prop where
  header : management.header.Complete flags
  fields : management.fields.Complete
  options : OptionList.Readable .dot11 management.options
  bare : management.fields.hasOptions = false → management.options = []

def Accepts (management : Management) (rest : Bytes) : Prop :=
  management.fields.hasOptions = true → rest = []

def toBytes (management : Management) (flags : Flags) : Bytes :=
  management.header.toBytes flags ++ (management.fields.toBytes ++
    OptionList.toFlatBytes .dot11 management.options)

theorem length_toBytes (management : Management) (flags : Flags) :
    (management.toBytes flags).length = management.size flags := by
  simp only [toBytes, size, List.length_append, SequenceHeader.length_toBytes,
    OptionList.length_toFlatBytes]
  omega

theorem parse_toBytes {management : Management} {flags : Flags}
    (complete : management.Complete flags) {rest : Bytes} (accepts : management.Accepts rest) :
    parse management.fields.subtype flags (management.toBytes flags ++ rest) =
      .ok (management, (management.toBytes flags).length) := by
  rcases management with ⟨header, fields, options⟩
  have front := header.length_toBytes flags
  have shape : toBytes ⟨header, fields, options⟩ flags ++ rest = header.toBytes flags ++
      (fields.toBytes ++ (OptionList.toFlatBytes .dot11 options ++ rest)) := by
    simp only [toBytes, List.append_assoc]
  have fixed : (ManagementFields.read fields.subtype).run
      ((header.toBytes flags ++ (fields.toBytes ++ (OptionList.toFlatBytes .dot11 options ++
        rest))).drop (SequenceHeader.size flags)) =
          .ok (fields, OptionList.toFlatBytes .dot11 options ++ rest) := by
    rw [List.drop_left' front]
    exact ManagementFields.reads_toBytes complete.fields _
  rw [parse, shape, SequenceHeader.parse_toBytes complete.header]
  change (ManagementFields.read fields.subtype).run _ >>= _ = _
  rw [fixed]
  cases opaqueBody : fields.hasOptions with
  | true =>
      have nothing : rest = [] := accepts opaqueBody
      subst nothing
      refine (if_pos opaqueBody).trans ?_
      rw [List.append_nil, OptionList.parse_toBytes complete.options]
      rfl
  | false =>
      have none : options = [] := complete.bare opaqueBody
      subst none
      have bare : ¬ fields.hasOptions = true := by simp [opaqueBody]
      refine (if_neg bare).trans ?_
      have length : (header.toBytes flags ++ (fields.toBytes ++
          (OptionList.toFlatBytes .dot11 [] ++ rest))).length -
            (OptionList.toFlatBytes .dot11 [] ++ rest).length =
          (toBytes ⟨header, fields, []⟩ flags).length := by
        simp only [toBytes, OptionList.toFlatBytes, List.flatMap_nil, List.nil_append,
          List.append_nil, List.length_append]
        omega
      rw [length]
      rfl

theorem complete_of_parse {subtype : UInt8} {flags : Flags} {bytes : Bytes}
    {management : Management} {used : Nat}
    (read : parse subtype flags bytes = .ok (management, used)) :
    management.Complete flags ∧ management.fields.subtype = subtype ∧
      management.size flags ≤ used ∧ used ≤ bytes.length ∧
      management.Accepts (bytes.drop used) := by
  simp only [parse, Outcome.bind_eq_ok] at read
  rcases read with ⟨header, parsed, ⟨fields, rest⟩, fixed, read⟩
  rcases SequenceHeader.complete_of_parse parsed with ⟨first, large⟩
  rcases ManagementFields.complete_of_reads fixed with ⟨second, subtype_eq, length⟩
  rw [List.length_drop] at length
  simp only at read
  split at read
  · rename_i hasOptions
    cases read
    rcases OptionList.readable_parse .dot11 rest with ⟨readable, room⟩
    refine ⟨⟨first, second, readable, fun bare => ?_⟩, subtype_eq, ?_, Nat.le_refl _, ?_⟩
    · rw [hasOptions] at bare
      cases bare
    · simp only [size]
      omega
    · intro _
      exact List.drop_length
  · rename_i bare
    cases read
    refine ⟨⟨first, second, trivial, fun _ => rfl⟩, subtype_eq, ?_, Nat.sub_le _ _, ?_⟩
    · simp only [size, OptionList.wireSize, sizeSum]
      omega
    · intro hasOptions
      exact absurd hasOptions bare

end Management

end Wireless

end PacketStack
