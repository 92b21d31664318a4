import PacketStack.Proofs.Wireless.Management
import PacketStack.Wireless.Security

/-!
The element that announces the security of a network, written and read again.

Main statement: `RsnInformation.read_iff_announced_fits` says that a written element is read with
whatever follows it, that what is read stood in the bytes as it is written, and that reading fails
for the one reason that there are fewer bytes than the two counts announce.
-/

namespace PacketStack

namespace Reader

variable {α β : Type}

theorem reads_little {short : Nat → PacketError} {size number : Nat} {bytes rest : Bytes} :
    (little short size).Reads bytes number rest ↔
      number < Bytes.valueCount size ∧ bytes = Bytes.ofNatLE size number ++ rest := by
  simp only [little, reads_bind, reads_take, reads_pure]
  constructor
  · rintro ⟨_, _, ⟨enough, rfl, rfl⟩, rfl, rfl⟩
    have length : (bytes.take size).length = size := List.length_take_of_le enough
    have bound := Bytes.toNatLE_lt (bytes.take size)
    have front := Bytes.ofNatLE_toNatLE (bytes.take size)
    rw [length] at bound front
    exact ⟨bound, by rw [front, List.take_append_drop]⟩
  · rintro ⟨small, rfl⟩
    have length : (Bytes.ofNatLE size number).length = size := Bytes.length_ofNatLE size number
    refine ⟨_, _, ⟨?_, rfl, rfl⟩, ?_, (List.drop_left' length).symm⟩
    · rw [List.length_append, length]
      exact Nat.le_add_right _ _
    · rw [List.take_left' length, Bytes.toNatLE_ofNatLE, Nat.mod_eq_of_lt small]

theorem reads_many {item : Reader α} {encode : α → Bytes} {valid : α → Prop}
    (each : ∀ {bytes value rest}, item.Reads bytes value rest ↔
      valid value ∧ bytes = encode value ++ rest)
    {count : Nat} {bytes rest : Bytes} {values : List α} :
    (many item count).Reads bytes values rest ↔
      values.length = count ∧ (∀ value ∈ values, valid value) ∧
        bytes = values.flatMap encode ++ rest := by
  induction count generalizing bytes values rest with
  | zero =>
      simp only [many, reads_pure, List.length_eq_zero_iff]
      constructor
      · rintro ⟨rfl, rfl⟩
        exact ⟨rfl, nofun, rfl⟩
      · rintro ⟨rfl, _, rfl⟩
        exact ⟨rfl, rfl⟩
  | succ count ih =>
      simp only [many, reads_bind, reads_pure, each, ih]
      constructor
      · rintro ⟨value, _, ⟨first, rfl⟩, values, _, ⟨length, others, rfl⟩, rfl, rfl⟩
        refine ⟨congrArg (· + 1) length, List.forall_mem_cons.mpr ⟨first, others⟩, ?_⟩
        rw [List.flatMap_cons, List.append_assoc]
      · rintro ⟨length, all, rfl⟩
        rcases List.exists_cons_of_length_eq_add_one length with ⟨value, values, rfl⟩
        rcases List.forall_mem_cons.mp all with ⟨first, others⟩
        rw [List.flatMap_cons, List.append_assoc]
        exact ⟨value, _, ⟨first, rfl⟩, values, _, ⟨Nat.succ.inj length, others, rfl⟩, rfl, rfl⟩

theorem reads_many_little {short : Nat → PacketError} {size count : Nat} {bytes rest : Bytes}
    {numbers : List Nat} :
    (many (little short size) count).Reads bytes numbers rest ↔
      numbers.length = count ∧ (∀ number ∈ numbers, number < Bytes.valueCount size) ∧
        bytes = numbers.flatMap (Bytes.ofNatLE size) ++ rest :=
  reads_many reads_little

theorem reads_little_of_enough {short : Nat → PacketError} {size : Nat} {bytes : Bytes}
    (enough : size ≤ bytes.length) :
    (little short size).Reads bytes (Bytes.toNatLE (bytes.take size)) (bytes.drop size) := by
  simp only [little, reads_bind, reads_take, reads_pure]
  exact ⟨_, _, ⟨enough, rfl, rfl⟩, rfl, rfl⟩

theorem exists_reads_many_little {short : Nat → PacketError} {size count : Nat} {bytes : Bytes}
    (enough : size * count ≤ bytes.length) :
    ∃ numbers,
      (many (little short size) count).Reads bytes numbers (bytes.drop (size * count)) := by
  induction count generalizing bytes with
  | zero => exact ⟨[], reads_pure.mpr ⟨rfl, rfl⟩⟩
  | succ count ih =>
      rw [Nat.mul_succ] at enough
      have others : size * count ≤ (bytes.drop size).length := by
        rw [List.length_drop]
        omega
      rcases ih others with ⟨numbers, read⟩
      rw [List.drop_drop, Nat.add_comm, ← Nat.mul_succ] at read
      refine ⟨Bytes.toNatLE (bytes.take size) :: numbers, ?_⟩
      simp only [many, reads_bind, reads_pure]
      exact ⟨_, _, reads_little_of_enough (by omega), numbers, _, read, rfl, rfl⟩

def FailsBy (cause : PacketError) (reader : Reader α) : Prop :=
  ∀ bytes failure, reader.run bytes = .error failure → failure = .refused cause

variable {cause : PacketError}

theorem failsBy_pure (value : α) : FailsBy cause (pure value) := nofun

theorem FailsBy.bind {reader : Reader α} {next : α → Reader β} (first : FailsBy cause reader)
    (others : ∀ value, FailsBy cause (next value)) : FailsBy cause (reader >>= next) := by
  intro bytes failure failed
  rw [StateT.run_bind] at failed
  cases ran : reader.run bytes with
  | error early =>
      rw [ran] at failed
      cases failed
      exact first bytes failure ran
  | ok read =>
      rw [ran] at failed
      exact others read.1 read.2 failure failed

theorem failsBy_little (cause : PacketError) (size : Nat) :
    FailsBy cause (little (fun _ => cause) size) := by
  apply FailsBy.bind _ fun _ => failsBy_pure _
  intro bytes failure failed
  unfold take at failed
  simp only [StateT.run_bind, StateT.run_get, pure_bind] at failed
  split at failed
  · cases failed
    rfl
  · cases failed

theorem FailsBy.many {item : Reader α} (each : FailsBy cause item) (count : Nat) :
    FailsBy cause (many item count) := by
  induction count with
  | zero => exact failsBy_pure []
  | succ count ih => exact each.bind fun _ => ih.bind fun _ => failsBy_pure _

end Reader

namespace Wireless.RsnInformation

variable {tag : UInt8} {rsn : RsnInformation} {bytes rest : Bytes}

theorem exists_words {ids : List Nat} (small : ∀ id ∈ ids, id < Bytes.valueCount 4) :
    ∃ words : List UInt32, words.map UInt32.toNat = ids := by
  refine ⟨ids.map UInt32.ofNat, ?_⟩
  rw [List.map_map]
  exact (List.map_congr_left fun id member => UInt32.toNat_ofNat_of_lt' (small id member)).trans
    (List.map_id ids)

theorem reads_reader : (reader tag).Reads bytes rsn rest ↔
    rsn.pairwiseSuites.length ≤ 65535 ∧ rsn.akmSuites.length ≤ 65535 ∧
      bytes = rsn.toBytes ++ rest := by
  simp only [reader, Reader.reads_bind, Reader.reads_little, Reader.reads_many_little,
    Reader.reads_pure]
  constructor
  · rintro ⟨version, _, ⟨versionSmall, rfl⟩, group, _, ⟨groupSmall, rfl⟩, _, _,
      ⟨pairwiseFew, rfl⟩, pairwise, _, ⟨rfl, pairwiseSmall, rfl⟩, _, _, ⟨akmFew, rfl⟩, akm, _,
      ⟨rfl, akmSmall, rfl⟩, capabilities, _, ⟨capabilitiesSmall, rfl⟩, rfl, rfl⟩
    rcases exists_words pairwiseSmall with ⟨pairwise, rfl⟩
    rcases exists_words akmSmall with ⟨akm, rfl⟩
    have versionKept : version.toUInt16.toNat = version := UInt16.toNat_ofNat_of_lt' versionSmall
    have groupKept : group.toUInt32.toNat = group := UInt32.toNat_ofNat_of_lt' groupSmall
    have capabilitiesKept : capabilities.toUInt16.toNat = capabilities :=
      UInt16.toNat_ofNat_of_lt' capabilitiesSmall
    rw [List.length_map] at pairwiseFew akmFew
    refine ⟨?_, ?_, ?_⟩
    · rw [List.length_map, List.length_map]
      exact Nat.le_of_lt_succ pairwiseFew
    · rw [List.length_map, List.length_map]
      exact Nat.le_of_lt_succ akmFew
    · simp only [toBytes, versionKept, groupKept, capabilitiesKept, List.map_map, List.length_map,
        List.flatMap_map, Function.comp_apply, Nat.toUInt32, UInt32.ofNat_toNat, List.append_assoc]
  · rintro ⟨pairwiseFew, akmFew, rfl⟩
    have word (ids : List UInt32) :
        ∀ id ∈ ids.map UInt32.toNat, id < Bytes.valueCount 4 := by
      intro id member
      rcases List.mem_map.mp member with ⟨word, _, rfl⟩
      exact word.toNat_lt
    refine ⟨_, _, ⟨rsn.version.toNat_lt, ?_⟩, _, _, ⟨rsn.groupSuite.id.toNat_lt, rfl⟩, _, _,
      ⟨Nat.lt_succ_of_le pairwiseFew, rfl⟩, _, _, ⟨?_, word (rsn.pairwiseSuites.map (·.id)), rfl⟩,
      _, _, ⟨Nat.lt_succ_of_le akmFew, rfl⟩, _, _, ⟨?_, word (rsn.akmSuites.map (·.id)), rfl⟩,
      _, _, ⟨rsn.capabilities.toNat_lt, rfl⟩, ?_, rfl⟩
    · simp only [toBytes, List.flatMap_map, List.append_assoc]
    · rw [List.length_map, List.length_map]
    · rw [List.length_map, List.length_map]
    · simp only [List.map_map, Function.comp_def, Nat.toUInt16, Nat.toUInt32, UInt16.ofNat_toNat,
        UInt32.ofNat_toNat, List.map_id_fun', id_eq]

def pairwiseCount (bytes : Bytes) : Nat := Bytes.toNatLE (bytes.window 6 2)

def akmCount (bytes : Bytes) : Nat := Bytes.toNatLE (bytes.window (8 + 4 * pairwiseCount bytes) 2)

/-- The room for the fixed fields and for what the two numbers announce. -/
def announcedSize (bytes : Bytes) : Nat := 12 + 4 * (pairwiseCount bytes + akmCount bytes)

theorem length_toBytes (rsn : RsnInformation) : rsn.toBytes.length =
    12 + 4 * (rsn.pairwiseSuites.length + rsn.akmSuites.length) := by
  simp only [toBytes, List.length_append, Bytes.length_ofNatLE, List.length_flatMap,
    List.map_const', List.sum_replicate_nat]
  omega

theorem announcedSize_toBytes_append (pairwiseFew : rsn.pairwiseSuites.length ≤ 65535)
    (akmFew : rsn.akmSuites.length ≤ 65535) (rest : Bytes) :
    announcedSize (rsn.toBytes ++ rest) = rsn.toBytes.length := by
  have ciphers : (rsn.pairwiseSuites.flatMap fun suite =>
      Bytes.ofNatLE 4 suite.id.toNat).length = 4 * rsn.pairwiseSuites.length := by
    simp only [List.length_flatMap, Bytes.length_ofNatLE, List.map_const', List.sum_replicate_nat]
    omega
  have first : pairwiseCount (rsn.toBytes ++ rest) = rsn.pairwiseSuites.length := by
    have window : Bytes.window (rsn.toBytes ++ rest) 6 2 =
        Bytes.ofNatLE 2 rsn.pairwiseSuites.length := by
      simp [toBytes, Bytes.window_append_right, Bytes.window_append_left]
    rw [pairwiseCount, window, Bytes.toNatLE_ofNatLE]
    exact Nat.mod_eq_of_lt (Nat.lt_succ_of_le pairwiseFew)
  have second : akmCount (rsn.toBytes ++ rest) = rsn.akmSuites.length := by
    have window : Bytes.window (rsn.toBytes ++ rest) (8 + 4 * rsn.pairwiseSuites.length) 2 =
        Bytes.ofNatLE 2 rsn.akmSuites.length := by
      have front : (Bytes.ofNatLE 2 rsn.version.toNat ++ Bytes.ofNatLE 4 rsn.groupSuite.id.toNat ++
          Bytes.ofNatLE 2 rsn.pairwiseSuites.length ++ rsn.pairwiseSuites.flatMap fun suite =>
            Bytes.ofNatLE 4 suite.id.toNat).length = 8 + 4 * rsn.pairwiseSuites.length := by
        simp only [List.length_append, Bytes.length_ofNatLE, ciphers]
      rw [toBytes, List.append_assoc, List.append_assoc, List.append_assoc,
        Bytes.window_append_right _ _ _ _ (Nat.le_of_eq front), front, Nat.sub_self,
        Bytes.window_append_left _ _ _ (Bytes.length_ofNatLE 2 _)]
    rw [akmCount, first, window, Bytes.toNatLE_ofNatLE]
    exact Nat.mod_eq_of_lt (Nat.lt_succ_of_le akmFew)
  rw [announcedSize, first, second, length_toBytes]

theorem exists_reads_reader (tag : UInt8) (enough : announcedSize bytes ≤ bytes.length) :
    ∃ rsn rest, (reader tag).Reads bytes rsn rest := by
  have size : announcedSize bytes = 12 + 4 * (pairwiseCount bytes + akmCount bytes) := rfl
  have number (start width : Nat) (inside : start + width ≤ bytes.length) :
      (Reader.little (fun _ => .malformedOption tag) width).Reads (bytes.drop start)
        (Bytes.toNatLE (bytes.window start width)) (bytes.drop (start + width)) := by
    rw [← List.drop_drop]
    apply Reader.reads_little_of_enough
    rw [List.length_drop]
    omega
  have suites (start count : Nat) (inside : start + 4 * count ≤ bytes.length) :
      ∃ ids, (Reader.many (Reader.little (fun _ => .malformedOption tag) 4) count).Reads
        (bytes.drop start) ids (bytes.drop (start + 4 * count)) := by
    rw [← List.drop_drop]
    apply Reader.exists_reads_many_little
    rw [List.length_drop]
    omega
  rcases suites 8 (pairwiseCount bytes) (by omega) with ⟨ciphers, pairwise⟩
  rcases suites (8 + 4 * pairwiseCount bytes + 2) (akmCount bytes) (by omega) with ⟨ways, akm⟩
  simp only [reader, Reader.reads_bind, Reader.reads_pure]
  exact ⟨_, _, _, _, number 0 2 (by omega), _, _, number 2 4 (by omega), _, _,
    number 6 2 (by omega), _, _, pairwise, _, _, number _ 2 (by omega), _, _, akm, _, _,
    number _ 2 (by omega), rfl, rfl⟩

theorem parse_eq_ok_iff :
    parse tag bytes = .ok rsn ↔ ∃ rest, (reader tag).Reads bytes rsn rest := by
  unfold parse StateT.run' Reader.Reads StateT.run
  cases reader tag bytes with
  | error failure => exact iff_of_false nofun nofun
  | ok read =>
      constructor
      · intro same
        cases same
        exact ⟨read.2, rfl⟩
      · rintro ⟨rest, same⟩
        cases same
        rfl

theorem failsBy_reader (tag : UInt8) : (reader tag).FailsBy (.malformedOption tag) := by
  have number (size : Nat) := Reader.failsBy_little (.malformedOption tag) size
  unfold reader
  exact (number 2).bind fun _ => (number 4).bind fun _ => (number 2).bind fun _ =>
    ((number 4).many _).bind fun _ => (number 2).bind fun _ => ((number 4).many _).bind fun _ =>
      (number 2).bind fun _ => Reader.failsBy_pure _

theorem parse_eq_error {failure : Failure} (failed : parse tag bytes = .error failure) :
    failure = .refused (.malformedOption tag) := by
  unfold parse StateT.run' at failed
  cases ran : reader tag bytes with
  | error early =>
      rw [ran] at failed
      cases failed
      exact failsBy_reader tag bytes failure ran
  | ok read =>
      rw [ran] at failed
      cases failed

theorem parse_eq_error_iff :
    (∃ failure, parse tag bytes = .error failure) ↔ bytes.length < announcedSize bytes := by
  constructor
  · rintro ⟨failure, failed⟩
    by_contra enough
    rcases exists_reads_reader tag (Nat.le_of_not_lt enough) with ⟨rsn, read⟩
    rw [parse_eq_ok_iff.mpr read] at failed
    cases failed
  · intro short
    cases read : parse tag bytes with
    | error failure => exact ⟨failure, rfl⟩
    | ok rsn =>
        rcases parse_eq_ok_iff.mp read with ⟨rest, stands⟩
        rcases reads_reader.mp stands with ⟨pairwiseFew, akmFew, rfl⟩
        rw [announcedSize_toBytes_append pairwiseFew akmFew, List.length_append] at short
        exact absurd short (Nat.not_lt.mpr (Nat.le_add_right _ _))

/-- A written element is read from the front of any bytes, where its lists are no longer than their
counts can say. What is read stood at the front of the bytes as it is written, in just the room that
was announced, and reading fails, always for the same cause, just where there is less room. -/
theorem read_iff_announced_fits (tag : UInt8) :
    (∀ (rsn : RsnInformation) (rest : Bytes), rsn.pairwiseSuites.length ≤ 65535 →
      rsn.akmSuites.length ≤ 65535 → parse tag (rsn.toBytes ++ rest) = .ok rsn) ∧
    (∀ (bytes : Bytes) (rsn : RsnInformation), parse tag bytes = .ok rsn →
      rsn.toBytes <+: bytes ∧ rsn.toBytes.length = announcedSize bytes) ∧
    ∀ bytes : Bytes,
      ((∃ failure, parse tag bytes = .error failure) ↔ bytes.length < announcedSize bytes) ∧
        ∀ failure, parse tag bytes = .error failure →
          failure = .refused (.malformedOption tag) := by
  refine ⟨?_, ?_, fun bytes => ⟨parse_eq_error_iff, fun failure => parse_eq_error⟩⟩
  · intro rsn rest pairwiseFew akmFew
    exact parse_eq_ok_iff.mpr ⟨rest, reads_reader.mpr ⟨pairwiseFew, akmFew, rfl⟩⟩
  · intro bytes rsn read
    rcases parse_eq_ok_iff.mp read with ⟨rest, stands⟩
    rcases reads_reader.mp stands with ⟨pairwiseFew, akmFew, rfl⟩
    exact ⟨List.prefix_append _ _, (announcedSize_toBytes_append pairwiseFew akmFew rest).symm⟩

/-- A network with an old cipher for its groups, two for pairs of stations and a suite without a
name. -/
def transitional : RsnInformation :=
  ⟨1, .tkip, [.ccmp, .tkip], [.enterprise, ⟨0x06ac0f00⟩], 0x28⟩

theorem transitional_read :
    transitional.pairwiseSuites.length ≤ 65535 ∧ transitional.akmSuites.length ≤ 65535 ∧
      parse 48 (transitional.toBytes ++ [0xff]) = .ok transitional ∧
      announcedSize (transitional.toBytes ++ [0xff]) = 28 ∧
      ∃ failure, parse 48 (transitional.toBytes.take 21) = .error failure ∧
        failure = .refused (.malformedOption 48) := by
  rcases read_iff_announced_fits 48 with ⟨written, stands, fails⟩
  have pairwiseFew : transitional.pairwiseSuites.length ≤ 65535 := by decide
  have akmFew : transitional.akmSuites.length ≤ 65535 := by decide
  have read := written transitional [0xff] pairwiseFew akmFew
  have short : (transitional.toBytes.take 21).length <
      announcedSize (transitional.toBytes.take 21) := by decide
  rcases (fails _).1.mpr short with ⟨failure, failed⟩
  exact ⟨pairwiseFew, akmFew, read, (stands _ _ read).2.symm, failure, failed,
    (fails _).2 failure failed⟩

end Wireless.RsnInformation

end PacketStack
