import PacketStack.Proofs.Header.Bounds
import PacketStack.Proofs.Packet.Framing

/-!
Lists of tagged options, from all bytes and of all values.

Main statement: `OptionList.parse_exact` says how far bytes are read as options, which lists are
written and which of them are read again, also as the options of a message that configures a host.
-/

namespace PacketStack

namespace OptionList

variable {format : OptionFormat} {options : OptionList}

/-- An option that is cut short behind its tag, or in its value. -/
inductive Truncated (format : OptionFormat) : Bytes → Prop
  | length {tag : UInt8} (lengthy : format.hasLength tag = true) : Truncated format [tag]
  | value {tag length : UInt8} {values : Bytes} (lengthy : format.hasLength tag = true)
      (short : values.length < length.toNat) : Truncated format (tag :: length :: values)

/-- The reasons for which no more options are read. -/
def Stops (format : OptionFormat) (options : OptionList) (rest : Bytes) : Prop :=
  rest = [] ∨ (format = .dhcp ∧ ∃ front, options = front ++ [⟨endTag, []⟩]) ∨ Truncated format rest

theorem Stops.cons {rest : Bytes} (stops : Stops format options rest) (option : TaggedOption) :
    Stops format (option :: options) rest := by
  rcases stops with empty | ⟨dhcp, front, rfl⟩ | truncated
  · exact Or.inl empty
  · exact Or.inr (Or.inl ⟨dhcp, option :: front, rfl⟩)
  · exact Or.inr (Or.inr truncated)

theorem toFlatBytes_cons (format : OptionFormat) (option : TaggedOption) (options : OptionList) :
    toFlatBytes format (option :: options) = option.toBytes format ++ toFlatBytes format options :=
  List.flatMap_cons

theorem exists_rest_cons {option : TaggedOption} {bytes behind : Bytes}
    (front : bytes = option.toBytes format ++ behind)
    (others : ∃ rest, behind = toFlatBytes format options ++ rest ∧ Stops format options rest) :
    ∃ rest, bytes = toFlatBytes format (option :: options) ++ rest ∧
      Stops format (option :: options) rest := by
  rcases others with ⟨rest, split, stops⟩
  refine ⟨rest, ?_, stops.cons option⟩
  rw [front, split, toFlatBytes_cons, List.append_assoc]

theorem exists_rest (format : OptionFormat) (bytes : Bytes) : ∃ rest,
    bytes = toFlatBytes format (parse format bytes) ++ rest ∧
      Stops format (parse format bytes) rest := by
  fun_induction parse format bytes with
  | case1 => exact ⟨[], rfl, Or.inl rfl⟩
  | case2 tag rest bare ends =>
      have last : format = .dhcp ∧ tag = endTag := by
        simpa [OptionFormat.isEnd] using ends
      rcases last with ⟨rfl, rfl⟩
      exact ⟨rest, rfl, Or.inr (Or.inl ⟨rfl, [], rfl⟩)⟩
  | case3 tag rest bare goesOn ih =>
      refine exists_rest_cons ?_ ih
      rw [TaggedOption.toBytes, if_neg (by simpa using bare)]
      rfl
  | case4 tag lengthy => exact ⟨[tag], rfl, Or.inr (Or.inr (.length (by simpa using lengthy)))⟩
  | case5 tag lengthy length values value whole ih =>
      refine exists_rest_cons ?_ ih
      rw [TaggedOption.toBytes, if_pos (by simpa using lengthy), whole, UInt8.ofNat_toNat]
      simp [value]
  | case6 tag lengthy length values value short =>
      refine ⟨tag :: length :: values, rfl, Or.inr (Or.inr (.value (by simpa using lengthy) ?_))⟩
      have cut : value.length = min length.toNat values.length := List.length_take
      omega

theorem toBytes_of_fits (fits : ∀ option ∈ options, TaggedOption.fits format option = true) :
    toBytes format options = .ok (toFlatBytes format options) := by
  have size := length_toFlatBytes format options
  have turned : (write format 0 options).Turns (List.replicate (wireSize format options) 0) ()
      (toFlatBytes format options) := by
    refine (turns_write fits).mpr ⟨by rw [List.length_replicate, Nat.zero_add], ?_⟩
    rw [Bytes.splice, size, Nat.zero_add, List.drop_replicate, Nat.sub_self]
    exact (List.append_nil _).symm
  rw [toBytes, Write.into, show (write format 0 options).run.run _ = _ from turned]
  rfl

section NotFits

variable {front rest : OptionList} {long : TaggedOption}
variable (fits : ∀ option ∈ front, TaggedOption.fits format option = true)
variable (large : long.fits format = false)

include fits large

theorem run_write_of_not_fits {offset : Nat} {frame : Bytes}
    (room : offset + wireSize format (front ++ long :: rest) ≤ frame.length) :
    ((write format offset (front ++ long :: rest)).run.run frame).1 =
      .error (.refused (.malformedOption long.tag)) := by
  have taken : (front ++ long :: rest).takeWhile (TaggedOption.fits format) = front := by
    rw [List.takeWhile_append_of_pos fits, List.takeWhile_cons_of_neg (by simp [large]),
      List.append_nil]
  have dropped : (front ++ long :: rest).dropWhile (TaggedOption.fits format) = long :: rest := by
    rw [List.dropWhile_append_of_pos fits, List.dropWhile_cons_of_neg (by simp [large])]
  have size : wireSize format front + 1 ≤ wireSize format (front ++ long :: rest) := by
    rw [wireSize, wireSize, sizeSum_append, sizeSum, TaggedOption.wireSize]
    split <;> omega
  have length := length_toFlatBytes format front
  have enough : ¬ frame.length - offset < wireSize format (front ++ long :: rest) := by omega
  have inside : offset + (toFlatBytes format front).length ≤ frame.length := by omega
  have behind : offset + wireSize format front + [long.tag].length ≤
      (frame.splice offset (toFlatBytes format front)).length := by
    rw [Bytes.length_splice frame offset _ inside, List.length_singleton]
    omega
  rw [write, taken, dropped,
    Write.run_bind_ok (Write.turns_reach.mpr ⟨by omega, rfl⟩ : Write.Turns _ _ () _),
    Write.run_bind_ok (Write.turns_frame.mpr ⟨rfl, rfl⟩)]
  simp only [if_neg enough]
  rw [← toFlatBytes,
    Write.run_bind_ok (Write.turns_put.mpr ⟨inside, rfl⟩ : Write.Turns _ _ () _),
    Write.run_bind_ok (Write.turns_put.mpr ⟨behind, rfl⟩ : Write.Turns _ _ () _)]
  rfl

theorem toBytes_of_not_fits :
    toBytes format (front ++ long :: rest) = .refuse (.malformedOption long.tag) := by
  rcases ran : Write.into (List.replicate (wireSize format (front ++ long :: rest)) 0)
    (write format 0 (front ++ long :: rest)) with ⟨outcome, bytes⟩
  have refused : (Write.into (List.replicate (wireSize format (front ++ long :: rest)) 0)
      (write format 0 (front ++ long :: rest))).1 = .error (.refused (.malformedOption long.tag)) :=
    run_write_of_not_fits fits large (by rw [List.length_replicate, Nat.zero_add])
  rw [ran] at refused
  rw [toBytes, ran, show outcome = _ from refused]
  rfl

end NotFits

theorem toBytes_eq (format : OptionFormat) (options : OptionList) :
    toBytes format options =
      match options.find? (fun option => !option.fits format) with
      | none => .ok (toFlatBytes format options)
      | some long => .refuse (.malformedOption long.tag) := by
  cases found : options.find? (fun option => !option.fits format) with
  | none =>
      apply toBytes_of_fits
      simpa using found
  | some long =>
      rcases List.find?_eq_some_iff_append.mp found with ⟨large, front, rest, rfl, fits⟩
      exact toBytes_of_not_fits (by simpa using fits) (by simpa using large)

theorem toBytes_eq_error_iff (format : OptionFormat) (options : OptionList) :
    (∃ failure, toBytes format options = .error failure) ↔
      ∃ option ∈ options, format.hasLength option.tag = true ∧ 255 < option.value.length := by
  rw [toBytes_eq]
  cases found : options.find? (fun option => !option.fits format) with
  | none =>
      constructor
      · rintro ⟨failure, refused⟩
        cases refused
      · rintro ⟨option, member, lengthy, large⟩
        have short : option.value.length ≤ 255 := by
          simpa [TaggedOption.fits, lengthy] using List.find?_eq_none.mp found option member
        exact absurd short (Nat.not_le.mpr large)
  | some long =>
      have large : long.fits format = false := by simpa using List.find?_some found
      refine ⟨fun _ => ⟨long, List.mem_of_find?_eq_some found, ?_⟩, fun _ => ⟨_, rfl⟩⟩
      simpa [TaggedOption.fits] using large

/-- Options that can be told apart once they are written: a value is as long as its length can
say, it is empty where there is no length, and the end is the last option. -/
structure Sound (format : OptionFormat) (options : OptionList) : Prop where
  short : ∀ option ∈ options, format.hasLength option.tag = true → option.value.length ≤ 255
  bare : format = .dhcp → ∀ option ∈ options, option.tag = padTag ∨ option.tag = endTag →
    option.value = []
  last : format = .dhcp → ∀ option ∈ options.dropLast, option.tag ≠ endTag

theorem hasLength_eq_false_iff {tag : UInt8} : format.hasLength tag = false ↔
    format = .dhcp ∧ (tag = padTag ∨ tag = endTag) := by
  cases format with
  | dot11 => simp [OptionFormat.hasLength]
  | dhcp =>
      simp only [OptionFormat.hasLength, Bool.and_eq_false_iff, bne_eq_false_iff_eq, true_and]

theorem isEnd_eq_true_iff {tag : UInt8} :
    format.isEnd tag = true ↔ format = .dhcp ∧ tag = endTag := by
  simp [OptionFormat.isEnd]

theorem Sound.readable (sound : Sound format options) : Readable format options := by
  induction options with
  | nil => trivial
  | cons option rest ih =>
      refine ⟨?_, ?_, ih ⟨?_, ?_, ?_⟩⟩
      · unfold TaggedOption.Whole
        split
        · rename_i lengthy
          exact sound.short option List.mem_cons_self lengthy
        · rename_i bare
          rcases hasLength_eq_false_iff.mp (by simpa using bare) with ⟨dhcp, alone⟩
          exact sound.bare dhcp option List.mem_cons_self alone
      · intro ends
        rcases isEnd_eq_true_iff.mp ends with ⟨dhcp, last⟩
        by_contra more
        apply sound.last dhcp option _ last
        rw [List.dropLast_cons_of_ne_nil more]
        exact List.mem_cons_self
      · exact fun other member => sound.short other (List.mem_cons_of_mem _ member)
      · exact fun dhcp other member => sound.bare dhcp other (List.mem_cons_of_mem _ member)
      · intro dhcp other member
        have more : rest ≠ [] := by
          rintro rfl
          cases member
        apply sound.last dhcp other
        rw [List.dropLast_cons_of_ne_nil more]
        exact List.mem_cons_of_mem _ member

theorem Readable.sound (readable : Readable format options) : Sound format options := by
  induction options with
  | nil => exact ⟨fun _ => nofun, fun _ _ => nofun, fun _ _ => nofun⟩
  | cons option rest ih =>
      rcases readable with ⟨whole, ends, others⟩
      have sound := ih others
      unfold TaggedOption.Whole at whole
      refine ⟨List.forall_mem_cons.mpr ⟨?_, sound.short⟩,
        fun dhcp => List.forall_mem_cons.mpr ⟨?_, sound.bare dhcp⟩, fun dhcp => ?_⟩
      · intro lengthy
        rwa [if_pos lengthy] at whole
      · intro alone
        have bare := hasLength_eq_false_iff.mpr ⟨dhcp, alone⟩
        rwa [if_neg (by simp [bare])] at whole
      · by_cases none : rest = []
        · rw [none]
          exact fun _ => nofun
        · rw [List.dropLast_cons_of_ne_nil none]
          exact List.forall_mem_cons.mpr
            ⟨fun last => none (ends (isEnd_eq_true_iff.mpr ⟨dhcp, last⟩)), sound.last dhcp⟩

theorem Readable.toBytes_eq (readable : Readable format options) :
    toBytes format options = .ok (toFlatBytes format options) :=
  toBytes_of_fits readable.fits

end OptionList

theorem Dhcp.serialize_eq_ok {dhcp : Dhcp} {bytes : Bytes}
    (readable : OptionList.Readable .dhcp dhcp.options) :
    (Packet.single (.dhcp dhcp)).serialize = .ok bytes ↔
      dhcp.headerSize < 2 ^ 32 ∧ bytes = dhcp.written [] := by
  have regular : (Layer.dhcp dhcp).Regular none := readable
  exact Packet.serialize_single_eq_ok regular trivial

namespace OptionList

/-- Bytes are read as options until they end, the options do or one of them is cut short, and what
was read is written as it stood there. The lists that are read are sound, and every sound list takes
the room that is planned for it and is read as it was written. Only a value that is too long for its
length keeps a list from being written. So a message whose options are sound is read as it was
written, and it is written if its size fits 32 bits. -/
theorem parse_exact (format : OptionFormat) :
    (∀ bytes, Sound format (parse format bytes) ∧
      ∃ front rest, toBytes format (parse format bytes) = .ok front ∧ bytes = front ++ rest ∧
        Stops format (parse format bytes) rest) ∧
    (∀ options, Sound format options → ∃ bytes, toBytes format options = .ok bytes ∧
      bytes.length = wireSize format options ∧ parse format bytes = options) ∧
    (∀ options, (∃ failure, toBytes format options = .error failure) ↔
      ∃ option ∈ options, format.hasLength option.tag = true ∧ 255 < option.value.length) ∧
    ∀ dhcp : Dhcp, Sound .dhcp dhcp.options →
      ∃ bytes, (∀ written, (Packet.single (.dhcp dhcp)).serialize = .ok written ↔
          dhcp.headerSize < 2 ^ 32 ∧ written = bytes) ∧
        Dhcp.decode bytes = .ok ⟨dhcp, [], none⟩ := by
  refine ⟨?_, ?_, toBytes_eq_error_iff format, ?_⟩
  · intro bytes
    have readable := (readable_parse format bytes).1
    rcases exists_rest format bytes with ⟨rest, split, stops⟩
    exact ⟨readable.sound, _, rest, readable.toBytes_eq, split, stops⟩
  · intro options sound
    exact ⟨_, sound.readable.toBytes_eq, length_toFlatBytes format options,
      parse_toBytes sound.readable⟩
  · intro dhcp sound
    exact ⟨_, fun written => Dhcp.serialize_eq_ok sound.readable,
      dhcp.decode_written sound.readable⟩

/-- The type of a message, padding, a time and the end. -/
def leaseOptions : OptionList :=
  [⟨DhcpMessageType.tag, [5]⟩, ⟨padTag, []⟩, ⟨Dhcp.TimeOption.leaseTime.tag, [0, 0, 0x0e, 0x10]⟩,
    ⟨endTag, []⟩]

theorem leaseOptions_read : Sound .dhcp leaseOptions ∧
    ∃ bytes, toBytes .dhcp leaseOptions = .ok bytes ∧ bytes.length = 11 ∧
      parse .dhcp bytes = leaseOptions := by
  have sound : Sound .dhcp leaseOptions := ⟨by decide, by decide, by decide⟩
  exact ⟨sound, (parse_exact .dhcp).2.1 leaseOptions sound⟩

end OptionList

end PacketStack
