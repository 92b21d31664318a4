import Mathlib.Data.List.TakeWhile
import PacketStack.Options
import PacketStack.Proofs.Header.Writing

/-!
Lists of tagged options that are written and read again.

Main statements: `parse_toBytes` and `readable_parse` say which lists of options survive,
`turns_write` what is written of a list.
-/

namespace PacketStack

variable {format : OptionFormat}

def TaggedOption.Whole (format : OptionFormat) (option : TaggedOption) : Prop :=
  if format.hasLength option.tag then option.value.length ≤ 255 else option.value = []

theorem TaggedOption.length_toBytes (format : OptionFormat) (option : TaggedOption) :
    (option.toBytes format).length = option.wireSize format := by
  unfold toBytes wireSize
  split
  · simp only [List.length_cons]
    omega
  · rfl

theorem TaggedOption.Whole.fits {option : TaggedOption} (whole : option.Whole format) :
    option.fits format = true := by
  unfold Whole at whole
  unfold TaggedOption.fits
  split at whole
  · simp [whole]
  · rename_i bare
    simp [bare]

namespace OptionList

def Readable (format : OptionFormat) : OptionList → Prop
  | [] => True
  | option :: rest =>
      option.Whole format ∧ (format.isEnd option.tag = true → rest = []) ∧ Readable format rest

theorem Readable.fits {options : OptionList} (readable : Readable format options) :
    ∀ option ∈ options, TaggedOption.fits format option = true := by
  induction options with
  | nil => simp
  | cons option rest ih =>
      rcases readable with ⟨whole, _, others⟩
      exact List.forall_mem_cons.mpr ⟨whole.fits, ih others⟩

def toFlatBytes (format : OptionFormat) (options : OptionList) : Bytes :=
  options.flatMap (TaggedOption.toBytes format)

@[simp] theorem length_toFlatBytes (format : OptionFormat) (options : OptionList) :
    (toFlatBytes format options).length = wireSize format options := by
  induction options with
  | nil => rfl
  | cons option rest ih =>
      rw [toFlatBytes, List.flatMap_cons, List.length_append, TaggedOption.length_toBytes,
        ← toFlatBytes, ih]
      rfl

theorem parse_toBytes_append {option : TaggedOption} (whole : option.Whole format)
    (goesOn : format.isEnd option.tag = false) (rest : Bytes) :
    parse format (option.toBytes format ++ rest) = option :: parse format rest := by
  rcases option with ⟨tag, value⟩
  unfold TaggedOption.Whole at whole
  unfold TaggedOption.toBytes
  split at whole
  · rename_i lengthy
    have short : value.length ≤ 255 := whole
    have length : (UInt8.ofNat value.length).toNat = value.length := by
      rw [UInt8.toNat_ofNat']
      omega
    rw [if_pos lengthy, List.cons_append, List.cons_append, parse]
    simp [lengthy, length]
  · rename_i bare
    subst whole
    rw [if_neg bare, List.cons_append, List.nil_append, parse.eq_def]
    simp [bare, goesOn]

theorem parse_toBytes {options : OptionList} (readable : Readable format options) :
    parse format (toFlatBytes format options) = options := by
  induction options with
  | nil => simp [toFlatBytes, parse]
  | cons option rest ih =>
      rcases readable with ⟨whole, last, others⟩
      rw [toFlatBytes, List.flatMap_cons, ← toFlatBytes]
      cases ends : format.isEnd option.tag with
      | false => rw [parse_toBytes_append whole ends, ih others]
      | true =>
          have bare : format.hasLength option.tag = false := by
            simp only [OptionFormat.isEnd, Bool.and_eq_true, beq_iff_eq] at ends
            rw [ends.1, ends.2]
            rfl
          have empty : option.value = [] := by
            unfold TaggedOption.Whole at whole
            rwa [bare] at whole
          rcases option with ⟨tag, value⟩
          subst empty
          simp [last ends, TaggedOption.toBytes, toFlatBytes, parse, bare, ends]

theorem readable_parse (format : OptionFormat) (bytes : Bytes) :
    Readable format (parse format bytes) ∧
      wireSize format (parse format bytes) ≤ bytes.length := by
  fun_induction parse format bytes with
  | case1 => exact ⟨trivial, Nat.le_refl _⟩
  | case2 tag rest bare ends =>
      simp only [Bool.not_eq_eq_eq_not, Bool.not_true] at bare
      refine ⟨⟨?_, fun _ => rfl, trivial⟩, ?_⟩
      · simp [TaggedOption.Whole, bare]
      · simp [wireSize, sizeSum, TaggedOption.wireSize, bare]
  | case3 tag rest bare goesOn ih =>
      simp only [Bool.not_eq_eq_eq_not, Bool.not_true] at bare
      rcases ih with ⟨readable, fits⟩
      refine ⟨⟨?_, fun ends => absurd ends goesOn, readable⟩, ?_⟩
      · simp [TaggedOption.Whole, bare]
      · simp only [wireSize, sizeSum, TaggedOption.wireSize, bare, List.length_cons] at fits ⊢
        simp only [Bool.false_eq_true, if_false]
        omega
  | case4 tag lengthy => exact ⟨trivial, Nat.zero_le _⟩
  | case5 tag lengthy length values value whole =>
      rename_i ih
      simp only [Bool.not_eq_true', Bool.not_eq_false] at lengthy
      rcases ih with ⟨readable, fits⟩
      have small : length.toNat < 256 := length.toNat_lt
      have room : length.toNat ≤ values.length := by
        have cut : value.length = min length.toNat values.length := List.length_take
        omega
      have goesOn : format.isEnd tag = false := by
        cases format with
        | dot11 => rfl
        | dhcp =>
            simp only [OptionFormat.hasLength, Bool.and_eq_true, bne_iff_ne] at lengthy
            simp [OptionFormat.isEnd, lengthy.2]
      refine ⟨⟨?_, fun ends => by simp [goesOn] at ends, readable⟩, ?_⟩
      · simp only [TaggedOption.Whole, lengthy, if_true]
        omega
      · simp only [wireSize, sizeSum, TaggedOption.wireSize, lengthy, if_true, List.length_cons,
          List.length_drop] at fits ⊢
        omega
  | case6 tag lengthy length values value short => exact ⟨trivial, Nat.zero_le _⟩

theorem turns_write {offset : Nat} {options : OptionList} {frame bytes : Bytes}
    (fits : ∀ option ∈ options, TaggedOption.fits format option = true) :
    (OptionList.write format offset options).Turns frame () bytes ↔
      offset + wireSize format options ≤ frame.length ∧
        bytes = frame.splice offset (toFlatBytes format options) := by
  have all : options.takeWhile (TaggedOption.fits format) = options := by
    rw [List.takeWhile_eq_self_iff]
    exact fits
  have rest : options.dropWhile (TaggedOption.fits format) = [] := by
    rw [List.dropWhile_eq_nil_iff]
    exact fits
  unfold OptionList.write
  simp only [Write.turns_reach_bind, Write.turns_frame_bind, all, rest]
  by_cases room : frame.length - offset < wireSize format options
  · rw [if_pos room]
    constructor
    · intro holds
      rcases holds with ⟨_, turned⟩
      rcases Write.turns_bind.mp turned with ⟨_, _, thrown, _⟩
      exact absurd thrown Write.not_turns_throw
    · intro holds
      rcases holds with ⟨inside, _⟩
      omega
  · rw [if_neg room]
    have size : (options.flatMap (TaggedOption.toBytes format)).length =
        wireSize format options := length_toFlatBytes format options
    simp only [Write.turns_put_bind, Write.turns_pure, size, true_and]
    constructor
    · intro holds
      rcases holds with ⟨_, inside, written⟩
      exact ⟨inside, written⟩
    · intro holds
      rcases holds with ⟨inside, written⟩
      exact ⟨by omega, inside, written⟩

end OptionList

end PacketStack
