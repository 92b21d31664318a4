import PacketStack.Proofs.Application.OptionLists

/-!
Options that are read and set by their meaning.

A view of a tag says what the options of the tag mean and how a value is laid out in one. Main
statements: `OptionView.get_set` reads a value back, `OptionView.get_set_of_ne` says that it is no
concern of other tags, `OptionList.putIn_set` what becomes of the other options and
`OptionList.search?_parse_toFlatBytes` which option is found once the list has been written.
-/

namespace PacketStack

/-- A list of options with one more in it, in the place of the first one of its tag, or behind all
the others if there is none. -/
inductive OptionList.PutIn (option : TaggedOption) : OptionList → OptionList → Prop where
  | replaced {front back : OptionList} {old : TaggedOption} (same : old.tag = option.tag)
      (first : ∀ other ∈ front, other.tag ≠ option.tag) :
      PutIn option (front ++ old :: back) (front ++ option :: back)
  | added {options : OptionList} (absent : ∀ other ∈ options, other.tag ≠ option.tag) :
      PutIn option options (options ++ [option])

namespace OptionList

variable {tag : UInt8} {option : TaggedOption} {before after options : OptionList}

theorem search?_eq_none_iff : search? tag options = none ↔ ∀ other ∈ options, other.tag ≠ tag := by
  simp [search?]

theorem search?_append_of_absent {front : OptionList} (absent : ∀ other ∈ front, other.tag ≠ tag)
    (rest : OptionList) : search? tag (front ++ rest) = search? tag rest := by
  rw [search?, List.find?_append, ← search?, search?_eq_none_iff.mpr absent]
  rfl

theorem search?_cons_of_ne (apart : option.tag ≠ tag) (rest : OptionList) :
    search? tag (option :: rest) = search? tag rest :=
  List.find?_cons_of_neg (by simpa using apart)

theorem search?_cons_self (option : TaggedOption) (rest : OptionList) :
    search? option.tag (option :: rest) = some option :=
  List.find?_cons_of_pos (by simp)

theorem putIn_set (option : TaggedOption) (options : OptionList) :
    PutIn option options (set option options) := by
  induction options with
  | nil => exact .added nofun
  | cons first rest ih =>
      by_cases same : first.tag = option.tag
      · rw [set, if_pos same]
        exact @PutIn.replaced _ [] rest first same nofun
      · rw [set, if_neg same]
        generalize set option rest = put at ih
        cases ih with
        | @replaced front back old again others =>
            exact @PutIn.replaced _ (first :: front) back old again
              (List.forall_mem_cons.mpr ⟨same, others⟩)
        | added absent => exact .added (List.forall_mem_cons.mpr ⟨same, absent⟩)

namespace PutIn

theorem search?_eq (put : PutIn option before after) : search? option.tag after = some option := by
  cases put with
  | replaced same first => rw [search?_append_of_absent first, search?_cons_self]
  | added absent => rw [search?_append_of_absent absent, search?_cons_self]

theorem search?_of_ne (put : PutIn option before after) (apart : tag ≠ option.tag) :
    search? tag after = search? tag before := by
  cases put with
  | @replaced front back old same first =>
      have old (rest : OptionList) : search? tag (old :: rest) = search? tag rest :=
        search?_cons_of_ne (same ▸ apart.symm) rest
      have new (rest : OptionList) : search? tag (option :: rest) = search? tag rest :=
        search?_cons_of_ne apart.symm rest
      simp only [search?, List.find?_append] at old new ⊢
      rw [old, new]
  | added absent =>
      have new : search? tag [option] = none := search?_cons_of_ne apart.symm []
      simp only [search?, List.find?_append] at new ⊢
      rw [new, Option.or_none]

theorem length_eq_succ_iff (put : PutIn option before after) :
    after.length = before.length + 1 ↔ search? option.tag before = none := by
  cases put with
  | @replaced front back old same first =>
      have found : search? option.tag (front ++ old :: back) = some old := by
        rw [search?_append_of_absent first, ← same, search?_cons_self]
      rw [found]
      simp
  | added absent =>
      rw [search?_eq_none_iff.mpr absent]
      simp

theorem takeWhile_eq (put : PutIn option before after) :
    after.takeWhile (·.tag != option.tag) = before.takeWhile (·.tag != option.tag) := by
  cases put with
  | @replaced front back old same first =>
      have passed : ∀ other ∈ front, (other.tag != option.tag) = true := by simpa using first
      rw [List.takeWhile_append_of_pos passed, List.takeWhile_append_of_pos passed,
        List.takeWhile_cons_of_neg (by simp), List.takeWhile_cons_of_neg (by simp [same])]
  | @added options absent =>
      have passed : ∀ other ∈ before, (other.tag != option.tag) = true := by simpa using absent
      rw [List.takeWhile_append_of_pos passed, List.takeWhile_cons_of_neg (by simp),
        List.append_nil, List.takeWhile_eq_self_iff.mpr passed]

end PutIn

variable {format : OptionFormat}

theorem exists_parse_append (fits : option.fits format = true)
    (goesOn : format.isEnd option.tag = false) (rest : Bytes) :
    ∃ read, read.tag = option.tag ∧ (format.hasLength option.tag = true → read = option) ∧
      parse format (option.toBytes format ++ rest) = read :: parse format rest := by
  cases lengthy : format.hasLength option.tag with
  | true =>
      have whole : option.Whole format := by
        rw [TaggedOption.Whole, if_pos lengthy]
        simpa [TaggedOption.fits, lengthy] using fits
      exact ⟨option, rfl, fun _ => rfl, parse_toBytes_append whole goesOn rest⟩
  | false =>
      have bare : ¬ format.hasLength option.tag = true := by simp [lengthy]
      have whole : TaggedOption.Whole format ⟨option.tag, []⟩ := by
        rw [TaggedOption.Whole, if_neg bare]
      have same : option.toBytes format = TaggedOption.toBytes format ⟨option.tag, []⟩ := by
        rw [TaggedOption.toBytes, TaggedOption.toBytes, if_neg bare, if_neg bare]
      refine ⟨⟨option.tag, []⟩, rfl, fun truth => Bool.noConfusion truth, ?_⟩
      rw [same]
      exact parse_toBytes_append whole goesOn rest

theorem search?_parse_toFlatBytes (lengthy : format.hasLength tag = true)
    (fits : ∀ option ∈ options, TaggedOption.fits format option = true)
    (goesOn : ∀ option ∈ options.takeWhile (·.tag != tag), format.isEnd option.tag = false) :
    search? tag (parse format (toFlatBytes format options)) = search? tag options := by
  have valued : format.isEnd tag = false := by
    by_contra ends
    rcases isEnd_eq_true_iff.mp (by simpa using ends) with ⟨rfl, rfl⟩
    cases lengthy
  induction options with
  | nil => simp [toFlatBytes, parse]
  | cons first rest ih =>
      rcases List.forall_mem_cons.mp fits with ⟨firstFits, restFit⟩
      rw [toFlatBytes_cons]
      by_cases same : first.tag = tag
      · subst same
        rcases exists_parse_append firstFits valued (toFlatBytes format rest) with
          ⟨read, -, kept, parsed⟩
        rw [parsed, kept lengthy, search?_cons_self, search?_cons_self]
      · rw [List.takeWhile_cons_of_pos (by simpa using same)] at goesOn
        rcases List.forall_mem_cons.mp goesOn with ⟨firstGoesOn, restGoesOn⟩
        rcases exists_parse_append firstFits firstGoesOn (toFlatBytes format rest) with
          ⟨read, tag_eq, -, parsed⟩
        rw [parsed, search?_cons_of_ne (tag_eq ▸ same), search?_cons_of_ne same,
          ih restFit restGoesOn]

end OptionList

/-- What the options of a tag mean. -/
structure OptionReading (α : Type) where
  tag : UInt8
  decode : TaggedOption → Outcome α

/-- What the options of a tag mean, and how the values that have a layout are laid out. -/
structure OptionView (α : Type) extends OptionReading α where
  Valid : α → Prop
  encode : α → Bytes
  decode_encode : ∀ value, Valid value → decode ⟨tag, encode value⟩ = .ok value

namespace OptionReading

variable {α : Type} {before after : OptionList}

def get (reading : OptionReading α) (options : OptionList) : Outcome α := do
  reading.decode (← options.get reading.tag)

theorem get_congr {reading : OptionReading α}
    (same : after.search? reading.tag = before.search? reading.tag) :
    reading.get after = reading.get before := by
  rw [get, get, OptionList.get, OptionList.get, same]

theorem get_of_search? {reading : OptionReading α} {option : TaggedOption}
    (found : after.search? reading.tag = some option) :
    reading.get after = reading.decode option := by
  rw [get, OptionList.get, found]
  rfl

end OptionReading

namespace OptionView

variable {α β : Type} {view : OptionView α} {value : α}

def option (view : OptionView α) (value : α) : TaggedOption := ⟨view.tag, view.encode value⟩

def set (view : OptionView α) (value : α) (options : OptionList) : OptionList :=
  options.set (view.option value)

theorem putIn_set (view : OptionView α) (value : α) (options : OptionList) :
    OptionList.PutIn (view.option value) options (view.set value options) :=
  OptionList.putIn_set (view.option value) options

theorem get_set_eq_decode (view : OptionView α) (value : α) (options : OptionList) :
    view.get (view.set value options) = view.decode (view.option value) :=
  OptionReading.get_of_search? (view.putIn_set value options).search?_eq

theorem get_set (valid : view.Valid value) (options : OptionList) :
    view.get (view.set value options) = .ok value := by
  rw [get_set_eq_decode]
  exact view.decode_encode value valid

theorem get_set_of_ne {reading : OptionReading β} (apart : reading.tag ≠ view.tag) (value : α)
    (options : OptionList) : reading.get (view.set value options) = reading.get options :=
  OptionReading.get_congr ((view.putIn_set value options).search?_of_ne apart)

theorem get_parse_set {format : OptionFormat} (valid : view.Valid value)
    (lengthy : format.hasLength view.tag = true) {options : OptionList}
    (fits : ∀ option ∈ view.set value options, option.fits format = true)
    (goesOn : ∀ option ∈ options.takeWhile (·.tag != view.tag),
      format.isEnd option.tag = false) :
    view.get (OptionList.parse format (OptionList.toFlatBytes format (view.set value options))) =
      .ok value := by
  have front : (view.set value options).takeWhile (·.tag != view.tag) =
      options.takeWhile (·.tag != view.tag) := (view.putIn_set value options).takeWhile_eq
  rw [← front] at goesOn
  rw [OptionReading.get_congr (OptionList.search?_parse_toFlatBytes lengthy fits goesOn),
    get_set valid]

end OptionView

end PacketStack
