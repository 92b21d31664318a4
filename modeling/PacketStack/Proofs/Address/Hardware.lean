import PacketStack.Address.Hardware

/-!
The texts of hardware addresses.

An address is spelled by six groups of one or two hexadecimal digits with a colon or a hyphen
between neighbours. The reader takes these texts, and besides them those in which a plus sign stands
in front of a single digit. Main statement: `HwAddress.parse_iff_signed`.
-/

namespace PacketStack

namespace Text

def lowerDigits : List Char :=
  ['0', '1', '2', '3', '4', '5', '6', '7', '8', '9', 'a', 'b', 'c', 'd', 'e', 'f']

def upperDigits : List Char :=
  ['0', '1', '2', '3', '4', '5', '6', '7', '8', '9', 'A', 'B', 'C', 'D', 'E', 'F']

def IsHexDigit (c : Char) (n : Nat) : Prop := lowerDigits[n]? = some c ∨ upperDigits[n]? = some c

instance (c : Char) (n : Nat) : Decidable (IsHexDigit c n) :=
  inferInstanceAs (Decidable (_ ∨ _))

variable {c : Char} {n : Nat}

theorem IsHexDigit.of_all {P : Char → Prop} [DecidablePred P] (digit : IsHexDigit c n)
    (all : (lowerDigits ++ upperDigits).all (P ·) = true) : P c := by
  have listed : c ∈ lowerDigits ++ upperDigits := by
    rcases digit with lower | upper
    · exact List.mem_append_left _ (List.mem_of_getElem? lower)
    · exact List.mem_append_right _ (List.mem_of_getElem? upper)
  exact of_decide_eq_true (List.all_eq_true.mp all c listed)

theorem IsHexDigit.lt (digit : IsHexDigit c n) : n < 16 := by
  rcases digit with lower | upper
  · exact (List.getElem?_eq_some_iff.mp lower).1
  · exact (List.getElem?_eq_some_iff.mp upper).1

theorem isHexDigit_hexDigit (small : n < 16) : IsHexDigit (hexDigit n) n := by
  have all : ∀ n : Fin 16, IsHexDigit (hexDigit n) n := by decide
  exact all ⟨n, small⟩

theorem toNat_lt_of_hexValue? (read : hexValue? c = some n) : c.toNat < 128 := by
  have ascii {last : Char} (below : c ≤ last) : c.toNat ≤ last.toNat :=
    UInt32.le_iff_toNat_le.mp below
  unfold hexValue? at read
  split at read
  · rename_i decimal
    exact Nat.lt_of_le_of_lt (ascii decimal.2) (by decide)
  · split at read
    · rename_i lower
      exact Nat.lt_of_le_of_lt (ascii lower.2) (by decide)
    · split at read
      · rename_i upper
        exact Nat.lt_of_le_of_lt (ascii upper.2) (by decide)
      · cases read

theorem hexValue?_eq_some_iff : hexValue? c = some n ↔ IsHexDigit c n := by
  constructor
  · intro read
    have all : ∀ code : Fin 128, ∀ value ∈ hexValue? (Char.ofNat code),
        IsHexDigit (Char.ofNat code) value := by
      decide
    have found := all ⟨c.toNat, toNat_lt_of_hexValue? read⟩ n
    rw [Char.ofNat_toNat] at found
    exact found read
  · intro digit
    have read := digit.of_all
      (P := fun c => ∀ value : Fin 16, IsHexDigit c value → hexValue? c = some value.val)
      (by decide)
    exact read ⟨n, digit.lt⟩ digit

end Text

namespace HwAddress

def IsSeparator (c : Char) : Prop := c = ':' ∨ c = '-'

instance (c : Char) : Decidable (IsSeparator c) := inferInstanceAs (Decidable (_ ∨ _))

/-- One or two hexadecimal digits and their value. -/
inductive Group : List Char → Nat → Prop where
  | single {c : Char} {n : Nat} (digit : Text.IsHexDigit c n) : Group [c] n
  | double {high low : Char} {m n : Nat} (first : Text.IsHexDigit high m)
      (second : Text.IsHexDigit low n) : Group [high, low] (16 * m + n)

/-- A group, or a single digit with a plus sign in front of it. -/
inductive SignedGroup : List Char → Nat → Prop where
  | plain {text : List Char} {n : Nat} (group : Group text n) : SignedGroup text n
  | signed {c : Char} {n : Nat} (digit : Text.IsHexDigit c n) : SignedGroup ['+', c] n

/-- Groups with a separator between neighbours, and their values. -/
inductive Spells (group : List Char → Nat → Prop) : List Char → List Nat → Prop where
  | last {text : List Char} {n : Nat} (spelled : group text n) : Spells group text [n]
  | more {front rest : List Char} {separator : Char} {n : Nat} {values : List Nat}
      (spelled : group front n) (separates : IsSeparator separator)
      (others : Spells group rest values) :
      Spells group (front ++ separator :: rest) (n :: values)

variable {text front rest : List Char} {values : List Nat} {n : Nat}

theorem Group.lt (group : Group text n) : n < 256 := by
  cases group with
  | single digit => exact Nat.lt_trans digit.lt (by decide)
  | double first second =>
      have high := first.lt
      have low := second.lt
      omega

theorem Group.of_all {P : Char → Prop} [DecidablePred P] (group : Group text n)
    (all : (Text.lowerDigits ++ Text.upperDigits).all (P ·) = true) : ∀ c ∈ text, P c := by
  cases group with
  | single digit => exact List.forall_mem_singleton.mpr (digit.of_all all)
  | double first second =>
      exact List.forall_mem_cons.mpr
        ⟨first.of_all all, List.forall_mem_singleton.mpr (second.of_all all)⟩

theorem SignedGroup.lt (group : SignedGroup text n) : n < 256 := by
  cases group with
  | plain group => exact group.lt
  | signed digit => exact Nat.lt_trans digit.lt (by decide)

theorem SignedGroup.unseparated (group : SignedGroup text n) : ∀ c ∈ text, ¬ IsSeparator c := by
  cases group with
  | plain group => exact group.of_all (by decide)
  | signed digit =>
      have unseparated := digit.of_all (P := (¬ IsSeparator ·)) (by decide)
      exact List.forall_mem_cons.mpr ⟨by decide, List.forall_mem_singleton.mpr unseparated⟩

theorem groupValue?_double {high low : Char} (plain : high ≠ '+') :
    groupValue? [high, low] = some n ↔
      ∃ first second, Text.hexValue? high = some first ∧ Text.hexValue? low = some second ∧
        16 * first + second = n := by
  rw [groupValue?]
  · cases Text.hexValue? high <;> cases Text.hexValue? low <;> simp
  · exact plain

theorem groupValue?_eq_some_iff : groupValue? text = some n ↔ SignedGroup text n := by
  constructor
  · intro read
    match text with
    | [] => cases read
    | [c] => exact .plain (.single (Text.hexValue?_eq_some_iff.mp read))
    | [high, low] =>
        by_cases sign : high = '+'
        · subst sign
          exact .signed (Text.hexValue?_eq_some_iff.mp read)
        · rcases (groupValue?_double sign).mp read with ⟨m, n, first, second, rfl⟩
          exact .plain (.double (Text.hexValue?_eq_some_iff.mp first)
            (Text.hexValue?_eq_some_iff.mp second))
    | _ :: _ :: _ :: _ => cases read
  · intro group
    cases group with
    | signed digit => exact Text.hexValue?_eq_some_iff.mpr digit
    | plain group =>
        cases group with
        | single digit => exact Text.hexValue?_eq_some_iff.mpr digit
        | double first second =>
            have plain := first.of_all (P := (· ≠ '+')) (by decide)
            exact (groupValue?_double plain).mpr
              ⟨_, _, Text.hexValue?_eq_some_iff.mpr first, Text.hexValue?_eq_some_iff.mpr second,
                rfl⟩

theorem groups_cons_of_separator {c : Char} (separates : IsSeparator c) (rest : List Char) :
    groups (c :: rest) = [] :: groups rest := if_pos separates

theorem groups_cons {c : Char} (inside : ¬ IsSeparator c) {rest group : List Char}
    {others : List (List Char)} (found : groups rest = group :: others) :
    groups (c :: rest) = (c :: group) :: others := by
  have inside : ¬ (c = ':' ∨ c = '-') := inside
  rw [groups, if_neg inside, found]

theorem groups_of_unseparated (inside : ∀ c ∈ text, ¬ IsSeparator c) : groups text = [text] := by
  induction text with
  | nil => rfl
  | cons c rest ih =>
      rcases List.forall_mem_cons.mp inside with ⟨first, others⟩
      exact groups_cons first (ih others)

theorem groups_append (inside : ∀ c ∈ front, ¬ IsSeparator c) {separator : Char}
    (separates : IsSeparator separator) (rest : List Char) :
    groups (front ++ separator :: rest) = front :: groups rest := by
  induction front with
  | nil => exact groups_cons_of_separator separates rest
  | cons c front ih =>
      rcases List.forall_mem_cons.mp inside with ⟨first, others⟩
      exact groups_cons first (ih others)

theorem groups_cases (text : List Char) :
    groups text = [text] ∨ ∃ front separator rest, text = front ++ separator :: rest ∧
      IsSeparator separator ∧ groups text = front :: groups rest := by
  induction text with
  | nil => exact .inl rfl
  | cons c text ih =>
      by_cases separates : IsSeparator c
      · exact .inr ⟨[], c, text, rfl, separates, groups_cons_of_separator separates text⟩
      · rcases ih with alone | ⟨front, separator, rest, rfl, between, found⟩
        · exact .inl (groups_cons separates alone)
        · exact .inr ⟨c :: front, separator, rest, rfl, between, groups_cons separates found⟩

theorem mapM_groups_cons {group : List Char} {others : List (List Char)} :
    (group :: others).mapM groupValue? = some values ↔
      ∃ n rest, groupValue? group = some n ∧ others.mapM groupValue? = some rest ∧
        n :: rest = values := by
  rw [List.mapM_cons]
  cases groupValue? group <;> cases others.mapM groupValue? <;> simp

theorem Spells.mapM_groups (spells : Spells SignedGroup text values) :
    (groups text).mapM groupValue? = some values := by
  induction spells with
  | last spelled =>
      rw [groups_of_unseparated spelled.unseparated]
      exact mapM_groups_cons.mpr ⟨_, [], groupValue?_eq_some_iff.mpr spelled, rfl, rfl⟩
  | more spelled separates others ih =>
      rw [groups_append spelled.unseparated separates]
      exact mapM_groups_cons.mpr ⟨_, _, groupValue?_eq_some_iff.mpr spelled, ih, rfl⟩

theorem spells_of_mapM_groups {text : List Char} {values : List Nat}
    (read : (groups text).mapM groupValue? = some values) : Spells SignedGroup text values := by
  rcases groups_cases text with alone | ⟨front, separator, rest, same, separates, found⟩
  · rw [alone, mapM_groups_cons] at read
    rcases read with ⟨n, none, spelled, read, rfl⟩
    cases read
    exact .last (groupValue?_eq_some_iff.mp spelled)
  · rw [found, mapM_groups_cons] at read
    rcases read with ⟨n, others, spelled, read, rfl⟩
    have behind := spells_of_mapM_groups read
    rw [same]
    exact .more (groupValue?_eq_some_iff.mp spelled) separates behind
termination_by text.length
decreasing_by
  rw [same, List.length_append, List.length_cons]
  omega

theorem mapM_groups_eq_some_iff :
    (groups text).mapM groupValue? = some values ↔ Spells SignedGroup text values :=
  ⟨spells_of_mapM_groups, Spells.mapM_groups⟩

theorem Spells.lt (spells : Spells SignedGroup text values) : ∀ value ∈ values, value < 256 := by
  induction spells with
  | last spelled => exact List.forall_mem_singleton.mpr spelled.lt
  | more spelled separates others ih => exact List.forall_mem_cons.mpr ⟨spelled.lt, ih⟩

theorem Group.unsigned (group : Group text n) : '+' ∉ text := by
  have plain : ∀ c ∈ text, c ≠ '+' := group.of_all (by decide)
  exact fun sign => plain '+' sign rfl

theorem Spells.unsigned (spells : Spells Group text values) : '+' ∉ text := by
  induction spells with
  | last spelled => exact spelled.unsigned
  | more spelled separates others ih =>
      rw [List.mem_append, List.mem_cons]
      rintro (inFront | rfl | behind)
      · exact spelled.unsigned inFront
      · exact absurd separates (by decide)
      · exact ih behind

theorem Spells.signed (spells : Spells Group text values) : Spells SignedGroup text values := by
  induction spells with
  | last spelled => exact .last (.plain spelled)
  | more spelled separates others ih => exact .more (.plain spelled) separates ih

theorem SignedGroup.plain_of_unsigned (group : SignedGroup text n) (unsigned : '+' ∉ text) :
    Group text n := by
  cases group with
  | plain group => exact group
  | signed digit => exact absurd List.mem_cons_self unsigned

theorem Spells.plain_of_unsigned (spells : Spells SignedGroup text values)
    (unsigned : '+' ∉ text) : Spells Group text values := by
  induction spells with
  | last spelled => exact .last (spelled.plain_of_unsigned unsigned)
  | more spelled separates others ih =>
      rw [List.mem_append, List.mem_cons, not_or, not_or] at unsigned
      rcases unsigned with ⟨inFront, _, behind⟩
      exact .more (spelled.plain_of_unsigned inFront) separates (ih behind)

theorem spells_group_iff :
    Spells Group text values ↔ Spells SignedGroup text values ∧ '+' ∉ text :=
  ⟨fun spells => ⟨spells.signed, spells.unsigned⟩,
    fun ⟨spells, unsigned⟩ => spells.plain_of_unsigned unsigned⟩

theorem group_hexByte (byte : UInt8) : Group (Text.hexByte byte) byte.toNat := by
  have high : byte.toNat / 16 < 16 := Nat.div_lt_of_lt_mul byte.toNat_lt
  have low : byte.toNat % 16 < 16 := Nat.mod_lt _ (by decide)
  have group := Group.double (Text.isHexDigit_hexDigit high) (Text.isHexDigit_hexDigit low)
  rwa [Nat.div_add_mod] at group

theorem spells_hexBytes (byte : UInt8) (rest : Bytes) :
    Spells Group (List.flatten (((byte :: rest).map Text.hexByte).intersperse [':']))
      ((byte :: rest).map UInt8.toNat) := by
  induction rest generalizing byte with
  | nil => exact .last (group_hexByte byte)
  | cons next rest ih =>
      have behind := ih next
      rw [List.map_cons, List.map_cons] at behind ⊢
      rw [List.map_cons, List.intersperse_cons_cons, List.flatten_cons, List.flatten_cons]
      exact .more (group_hexByte byte) (.inl rfl) behind

theorem octets_ofNat {bytes : Bytes} (six : bytes.length = 6) :
    (ofNat (Bytes.toNatBE bytes)).octets = bytes := by
  have small := Bytes.toNatBE_lt bytes
  have inverse := Bytes.ofNatBE_toNatBE bytes
  rw [six] at small inverse
  have number : (ofNat (Bytes.toNatBE bytes)).toNat = Bytes.toNatBE bytes := Nat.mod_eq_of_lt small
  rw [octets, number, inverse]

@[simp] theorem ofNat_octets (address : HwAddress) :
    ofNat (Bytes.toNatBE address.octets) = address := by
  have small : address.toNat < Bytes.valueCount 6 := address.bits.isLt
  rw [octets, Bytes.toNatBE_ofNatBE, Nat.mod_eq_of_lt small, ofNat_toNat]

theorem toNat_map_ofNat (small : ∀ value ∈ values, value < 256) :
    (values.map UInt8.ofNat).map UInt8.toNat = values := by
  induction values with
  | nil => rfl
  | cons value values ih =>
      rcases List.forall_mem_cons.mp small with ⟨first, others⟩
      rw [List.map_cons, List.map_cons, UInt8.toNat_ofNat', Nat.mod_eq_of_lt first, ih others]

/-- The values of the groups that spell an address are those of its octets. -/
def SpelledBy (group : List Char → Nat → Prop) (address : HwAddress) (text : String) : Prop :=
  Spells group text.toList (address.octets.map UInt8.toNat)

variable {address : HwAddress}

theorem parse_eq_ok_iff {text : String} :
    parse text = .ok address ↔ address.SpelledBy SignedGroup text := by
  rw [SpelledBy, ← mapM_groups_eq_some_iff]
  constructor
  · intro read
    unfold parse at read
    split at read
    · rename_i a b c d e f found
      cases read
      have small := (spells_of_mapM_groups found).lt
      rw [octets_ofNat rfl, toNat_map_ofNat small]
      exact found
    · cases read
  · intro found
    have six : address.octets.length = 6 := length_octets address
    have whole := ofNat_octets address
    generalize address.octets = octets at six whole found
    match octets, six with
    | [a, b, c, d, e, f], _ =>
        rw [parse, found, ← whole]
        simp

theorem parse_cases (text : String) :
    (∃ address, parse text = .ok address) ∨ parse text = .refuse (.invalidAddress text) := by
  fun_cases parse text with
  | case1 => exact .inl ⟨_, rfl⟩
  | case2 => exact .inr rfl

theorem parse_eq_refuse_iff {text : String} :
    parse text = .refuse (.invalidAddress text) ↔
      ∀ address : HwAddress, ¬ address.SpelledBy SignedGroup text := by
  constructor
  · intro refused address spelled
    rw [parse_eq_ok_iff.mpr spelled] at refused
    cases refused
  · intro unspelled
    rcases parse_cases text with ⟨address, accepted⟩ | refused
    · exact absurd (parse_eq_ok_iff.mp accepted) (unspelled address)
    · exact refused

theorem spelledBy_text (address : HwAddress) : address.SpelledBy Group address.text := by
  have six : address.octets.length = 6 := length_octets address
  rw [SpelledBy, HwAddress.text, Text.hexSeparated, String.toList_ofList]
  cases same : address.octets with
  | nil =>
      rw [same] at six
      cases six
  | cons byte rest => exact spells_hexBytes byte rest

/-- Exactly the texts of six groups are read, each of one or two digits or of a plus sign and a
digit, and all others are refused. Without the plus signs these are the texts of six groups of
digits, the text of an address among them. -/
theorem parse_iff_signed (text : String) :
    (∀ address, parse text = .ok address ↔ address.SpelledBy SignedGroup text) ∧
      (parse text = .refuse (.invalidAddress text) ↔
        ∀ address : HwAddress, ¬ address.SpelledBy SignedGroup text) ∧
      ((∀ address, parse text = .ok address ↔ address.SpelledBy Group text) ↔
        '+' ∉ text.toList ∨ parse text = .refuse (.invalidAddress text)) ∧
      ∀ address : HwAddress, parse address.text = .ok address := by
  refine ⟨fun _ => parse_eq_ok_iff, parse_eq_refuse_iff, ?_, ?_⟩
  · constructor
    · intro agrees
      rcases parse_cases text with ⟨address, accepted⟩ | refused
      · exact .inl ((agrees address).mp accepted).unsigned
      · exact .inr refused
    · rintro (unsigned | refused) address
      · rw [parse_eq_ok_iff, SpelledBy, SpelledBy, spells_group_iff]
        exact (and_iff_left unsigned).symm
      · have unspelled := parse_eq_refuse_iff.mp refused address
        rw [parse_eq_ok_iff]
        exact iff_of_false unspelled fun spelled => unspelled spelled.signed
  · intro address
    exact parse_eq_ok_iff.mpr (spelledBy_text address).signed

/-- Two of the six groups have a plus sign in front of their only digit. -/
theorem signedGroups_accepted :
    parse "+a:bb:cc:dd:ee:+f" = .ok (ofNat 0x0abbccddee0f) ∧
      ∀ address : HwAddress, ¬ address.SpelledBy Group "+a:bb:cc:dd:ee:+f" := by
  refine ⟨rfl, fun address spelled => ?_⟩
  exact spelled.unsigned (by decide)

end HwAddress

end PacketStack
