import Mathlib.Data.List.TakeWhile
import PacketStack.Text.Utf8

/-!
Text that is written in UTF-8 and read again.

Main statements: `decodeLossy_encode` says that the reading which replaces flaws finds none in text
that was written, `ascii_of_encode_decodeLossy` that only bytes of ASCII are shown as ASCII.
-/

namespace PacketStack.Text.Utf8

theorem tailLength?_eq (first : UInt8) : tailLength? first =
    if first.toNat < 0x80 then some 0
    else if 0xc2 ≤ first.toNat ∧ first.toNat ≤ 0xdf then some 1
    else if 0xe0 ≤ first.toNat ∧ first.toNat ≤ 0xef then some 2
    else if 0xf0 ≤ first.toNat ∧ first.toNat ≤ 0xf4 then some 3
    else none := by
  simp only [tailLength?, UInt8.lt_iff_toNat_lt, UInt8.le_iff_toNat_le, UInt8.reduceToNat]

theorem mayFollow_eq_true_iff (first second : UInt8) : mayFollow first second = true ↔
    0x80 ≤ second.toNat ∧ second.toNat ≤ 0xbf ∧
      (first.toNat = 0xe0 → 0xa0 ≤ second.toNat) ∧ (first.toNat = 0xed → second.toNat ≤ 0x9f) ∧
      (first.toNat = 0xf0 → 0x90 ≤ second.toNat) ∧ (first.toNat = 0xf4 → second.toNat ≤ 0x8f) := by
  simp only [mayFollow, isTail, ← UInt8.toNat_inj, UInt8.le_iff_toNat_le, UInt8.reduceToNat]
  repeat' split
  all_goals simp only [Bool.and_eq_true, decide_eq_true_eq]
  all_goals omega

theorem isTail_iff (byte : UInt8) :
    isTail byte = true ↔ 0x80 ≤ byte.toNat ∧ byte.toNat ≤ 0xbf := by
  simp only [isTail, Bool.and_eq_true, decide_eq_true_eq, UInt8.le_iff_toNat_le,
    UInt8.reduceToNat]

theorem scan_of_tail {first : UInt8} (bytes rest : Bytes)
    (announced : tailLength? first = some bytes.length)
    (shortest : ∀ second, bytes.head? = some second → mayFollow first second = true)
    (follows : ∀ byte ∈ bytes.tail, isTail byte = true) :
    scan (first :: (bytes ++ rest)) = some (assemble first bytes) :: scan rest := by
  have all : tail first bytes.length (bytes ++ rest) = bytes := by
    cases bytes with
    | nil =>
        cases rest with
        | nil => rfl
        | cons next rest =>
            rw [List.nil_append, tail, if_neg (fun both => both.1 rfl)]
    | cons second bytes =>
        have filled : (second :: bytes).length ≠ 0 := Nat.succ_ne_zero _
        have others : bytes.takeWhile isTail = bytes := List.takeWhile_eq_self_iff.mpr follows
        rw [List.cons_append, tail, if_pos ⟨filled, shortest second rfl⟩, List.length_cons,
          Nat.add_sub_cancel, List.take_left, others]
  rw [scan, announced]
  simp only [all, if_true, List.drop_left]

variable {first second third fourth : UInt8} {rest : Bytes}

theorem scan_one (announced : tailLength? first = some 0) :
    scan (first :: rest) = some (Char.ofNat first.toNat) :: scan rest :=
  scan_of_tail [] rest announced (fun _ absent => by cases absent)
    (fun _ absent => by cases absent)

theorem scan_two (announced : tailLength? first = some 1)
    (shortest : mayFollow first second = true) :
    scan (first :: second :: rest) =
      some (Char.ofNat (64 * (first.toNat % 32) + second.toNat % 64)) :: scan rest :=
  scan_of_tail [second] rest announced (fun _ same => by cases same; exact shortest)
    (fun _ absent => by cases absent)

theorem scan_three (announced : tailLength? first = some 2)
    (shortest : mayFollow first second = true) (follows : isTail third = true) :
    scan (first :: second :: third :: rest) =
      some (Char.ofNat (64 * (64 * (first.toNat % 16) + second.toNat % 64) +
        third.toNat % 64)) :: scan rest :=
  scan_of_tail [second, third] rest announced (fun _ same => by cases same; exact shortest)
    (fun _ member => by rwa [List.mem_singleton.mp member])

theorem scan_four (announced : tailLength? first = some 3)
    (shortest : mayFollow first second = true) (follows : isTail third = true)
    (ends : isTail fourth = true) :
    scan (first :: second :: third :: fourth :: rest) =
      some (Char.ofNat (64 * (64 * (64 * (first.toNat % 8) + second.toNat % 64) +
        third.toNat % 64) + fourth.toNat % 64)) :: scan rest := by
  apply scan_of_tail [second, third, fourth] rest announced
  · intro _ same
    cases same
    exact shortest
  · intro byte member
    rcases List.mem_cons.mp member with rfl | last
    · exact follows
    · rwa [List.mem_singleton.mp last]

theorem toNat_ofNat_of_lt {value : Nat} (small : value < 256) :
    (UInt8.ofNat value).toNat = value := by
  rw [UInt8.toNat_ofNat', Nat.mod_eq_of_lt small]

theorem isTail_ofNat (value : Nat) : isTail (UInt8.ofNat (value % 64 + 128)) = true := by
  rw [isTail_iff, toNat_ofNat_of_lt (by omega)]
  omega

theorem scan_utf8EncodeChar (c : Char) (rest : Bytes) :
    scan (String.utf8EncodeChar c ++ rest) = some c :: scan rest := by
  have valid : c.val.toNat < 0xd800 ∨ (0xdfff < c.val.toNat ∧ c.val.toNat < 0x110000) := c.valid
  have back : Char.ofNat c.val.toNat = c := Char.ofNat_toNat c
  obtain ⟨value, number⟩ : ∃ value, value = c.val.toNat := ⟨_, rfl⟩
  rw [← number] at valid back
  have last : (UInt8.ofNat (value % 64 + 128)).toNat = value % 64 + 128 :=
    toNat_ofNat_of_lt (by omega)
  have middle : (UInt8.ofNat (value / 64 % 64 + 128)).toNat = value / 64 % 64 + 128 :=
    toNat_ofNat_of_lt (by omega)
  have upper : (UInt8.ofNat (value / 4096 % 64 + 128)).toNat = value / 4096 % 64 + 128 :=
    toNat_ofNat_of_lt (by omega)
  simp only [String.utf8EncodeChar, ← number]
  split
  · have first : (UInt8.ofNat value).toNat = value := toNat_ofNat_of_lt (by omega)
    have announced : tailLength? (UInt8.ofNat value) = some 0 := by
      rw [tailLength?_eq, first, if_pos (by omega)]
    rw [List.cons_append, List.nil_append, scan_one announced, first, back]
  · split
    · have first : (UInt8.ofNat (value / 64 % 32 + 192)).toNat = value / 64 % 32 + 192 :=
        toNat_ofNat_of_lt (by omega)
      have announced : tailLength? (UInt8.ofNat (value / 64 % 32 + 192)) = some 1 := by
        rw [tailLength?_eq, first, if_neg (by omega), if_pos (by omega)]
      have shortest : mayFollow (UInt8.ofNat (value / 64 % 32 + 192))
          (UInt8.ofNat (value % 64 + 128)) = true := by
        rw [mayFollow_eq_true_iff, first, last]
        omega
      have whole : 64 * ((value / 64 % 32 + 192) % 32) + (value % 64 + 128) % 64 = value := by
        omega
      rw [List.cons_append, List.cons_append, List.nil_append, scan_two announced shortest, first,
        last, whole, back]
    · split
      · have first : (UInt8.ofNat (value / 4096 % 16 + 224)).toNat = value / 4096 % 16 + 224 :=
          toNat_ofNat_of_lt (by omega)
        have announced : tailLength? (UInt8.ofNat (value / 4096 % 16 + 224)) = some 2 := by
          rw [tailLength?_eq, first, if_neg (by omega), if_neg (by omega), if_pos (by omega)]
        have shortest : mayFollow (UInt8.ofNat (value / 4096 % 16 + 224))
            (UInt8.ofNat (value / 64 % 64 + 128)) = true := by
          rw [mayFollow_eq_true_iff, first, middle]
          omega
        have whole : 64 * (64 * ((value / 4096 % 16 + 224) % 16) +
            (value / 64 % 64 + 128) % 64) + (value % 64 + 128) % 64 = value := by
          omega
        rw [List.cons_append, List.cons_append, List.cons_append, List.nil_append,
          scan_three announced shortest (isTail_ofNat value), first, middle, last, whole, back]
      · have first : (UInt8.ofNat (value / 262144 % 8 + 240)).toNat = value / 262144 % 8 + 240 :=
          toNat_ofNat_of_lt (by omega)
        have announced : tailLength? (UInt8.ofNat (value / 262144 % 8 + 240)) = some 3 := by
          rw [tailLength?_eq, first, if_neg (by omega), if_neg (by omega), if_neg (by omega),
            if_pos (by omega)]
        have shortest : mayFollow (UInt8.ofNat (value / 262144 % 8 + 240))
            (UInt8.ofNat (value / 4096 % 64 + 128)) = true := by
          rw [mayFollow_eq_true_iff, first, upper]
          omega
        have whole : 64 * (64 * (64 * ((value / 262144 % 8 + 240) % 8) +
            (value / 4096 % 64 + 128) % 64) + (value / 64 % 64 + 128) % 64) +
              (value % 64 + 128) % 64 = value := by
          omega
        rw [List.cons_append, List.cons_append, List.cons_append, List.cons_append,
          List.nil_append, scan_four announced shortest (isTail_ofNat _) (isTail_ofNat value),
          first, upper, middle, last, whole, back]

theorem scan_encode (text : List Char) (rest : Bytes) :
    scan (text.flatMap String.utf8EncodeChar ++ rest) = text.map some ++ scan rest := by
  induction text with
  | nil => rfl
  | cons c text ih =>
      rw [List.flatMap_cons, List.append_assoc, scan_utf8EncodeChar, ih, List.map_cons,
        List.cons_append]

theorem scan_encode_eq (text : String) : scan (encode text) = text.toList.map some := by
  have scanned := scan_encode text.toList []
  have nothing : scan [] = [] := by rw [scan]
  rwa [List.append_nil, nothing, List.append_nil] at scanned

theorem decodeLossy_encode (text : String) : decodeLossy (encode text) = text := by
  have plain : ((fun c : Option Char => c.getD '\ufffd') ∘ some) = id := rfl
  rw [decodeLossy, scan_encode_eq, List.map_map, plain, List.map_id, String.ofList_toList]

theorem decode?_encode (text : String) : decode? (encode text) = some text := by
  have all (text : List Char) : (text.map some).mapM id = some text := by
    induction text with
    | nil => rfl
    | cons c text ih => simp [ih]
  rw [decode?, scan_encode_eq, all, Option.map_some, String.ofList_toList]

def Ascii (bytes : Bytes) : Prop := ∀ byte ∈ bytes, byte.toNat < 0x80

theorem toNat_val_ofNat {value : Nat} (valid : value.isValidChar) :
    (Char.ofNat value).val.toNat = value := by
  rw [Char.ofNat, dif_pos valid]
  rfl

theorem encode_decodeLossy_eq (bytes : Bytes) : encode (decodeLossy bytes) =
    (scan bytes).flatMap fun c => String.utf8EncodeChar (c.getD '\ufffd') := by
  rw [encode, decodeLossy, String.toList_ofList, List.flatMap_map]

theorem utf8EncodeChar_ascii {byte : UInt8} (ascii : byte.toNat < 0x80) :
    String.utf8EncodeChar (Char.ofNat byte.toNat) = [byte] := by
  have valid : byte.toNat.isValidChar := Or.inl (by omega)
  simp only [String.utf8EncodeChar, toNat_val_ofNat valid]
  rw [if_pos (by omega)]
  exact congrArg (· :: []) (UInt8.ofNat_toNat)

theorem encode_decodeLossy_of_ascii {bytes : Bytes} (ascii : Ascii bytes) :
    encode (decodeLossy bytes) = bytes := by
  rw [encode_decodeLossy_eq]
  induction bytes with
  | nil =>
      rw [scan]
      rfl
  | cons first rest ih =>
      have plain : first.toNat < 0x80 := ascii first List.mem_cons_self
      have announced : tailLength? first = some 0 := by rw [tailLength?_eq, if_pos plain]
      rw [scan_one announced, List.flatMap_cons, Option.getD_some, utf8EncodeChar_ascii plain,
        ih fun byte member => ascii byte (List.mem_cons_of_mem _ member)]
      rfl

theorem not_ascii_utf8EncodeChar {c : Char} (wide : 0x80 ≤ c.val.toNat) :
    ¬ Ascii (String.utf8EncodeChar c) := by
  intro ascii
  simp only [String.utf8EncodeChar] at ascii
  rw [if_neg (by omega)] at ascii
  repeat' split at ascii
  all_goals
    have first := ascii _ List.mem_cons_self
    rw [toNat_ofNat_of_lt (by omega)] at first
    omega

theorem range_of_tailLength? {first : UInt8} {length : Nat}
    (announced : tailLength? first = some length) :
    (length = 0 ∧ first.toNat < 0x80) ∨
      (length = 1 ∧ 0xc2 ≤ first.toNat ∧ first.toNat ≤ 0xdf) ∨
      (length = 2 ∧ 0xe0 ≤ first.toNat ∧ first.toNat ≤ 0xef) ∨
      (length = 3 ∧ 0xf0 ≤ first.toNat ∧ first.toNat ≤ 0xf4) := by
  rw [tailLength?_eq] at announced
  grind

theorem wide_assemble {first second : UInt8} {rest : Bytes}
    (announced : tailLength? first = some (rest.length + 1))
    (shortest : mayFollow first second = true) :
    0x80 ≤ (assemble first (second :: rest)).val.toNat := by
  have follows := (mayFollow_eq_true_iff _ _).mp shortest
  rcases range_of_tailLength? announced with
    ⟨none, _⟩ | ⟨one, range⟩ | ⟨two, range⟩ | ⟨three, range⟩
  · cases none
  · obtain rfl : rest = [] := List.eq_nil_of_length_eq_zero (by omega)
    have value : assemble first [second] =
        Char.ofNat (64 * (first.toNat % 32) + second.toNat % 64) := rfl
    rw [value, toNat_val_ofNat (Or.inl (by omega))]
    omega
  · obtain ⟨third, rfl⟩ := List.length_eq_one_iff.mp (show rest.length = 1 by omega)
    have value : assemble first [second, third] = Char.ofNat
        (64 * (64 * (first.toNat % 16) + second.toNat % 64) + third.toNat % 64) := rfl
    rw [value, toNat_val_ofNat (by unfold Nat.isValidChar; omega)]
    omega
  · obtain ⟨third, fourth, rfl⟩ : ∃ third fourth, rest = [third, fourth] := by
      match rest, three with
      | [third, fourth], _ => exact ⟨third, fourth, rfl⟩
    have value : assemble first [second, third, fourth] = Char.ofNat (64 * (64 * (64 *
        (first.toNat % 8) + second.toNat % 64) + third.toNat % 64) + fourth.toNat % 64) := rfl
    rw [value, toNat_val_ofNat (Or.inr (by omega))]
    omega

theorem not_ascii_flaw : ¬ Ascii (String.utf8EncodeChar '\ufffd') :=
  not_ascii_utf8EncodeChar (by decide)

theorem ascii_of_encode_decodeLossy {bytes : Bytes} (shown : Ascii (encode (decodeLossy bytes))) :
    Ascii bytes := by
  rw [encode_decodeLossy_eq] at shown
  fun_induction scan bytes with
  | case1 => exact fun byte absent => absurd absent List.not_mem_nil
  | case2 first rest unknown ih =>
      rw [List.flatMap_cons] at shown
      exact absurd (List.forall_mem_append.mp shown).1 not_ascii_flaw
  | case3 first rest length announced found ih =>
      rw [List.flatMap_cons] at shown
      rcases List.forall_mem_append.mp shown with ⟨front, behind⟩
      by_cases whole : found.length = length
      · rw [if_pos whole, Option.getD_some] at front
        cases same : found with
        | nil =>
            rw [same] at whole
            have plain : first.toNat < 0x80 := by
              have range := range_of_tailLength? announced
              rw [← whole, List.length_nil] at range
              omega
            rw [same] at ih behind
            exact List.forall_mem_cons.mpr ⟨plain, ih behind⟩
        | cons second others =>
            have shortest : mayFollow first second = true := by
              have cut : tail first length rest = second :: others := same
              cases rest with
              | nil => cases cut
              | cons next rest =>
                  rw [tail] at cut
                  split at cut
                  · rename_i both
                    cases cut
                    exact both.2
                  · cases cut
            rw [same] at front whole
            exact absurd front
              (not_ascii_utf8EncodeChar (wide_assemble (by rw [announced, ← whole]; rfl) shortest))
      · rw [if_neg whole] at front
        exact absurd front not_ascii_flaw

end PacketStack.Text.Utf8
