import PacketStack.Proofs.Application.Dns
import PacketStack.Proofs.Text.Utf8

/-!
Names of domains that are written and read again.

Main statement: `Plain.read_encode` reads a plain name back from any place of a message, whatever
stands in front of it and behind it.
-/

namespace PacketStack

namespace Bytes

theorem range?_append (front data rest : Bytes) :
    (front ++ (data ++ rest)).range? front.length (front.length + data.length) = some data := by
  have inside : front.length ≤ front.length + data.length ∧
      front.length + data.length ≤ (front ++ (data ++ rest)).length := by
    rw [List.length_append, List.length_append]
    omega
  rw [range?, if_pos inside, Nat.add_sub_cancel_left, window_append_right _ _ _ _ (Nat.le_refl _),
    Nat.sub_self, window_append_left _ _ _ rfl]

end Bytes

namespace DnsName

theorem split_ne_nil (bytes : Bytes) : split bytes ≠ [] := by
  induction bytes with
  | nil => exact List.cons_ne_nil _ _
  | cons byte rest ih =>
      rw [split]
      split
      · exact List.cons_ne_nil _ _
      · split <;> exact List.cons_ne_nil _ _

theorem split_append {front : Bytes} (whole : point ∉ front) {rest label : Bytes}
    {labels : List Bytes} (behind : split rest = label :: labels) :
    split (front ++ rest) = (front ++ label) :: labels := by
  induction front with
  | nil => exact behind
  | cons byte front ih =>
      rw [List.mem_cons, not_or] at whole
      rcases whole with ⟨other, whole⟩
      rw [List.cons_append, split, if_neg (Ne.symm other), ih whole]
      rfl

theorem flatten_intersperse_split (bytes : Bytes) :
    ((split bytes).intersperse [point]).flatten = bytes := by
  induction bytes with
  | nil => rfl
  | cons byte rest ih =>
      rcases List.exists_cons_of_ne_nil (split_ne_nil rest) with ⟨label, labels, behind⟩
      rw [behind] at ih
      rw [split, behind]
      split
      · rename_i same
        rw [List.intersperse_cons_cons, List.flatten_cons, List.flatten_cons, ih, same]
        rfl
      · cases labels with
        | nil => simpa using ih
        | cons next labels => simpa using ih

theorem point_not_mem_utf8EncodeChar {c : Char} (other : c ≠ '.') :
    point ∉ String.utf8EncodeChar c := by
  have different : c.val.toNat ≠ 46 := by
    intro same
    apply other
    rw [← Char.ofNat_toNat c]
    exact congrArg Char.ofNat same
  have byte {value : Nat} (small : value < 256) (apart : value ≠ 46) :
      point ≠ UInt8.ofNat value := by
    intro same
    have number := congrArg UInt8.toNat same
    rw [Text.Utf8.toNat_ofNat_of_lt small] at number
    exact apart number.symm
  simp only [String.utf8EncodeChar]
  repeat' split
  all_goals simp only [List.mem_cons, List.not_mem_nil, or_false, not_or]
  · exact byte (by omega) different
  · exact ⟨byte (by omega) (by omega), byte (by omega) (by omega)⟩
  · exact ⟨byte (by omega) (by omega), byte (by omega) (by omega), byte (by omega) (by omega)⟩
  · exact ⟨byte (by omega) (by omega), byte (by omega) (by omega), byte (by omega) (by omega),
      byte (by omega) (by omega)⟩

theorem exists_texts_of_split (text : List Char) : ∃ texts : List (List Char),
    split (text.flatMap String.utf8EncodeChar) =
      texts.map (List.flatMap String.utf8EncodeChar) := by
  induction text with
  | nil => exact ⟨[[]], rfl⟩
  | cons c text ih =>
      rcases ih with ⟨texts, behind⟩
      rw [List.flatMap_cons]
      by_cases between : c = '.'
      · refine ⟨[] :: texts, ?_⟩
        have alone : String.utf8EncodeChar c = [point] := by
          rw [between]
          rfl
        rw [alone, List.singleton_append, split, if_pos rfl, behind]
        rfl
      · cases texts with
        | nil => exact absurd behind (split_ne_nil _)
        | cons first texts =>
            refine ⟨(c :: first) :: texts, ?_⟩
            rw [split_append (point_not_mem_utf8EncodeChar between) behind]
            rfl

/-- Text without a point at its end, whose labels are not empty and keep to the limits. -/
structure Plain (name : DnsName) : Prop where
  text : ∃ text, name = .ofText text
  trimmed : name.trimmed = name.utf8
  labels : ∀ label ∈ name.labels, 1 ≤ label.length ∧ label.length ≤ maximumLabel
  size : name.size ≤ maximumSize

theorem encode_of_labels {name : DnsName}
    (limits : ∀ label ∈ name.labels, 1 ≤ label.length ∧ label.length ≤ maximumLabel) :
    name.encode = if maximumSize < name.size then .malformed (.dnsNameTooLong name.text)
      else .ok (name.labels.flatMap labelBytes ++ [0]) := by
  have kept : ¬ (name.labels.any fun label =>
      label.isEmpty || maximumLabel < label.length) = true := by
    intro found
    rcases List.any_eq_true.mp found with ⟨label, member, flaw⟩
    rcases limits label member with ⟨filled, short⟩
    rcases (Bool.or_eq_true _ _).mp flaw with empty | long
    · rw [List.isEmpty_iff.mp empty] at filled
      cases filled
    · exact absurd (of_decide_eq_true long) (Nat.not_lt.mpr short)
  rw [encode, if_neg kept]

namespace Plain

variable {name : DnsName}

theorem ofLabels_labels (plain : name.Plain) : ofLabels name.labels = name := by
  unfold DnsName.labels
  rw [plain.trimmed]
  split
  · rename_i empty
    exact congrArg DnsName.mk (List.isEmpty_iff.mp empty).symm
  · rw [ofLabels, flatten_intersperse_split]

theorem encode_decodeLossy (plain : name.Plain) {label : Bytes} (member : label ∈ name.labels) :
    Text.Utf8.encode (Text.Utf8.decodeLossy label) = label := by
  rcases plain.text with ⟨text, named⟩
  rcases exists_texts_of_split text.toList with ⟨texts, pieces⟩
  have whole : name.utf8 = text.toList.flatMap String.utf8EncodeChar := by
    rw [named]
    rfl
  unfold DnsName.labels at member
  rw [plain.trimmed] at member
  split at member
  · cases member
  · rw [whole, pieces] at member
    rcases List.mem_map.mp member with ⟨piece, _, rfl⟩
    have written : Text.Utf8.encode (String.ofList piece) =
        piece.flatMap String.utf8EncodeChar := by
      rw [Text.Utf8.encode, String.toList_ofList]
    rw [← written, Text.Utf8.decodeLossy_encode]

theorem encode_eq (plain : name.Plain) :
    name.encode = .ok (name.labels.flatMap labelBytes ++ [0]) := by
  rw [encode_of_labels plain.labels, if_neg (Nat.not_lt.mpr plain.size)]

end Plain

theorem readLabels_labelBytes {labels : List Bytes}
    (limits : ∀ label ∈ labels, 1 ≤ label.length ∧ label.length ≤ maximumLabel)
    (texts : ∀ label ∈ labels, Text.Utf8.encode (Text.Utf8.decodeLossy label) = label)
    {size : Nat} (room : size + sizeSum (fun label => label.length + 1) labels ≤ maximumSize)
    (pointers : Nat) (front rest : Bytes) :
    readLabels (front ++ (labels.flatMap labelBytes ++ 0 :: rest)) front.length size pointers =
      .ok (labels, front.length + (sizeSum (fun label => label.length + 1) labels + 1)) := by
  -- On the labels: each is read behind the ones before it, and the last one is followed by zero.
  induction labels generalizing front size with
  | nil =>
      rw [readLabels]
      simp [sizeSum]
  | cons label labels ih =>
      rcases limits label List.mem_cons_self with ⟨filled, short⟩
      have short : label.length ≤ 63 := short
      rw [sizeSum] at room
      have number : (UInt8.ofNat label.length).toNat = label.length :=
        Text.Utf8.toNat_ofNat_of_lt (by omega)
      have nonzero : UInt8.ofNat label.length ≠ 0 := by
        intro zero
        rw [zero] at number
        exact absurd number (by simp; omega)
      have plain : UInt8.ofNat label.length < 0x40 := by
        rw [UInt8.lt_iff_toNat_lt, number]
        exact Nat.lt_succ_of_le short
      have step : (front ++ labelBytes label).length = front.length + 1 + label.length := by
        rw [List.length_append, labelBytes, List.length_cons]
        omega
      have message : front ++ ((label :: labels).flatMap labelBytes ++ 0 :: rest) =
          front ++ labelBytes label ++ (labels.flatMap labelBytes ++ 0 :: rest) := by
        simp only [List.flatMap_cons, List.append_assoc]
      have others := ih (fun other member => limits other (List.mem_cons_of_mem _ member))
        (fun other member => texts other (List.mem_cons_of_mem _ member))
        (show size + label.length + 1 + _ ≤ maximumSize by omega) (front ++ labelBytes label)
      rw [← message, step] at others
      have there : (front ++ ((label :: labels).flatMap labelBytes ++ 0 :: rest))[front.length]? =
          some (UInt8.ofNat label.length) := by
        rw [List.getElem?_append_right (Nat.le_refl _), Nat.sub_self]
        rfl
      have cut : (front ++ ((label :: labels).flatMap labelBytes ++ 0 :: rest)).range?
          (front.length + 1) (front.length + 1 + label.length) = some label := by
        have found := Bytes.range?_append (front ++ [UInt8.ofNat label.length]) label
          (labels.flatMap labelBytes ++ 0 :: rest)
        rw [List.length_append, List.length_singleton] at found
        rw [← found]
        congr 1
        simp [labelBytes]
      have fits : ¬ maximumSize < size + label.length + 1 := by omega
      rw [readLabels]
      simp only [there, number, if_neg nonzero, if_pos plain, cut, if_neg fits, others,
        texts label List.mem_cons_self]
      refine congrArg Except.ok (Prod.ext rfl ?_)
      rw [sizeSum]
      simp only
      omega

theorem Plain.read_encode {name : DnsName} (plain : name.Plain) {bytes : Bytes}
    (written : name.encode = .ok bytes) (front rest : Bytes) :
    read (front ++ (bytes ++ rest)) front.length = .ok (name, front.length + bytes.length) := by
  have size := length_of_encode written
  have room := plain.size
  have found := readLabels_labelBytes plain.labels (fun label => plain.encode_decodeLossy)
    (show 0 + _ ≤ maximumSize by rw [Nat.zero_add]; exact Nat.le_of_succ_le room) 0 front rest
  rw [plain.encode_eq] at written
  cases written
  rw [List.append_assoc, List.singleton_append, read, found, size]
  exact congrArg Except.ok (Prod.ext plain.ofLabels_labels rfl)

end DnsName

end PacketStack
