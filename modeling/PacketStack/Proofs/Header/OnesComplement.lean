import Mathlib.Data.List.Basic
import PacketStack.Proofs.Header.Checksums
import PacketStack.Sizes

/-!
The sum over which a receiver accepts a checksum: all 16 bit words of the bytes, the one that holds
the checksum among them, added in ones' complement.

Main statements: `Checksum.toNat_total` meets that addition, which carries at each word, with the
sum that is folded once at its end. `Checksum.accepted_message` and `Checksum.accepted_transport`
say that a checksum which was written last is accepted.
-/

namespace PacketStack.Checksum

/-- The 16 bit words of the bytes, highest byte first. An odd last byte is the high half of one. -/
def words : Bytes → List UInt16
  | high :: low :: rest => (256 * high.toUInt16 + low.toUInt16) :: words rest
  | [high] => [256 * high.toUInt16]
  | [] => []

def wordSum (summands : List UInt16) : Nat := sizeSum UInt16.toNat summands

/-- Addition in ones' complement: a carry out of the word is added at its low end. -/
def carryAdd (left right : UInt16) : UInt16 :=
  let sum := left.toNat + right.toNat
  if sum ≤ 0xffff then sum.toUInt16 else (sum - 0xffff).toUInt16

/-- The ones' complement sum of all words of the bytes. -/
def total (bytes : Bytes) : UInt16 := (words bytes).foldl carryAdd 0

/-- What is summed in front of a segment: the addresses, the protocol and the length of the segment,
which is one word between addresses of version 4 and two between those of version 6. -/
def pseudoOctets (source destination : IpAddress) (protocol : IpProtocol) (length : Nat) : Bytes :=
  source.octets ++ destination.octets ++
    if source.isV4 then [0, protocol.id] ++ Bytes.ofNatBE 2 length
    else Bytes.ofNatBE 4 length ++ [0, 0, 0, protocol.id]

def Restored (field : HeaderField) (checksum? : Bytes → Option UInt16) (bytes : Bytes) : Prop :=
  ∀ stale, ∃ checksum, checksum? (field.put stale bytes) = some checksum ∧
    field.put checksum.toNat (field.put stale bytes) = bytes

/-- Bytes whose checksum a receiver accepts after what it sums in front of them. -/
structure Accepted (field : HeaderField) (checksum? : Bytes → Option UInt16) (front bytes : Bytes) :
    Prop where
  total_eq : total (front ++ bytes) = 0xffff
  restored : Restored field checksum? bytes

theorem fold_of_le {sum : Nat} (small : sum ≤ 0xffff) : fold sum = sum := by
  rw [fold, if_pos small]

theorem fold_of_not_le {sum : Nat} (large : ¬ sum ≤ 0xffff) :
    fold sum = fold (sum / 0x10000 + sum % 0x10000) := by
  rw [fold, if_neg large]

theorem fold_eq (sum : Nat) : fold sum = if sum = 0 then 0 else (sum - 1) % 0xffff + 1 := by
  fun_induction fold sum with
  | case1 sum small => split <;> omega
  | case2 sum large ih =>
      rw [ih, if_neg (by omega), if_neg (by omega)]
      omega

theorem fold_le (sum : Nat) : fold sum ≤ 0xffff := by
  rw [fold_eq]
  split <;> omega

theorem fold_fold_add (sum more : Nat) : fold (fold sum + more) = fold (sum + more) := by
  simp only [fold_eq]
  split
  · rename_i zero
    rw [zero]
  · rw [if_neg (by omega), if_neg (by omega)]
    omega

theorem toNat_complement (sum : Nat) : (complement sum).toNat = 0xffff - fold sum := by
  rw [complement, Nat.toUInt16_eq, UInt16.toNat_ofNat']
  omega

theorem fold_add_complement (sum : Nat) : fold (sum + (complement sum).toNat) = 0xffff := by
  rw [toNat_complement, ← fold_fold_add, Nat.add_sub_cancel' (fold_le sum)]
  exact fold_of_le (Nat.le_refl _)

theorem complement_eq_zero_iff (sum : Nat) : complement sum = 0 ↔ fold sum = 0xffff := by
  have small := fold_le sum
  rw [← UInt16.toNat_inj, toNat_complement, UInt16.toNat_zero]
  omega

theorem toNat_word (high low : UInt8) :
    (256 * high.toUInt16 + low.toUInt16).toNat = 256 * high.toNat + low.toNat := by
  have first := high.toNat_lt
  have second := low.toNat_lt
  simp only [UInt16.toNat_add, UInt16.toNat_mul, UInt8.toNat_toUInt16, UInt16.reduceToNat]
  omega

theorem toNat_lastWord (high : UInt8) : (256 * high.toUInt16).toNat = 256 * high.toNat := by
  simpa using toNat_word high 0

theorem words_append (front rest : Bytes) (even : front.length % 2 = 0) :
    words (front ++ rest) = words front ++ words rest := by
  induction front using words.induct with
  | case1 high low front ih =>
      rw [List.length_cons, List.length_cons] at even
      rw [List.cons_append, List.cons_append, words, words, ih (by omega), List.cons_append]
  | case2 high => cases even
  | case3 => rfl

@[simp] theorem wordSum_nil : wordSum [] = 0 := rfl

@[simp] theorem wordSum_cons (word : UInt16) (rest : List UInt16) :
    wordSum (word :: rest) = word.toNat + wordSum rest := rfl

@[simp] theorem wordSum_append (front rest : List UInt16) :
    wordSum (front ++ rest) = wordSum front + wordSum rest :=
  sizeSum_append UInt16.toNat front rest

theorem addWords_eq_wordSum (sum : Nat) (bytes : Bytes) :
    addWords sum bytes = sum + wordSum (words bytes) := by
  induction bytes using words.induct generalizing sum with
  | case1 high low rest ih => rw [addWords, ih, words, wordSum_cons, toNat_word, Nat.add_assoc]
  | case2 high => rw [addWords, words, wordSum_cons, wordSum_nil, toNat_lastWord, Nat.add_zero]
  | case3 => rfl

theorem addWords_eq (sum : Nat) (bytes : Bytes) : addWords sum bytes = sum + addWords 0 bytes := by
  rw [addWords_eq_wordSum, addWords_eq_wordSum 0, Nat.zero_add]

theorem addWords_append (front rest : Bytes) (even : front.length % 2 = 0) (sum : Nat) :
    addWords sum (front ++ rest) = addWords (addWords sum front) rest := by
  calc addWords sum (front ++ rest)
    _ = sum + wordSum (words front ++ words rest) := by
      rw [addWords_eq_wordSum, words_append _ _ even]
    _ = sum + wordSum (words front) + wordSum (words rest) := by
      rw [wordSum_append, Nat.add_assoc]
    _ = addWords (addWords sum front) rest := by
      rw [← addWords_eq_wordSum, ← addWords_eq_wordSum]

theorem toNat_carryAdd (left right : UInt16) :
    (carryAdd left right).toNat = fold (left.toNat + right.toNat) := by
  have first := left.toNat_lt
  have second := right.toNat_lt
  simp only [carryAdd, fold_eq]
  split
  · rw [Nat.toUInt16_eq, UInt16.toNat_ofNat']
    split <;> omega
  · rw [Nat.toUInt16_eq, UInt16.toNat_ofNat', if_neg (by omega)]
    omega

theorem toNat_foldl_carryAdd (sum : UInt16) (summands : List UInt16) :
    (summands.foldl carryAdd sum).toNat = fold (sum.toNat + wordSum summands) := by
  induction summands generalizing sum with
  | nil => exact (fold_of_le (Nat.le_of_lt_succ sum.toNat_lt)).symm
  | cons word rest ih =>
      rw [List.foldl_cons, ih, toNat_carryAdd, fold_fold_add, wordSum_cons, Nat.add_assoc]

theorem toNat_total (bytes : Bytes) : (total bytes).toNat = fold (addWords 0 bytes) := by
  rw [total, toNat_foldl_carryAdd, addWords_eq_wordSum, UInt16.toNat_zero]

theorem length_octets_mod_two (address : IpAddress) : address.octets.length % 2 = 0 := by
  cases address with
  | v4 address => rw [IpAddress.octets, Ipv4Address.length_octets]
  | v6 address => rw [IpAddress.octets, Ipv6Address.length_octets]

theorem length_pseudoOctets_mod_two (source destination : IpAddress) (protocol : IpProtocol)
    (length : Nat) : (pseudoOctets source destination protocol length).length % 2 = 0 := by
  have first := length_octets_mod_two source
  have second := length_octets_mod_two destination
  rw [pseudoOctets, List.length_append, List.length_append]
  split
  · simp
    omega
  · simp
    omega

theorem addWords_length (sum : Nat) {length : Nat} (small : length ≤ 0xffff) :
    addWords sum (Bytes.ofNatBE 2 length) = sum + length := by
  simp only [Bytes.ofNatBE, Bytes.ofNatLE, List.reverse_cons, List.reverse_nil, List.nil_append,
    List.cons_append, addWords, UInt8.toNat_ofNat']
  omega

theorem ofNatBE_four {length : Nat} (small : length ≤ 0xffff) :
    Bytes.ofNatBE 4 length = 0 :: 0 :: Bytes.ofNatBE 2 length := by
  have third : length / 256 / 256 = 0 := by omega
  simp only [Bytes.ofNatBE, Bytes.ofNatLE, third]
  rfl

theorem addWords_pseudoOctets (source destination : IpAddress) (protocol : IpProtocol)
    {length : Nat} (small : length ≤ 0xffff) :
    addWords 0 (pseudoOctets source destination protocol length) =
      pseudoHeader source destination protocol length := by
  have first := length_octets_mod_two source
  have both : (source.octets ++ destination.octets).length % 2 = 0 := by
    have second := length_octets_mod_two destination
    rw [List.length_append]
    omega
  rw [pseudoOctets, addWords_append _ _ both, addWords_append _ _ first, pseudoHeader]
  split
  · rw [List.cons_append, List.cons_append, List.nil_append, addWords, addWords_length _ small,
      UInt8.toNat_zero, Nat.mul_zero, Nat.zero_add]
  · have length_two : (Bytes.ofNatBE 2 length).length % 2 = 0 := by rw [Bytes.length_ofNatBE]
    rw [ofNatBE_four small, List.cons_append, List.cons_append, addWords,
      addWords_append _ _ length_two, addWords_length _ small]
    simp only [addWords, UInt8.toNat_zero]
    omega

variable {field : HeaderField} {index size : Nat} {rest : Bytes}

theorem addWords_withoutWord {bytes : Bytes} (inside : 2 * index + 2 ≤ bytes.length) :
    addWords 0 bytes = addWords 0 (withoutWord index bytes) +
      Bytes.toNatBE (bytes.window (2 * index) 2) := by
  have front : (bytes.take (2 * index)).length % 2 = 0 := by
    rw [List.length_take]
    omega
  have pair : (bytes.window (2 * index) 2).length = 2 := by
    rw [Bytes.length_window]
    omega
  rcases List.length_eq_two.mp pair with ⟨high, low, word⟩
  have whole : bytes = bytes.take (2 * index) ++ high :: low :: bytes.drop (2 * index + 2) := by
    calc bytes
      _ = bytes.take (2 * index) ++ (bytes.window (2 * index) 2 ++
          (bytes.drop (2 * index)).drop 2) := by
        rw [Bytes.window, List.take_append_drop, List.take_append_drop]
      _ = _ := by
        rw [word, List.drop_drop]
        rfl
  have value : Bytes.toNatBE [high, low] = 256 * high.toNat + low.toNat := by
    simp only [Bytes.toNatBE, List.reverse_cons, List.reverse_nil, List.nil_append,
      List.cons_append, Bytes.toNatLE]
    omega
  calc addWords 0 bytes
    _ = addWords 0 (bytes.take (2 * index) ++ high :: low :: bytes.drop (2 * index + 2)) :=
      congrArg (addWords 0) whole
    _ = addWords 0 (withoutWord index bytes) + Bytes.toNatBE [high, low] := by
      rw [withoutWord, addWords_append _ _ front, addWords_append _ _ front, addWords,
        addWords_eq, addWords_eq (addWords 0 (bytes.take (2 * index))), value]
      omega
    _ = _ := by rw [word]

theorem addWords_put (place : At field index) (big : field.littleEndian = false) (value : UInt16)
    {bytes : Bytes} (inside : field.endByte ≤ bytes.length) :
    addWords 0 (field.put value.toNat bytes) =
      addWords 0 (withoutWord index bytes) + value.toNat := by
  have last : field.endByte = 2 * index + 2 := by
    rw [Span.endByte, place.start, place.width]
    omega
  have stored : Bytes.toNatBE ((field.put value.toNat bytes).window (2 * index) 2) =
      value.toNat := by
    have spelled := Span.get_of_bytes field.toSpan (field.put value.toNat bytes) big
      (by rw [place.start]; omega) (by rw [place.width])
    have read := Span.get_put field.toSpan value.toNat bytes
      (fun little => absurd (big.symm.trans little) Bool.false_ne_true) inside
    have small := value.toNat_lt
    rw [place.start, place.width, show 16 * index / 8 = 2 * index by omega] at spelled
    rw [← spelled, read, place.width, Nat.mod_eq_of_lt small]
  have long : 2 * index + 2 ≤ (field.put value.toNat bytes).length := by
    rw [Span.length_put]
    omega
  rw [addWords_withoutWord long, withoutWord_put place, stored]

theorem total_put (place : At field index) (big : field.littleEndian = false) {front bytes : Bytes}
    (even : front.length % 2 = 0) (inside : field.endByte ≤ bytes.length) :
    total (front ++ field.put (complement
      (addWords (addWords 0 front) (withoutWord index bytes))).toNat bytes) = 0xffff := by
  apply UInt16.toNat.inj
  rw [toNat_total, addWords_append _ _ even, addWords_eq, addWords_put place big _ inside,
    ← Nat.add_assoc, ← addWords_eq, fold_add_complement]
  rfl

theorem toNat_total_put_zero (place : At field index) (big : field.littleEndian = false)
    {front bytes : Bytes} (even : front.length % 2 = 0) (inside : field.endByte ≤ bytes.length) :
    (total (front ++ field.put 0 bytes)).toNat =
      fold (addWords (addWords 0 front) (withoutWord index bytes)) := by
  have blank := addWords_put place big 0 inside
  rw [UInt16.toNat_zero, Nat.add_zero] at blank
  rw [toNat_total, addWords_append _ _ even, addWords_eq, blank, ← addWords_eq]

theorem total_headed (values : List (HeaderField × Nat)) (place : At field index)
    (big : field.littleEndian = false) (inside : field.endByte ≤ size) {front : Bytes}
    (even : front.length % 2 = 0) {checksum : UInt16}
    (computed : checksum = complement (addWords (addWords 0 front)
      (withoutWord index (headed size (values ++ [(field, 0)]) rest)))) :
    total (front ++ headed size (values ++ [(field, checksum.toNat)]) rest) = 0xffff := by
  have reach : field.endByte ≤ (headed size (values ++ [(field, 0)]) rest).length := by
    rw [length_headed]
    omega
  have accepted := total_put place big even reach
  rwa [← computed, put_headed inside, headed_twice] at accepted

theorem restored_headed (values : List (HeaderField × Nat)) (inside : field.endByte ≤ size)
    {checksum? : Bytes → Option UInt16} {checksum : UInt16}
    (steady : ∀ stale, checksum? (headed size (values ++ [(field, stale)]) rest) = some checksum) :
    Restored field checksum? (headed size (values ++ [(field, checksum.toNat)]) rest) := by
  intro stale
  rw [put_headed inside, headed_twice]
  exact ⟨checksum, steady stale, by rw [put_headed inside, headed_twice]⟩

theorem ofMessage_of_ne_nil (index : Nat) {bytes : Bytes} (several : bytes ≠ []) :
    ofMessage index bytes = complement (addWords 0 (withoutWord index bytes)) := by
  rw [ofMessage, List.isEmpty_eq_false_iff.mpr several]
  rfl

theorem ofMessage_headed_eq (values : List (HeaderField × Nat)) (inside : field.endByte ≤ size)
    (written : 0 < field.endByte) : ofMessage index (headed size values rest) =
      complement (addWords 0 (withoutWord index (headed size values rest))) := by
  have several : headed size values rest ≠ [] := by
    rw [← List.length_pos_iff, length_headed]
    omega
  exact ofMessage_of_ne_nil index several

theorem accepted_message (values : List (HeaderField × Nat)) (place : At field index)
    (big : field.littleEndian = false) (inside : field.endByte ≤ size) {checksum : UInt16}
    (computed : checksum = ofMessage index (headed size (values ++ [(field, 0)]) rest)) :
    Accepted field (fun message => some (ofMessage index message)) []
      (headed size (values ++ [(field, checksum.toNat)]) rest) := by
  have written : 0 < field.endByte := by
    rw [Span.endByte, place.width]
    omega
  constructor
  · apply total_headed values place big inside rfl
    rw [computed, ofMessage_headed_eq _ inside written]
    rfl
  · apply restored_headed values inside
    intro stale
    rw [computed, ofMessage_headed values place inside stale 0]

theorem accepted_transport {protocol : IpProtocol} {source destination : IpAddress}
    (values : List (HeaderField × Nat)) (known : checksumWord? protocol = some index)
    (place : At field index) (big : field.littleEndian = false) (inside : field.endByte ≤ size)
    (version : source.isV4 = destination.isV4) (small : size + rest.length ≤ 0xffff)
    {checksum : UInt16} (computed : checksum = within (some (source, destination)) protocol
      (headed size (values ++ [(field, 0)]) rest)) :
    Accepted field (transport? · protocol source destination)
      (pseudoOctets source destination protocol (size + rest.length))
      (headed size (values ++ [(field, checksum.toNat)]) rest) := by
  constructor
  · apply total_headed values place big inside (length_pseudoOctets_mod_two _ _ _ _)
    rw [computed, within, transport?, if_pos version, known, addWords_pseudoOctets _ _ _ small,
      length_headed]
    rfl
  · apply restored_headed values inside
    intro stale
    rw [transport?_headed values known place inside stale 0, within_eq_transport? version, computed]

end PacketStack.Checksum
