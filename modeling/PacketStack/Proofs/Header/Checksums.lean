import PacketStack.Proofs.Header.Fields

/-!
Checksums in a header, which leave out the word that holds them.

Main statements: `Write.turns_checksum_headed` says which checksum a transport writes, the laws
`Checksum.ofMessage_headed` and `Checksum.transport?_headed` that it is also the one of the message
it stands in.
-/

namespace PacketStack

namespace Bytes

theorem take_splice (bytes : Bytes) {start : Nat} (data : Bytes)
    (inside : start + data.length ≤ bytes.length) :
    (bytes.splice start data).take start = bytes.take start := by
  have front : (bytes.take start).length = start := by
    rw [List.length_take]
    omega
  rw [splice, List.take_left' front]

theorem drop_splice (bytes : Bytes) {start : Nat} (data : Bytes)
    (inside : start + data.length ≤ bytes.length) :
    (bytes.splice start data).drop (start + data.length) = bytes.drop (start + data.length) := by
  have front : (bytes.take start ++ data).length = start + data.length := by
    rw [List.length_append, List.length_take]
    omega
  rw [splice, ← List.append_assoc, List.drop_left' front]

end Bytes

namespace Checksum

/-- A field that is one of the 16 bit words of a buffer. -/
structure At (field : HeaderField) (index : Nat) : Prop where
  start : field.start = 16 * index
  width : field.width = 16

variable {field : HeaderField} {index size : Nat} {rest : Bytes}

theorem withoutWord_put (place : At field index) (value : Nat) (bytes : Bytes) :
    withoutWord index (field.put value bytes) = withoutWord index bytes := by
  have first : field.firstByte = 2 * index := by
    rw [Span.firstByte, place.start]
    omega
  have last : field.endByte = 2 * index + 2 := by
    rw [Span.endByte, place.start, place.width]
    omega
  rw [Span.put]
  split
  · rename_i inside
    have count : (Bytes.ofNatBE field.byteCount
        (field.merge value (field.around bytes))).length = 2 := by
      rw [Bytes.length_ofNatBE, Span.byteCount, first, last]
      omega
    have reach : 2 * index + (Bytes.ofNatBE field.byteCount
        (field.merge value (field.around bytes))).length ≤ bytes.length := by
      rw [count]
      omega
    have behind := Bytes.drop_splice bytes _ reach
    rw [count] at behind
    rw [first, withoutWord, Bytes.take_splice _ _ reach, behind, withoutWord]
  · rfl

theorem withoutWord_headed (values : List (HeaderField × Nat)) (place : At field index)
    (inside : field.endByte ≤ size) (first second : Nat) :
    withoutWord index (headed size (values ++ [(field, first)]) rest) =
      withoutWord index (headed size (values ++ [(field, second)]) rest) := by
  rw [← put_headed inside, ← put_headed inside, withoutWord_put place, withoutWord_put place]

theorem ofMessage_headed (values : List (HeaderField × Nat)) (place : At field index)
    (inside : field.endByte ≤ size) (first second : Nat) :
    ofMessage index (headed size (values ++ [(field, first)]) rest) =
      ofMessage index (headed size (values ++ [(field, second)]) rest) := by
  have empty : (headed size (values ++ [(field, first)]) rest).isEmpty =
      (headed size (values ++ [(field, second)]) rest).isEmpty := by
    rw [Bool.eq_iff_iff, List.isEmpty_iff, List.isEmpty_iff, ← List.length_eq_zero_iff,
      ← List.length_eq_zero_iff, length_headed, length_headed]
  rw [ofMessage, ofMessage, empty, withoutWord_headed values place inside first second]

theorem transport?_headed {protocol : IpProtocol} {source destination : IpAddress}
    (values : List (HeaderField × Nat)) (known : checksumWord? protocol = some index)
    (place : At field index) (inside : field.endByte ≤ size) (first second : Nat) :
    transport? (headed size (values ++ [(field, first)]) rest) protocol source destination =
      transport? (headed size (values ++ [(field, second)]) rest) protocol source
        destination := by
  simp only [transport?, known, length_headed,
    withoutWord_headed values place inside first second]

def within (addresses : Option (IpAddress × IpAddress)) (protocol : IpProtocol) (data : Bytes) :
    UInt16 :=
  match addresses with
  | some (source, destination) => (transport? data protocol source destination).getD 0
  | none => 0

theorem within_eq_transport? {protocol : IpProtocol} {source destination : IpAddress}
    (version : source.isV4 = destination.isV4) (data : Bytes) :
    transport? data protocol source destination =
      some (within (some (source, destination)) protocol data) := by
  rw [within, transport?, if_pos version]
  rfl

end Checksum

theorem Write.turns_checksum_headed {size : Nat} {field : HeaderField}
    (values : List (HeaderField × Nat)) {rest bytes : Bytes} {protocol : IpProtocol}
    {addresses : Option (IpAddress × IpAddress)} (inside : field.endByte ≤ size) :
    Write.Turns (do
        if let some (source, destination) := addresses then
          if let some checksum := Checksum.transport? (← Write.frame) protocol source destination
            then Write.store field checksum.toNat)
        (headed size (values ++ [(field, 0)]) rest) () bytes ↔
      bytes = headed size (values ++ [(field, (Checksum.within addresses protocol
        (headed size (values ++ [(field, 0)]) rest)).toNat)]) rest := by
  rcases addresses with _ | ⟨source, destination⟩
  · rw [Write.turns_pure]
    constructor
    · intro turned
      exact turned.2
    · intro equal
      exact ⟨rfl, equal⟩
  · rw [Write.turns_frame_bind, Checksum.within]
    cases Checksum.transport? (headed size (values ++ [(field, 0)]) rest) protocol source
      destination with
    | none =>
        rw [Write.turns_pure]
        constructor
        · intro turned
          exact turned.2
        · intro equal
          exact ⟨rfl, equal⟩
    | some checksum => rw [Write.turns_store_headed_last inside, headed_twice, Option.getD_some]

end PacketStack
