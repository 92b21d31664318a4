import PacketStack.Packet
import PacketStack.Proofs.Header.Span
import PacketStack.Proofs.Header.Writing

/-!
Headers as the values of their fields.

`headed size values rest` is what a layer leaves in its frame: the values in the fields of a header
of so many bytes, then everything behind the header. Main statements: `get_headed` reads a value
back, and the laws `turns_store_headed` and `turns_put_headed` carry a write from one such frame to
the next.
-/

namespace PacketStack

def Fit (size : Nat) (fields : List HeaderField) : Prop :=
  (fields.Pairwise fun first second => first.Disjoint second.toSpan) ∧
    ∀ field ∈ fields, field.endByte ≤ size ∧ field.Whole

instance (size : Nat) (fields : List HeaderField) : Decidable (Fit size fields) :=
  inferInstanceAs (Decidable (_ ∧ _))

def fill (values : List (HeaderField × Nat)) (bytes : Bytes) : Bytes :=
  values.foldl (fun bytes value => value.1.put value.2 bytes) bytes

def headed (size : Nat) (values : List (HeaderField × Nat)) (rest : Bytes) : Bytes :=
  fill values (List.replicate size 0) ++ rest

variable {size value : Nat} {field : HeaderField} {values : List (HeaderField × Nat)}
variable {rest data : Bytes}

@[simp] theorem length_fill (values : List (HeaderField × Nat)) (bytes : Bytes) :
    (fill values bytes).length = bytes.length := by
  induction values generalizing bytes with
  | nil => rfl
  | cons first rest ih => rw [fill, List.foldl_cons, ← fill, ih, Span.length_put]

theorem fill_append_singleton (values : List (HeaderField × Nat)) (value : HeaderField × Nat)
    (bytes : Bytes) : fill (values ++ [value]) bytes = value.1.put value.2 (fill values bytes) := by
  rw [fill, List.foldl_append]
  rfl

theorem get_fill_of_disjoint {bytes : Bytes} (inside : field.endByte ≤ bytes.length)
    (disjoint : ∀ other ∈ values, field.Disjoint other.1.toSpan) :
    field.get (fill values bytes) = field.get bytes := by
  induction values generalizing bytes with
  | nil => rfl
  | cons first rest ih =>
      have apart := disjoint first List.mem_cons_self
      have others : ∀ other ∈ rest, field.Disjoint other.1.toSpan :=
        fun other member => disjoint other (List.mem_cons_of_mem _ member)
      calc field.get (fill (first :: rest) bytes)
        _ = field.get (first.1.put first.2 bytes) := ih (by rwa [Span.length_put]) others
        _ = field.get bytes := Span.get_put_of_disjoint _ _ _ _ apart inside

theorem get_fill {bytes : Bytes} (fit : Fit bytes.length (values.map Prod.fst))
    (present : (field, value) ∈ values) :
    field.get (fill values bytes) = value % 2 ^ field.width := by
  induction values generalizing bytes with
  | nil => cases present
  | cons first rest ih =>
      rcases fit with ⟨disjoint, inside⟩
      rcases List.pairwise_cons.mp disjoint with ⟨apart, others⟩
      rcases List.mem_cons.mp present with same | behind
      · rcases inside field (by simp [← same]) with ⟨reach, whole⟩
        have separate : ∀ other ∈ rest, field.Disjoint other.1.toSpan := by
          intro other member
          have clear := apart other.1 (List.mem_map_of_mem member)
          rwa [← same] at clear
        have large : field.endByte ≤ (first.1.put first.2 bytes).length := by
          rwa [Span.length_put]
        calc field.get (fill (first :: rest) bytes)
          _ = field.get (first.1.put first.2 bytes) := get_fill_of_disjoint large separate
          _ = field.get (field.put value bytes) := by rw [← same]
          _ = value % 2 ^ field.width := Span.get_put _ _ _ whole reach
      · refine ih ⟨?_, ?_⟩ behind
        · exact others
        · intro other member
          rw [Span.length_put]
          exact inside other (List.mem_cons_of_mem _ member)

@[simp] theorem length_headed (size : Nat) (values : List (HeaderField × Nat)) (rest : Bytes) :
    (headed size values rest).length = size + rest.length := by
  simp [headed]

theorem headed_nil (size : Nat) (rest : Bytes) :
    headed size [] rest = List.replicate size 0 ++ rest := rfl

theorem headed_split (size extra : Nat) (rest : Bytes) :
    headed (size + extra) [] rest = headed size [] (List.replicate extra 0 ++ rest) := by
  rw [headed_nil, headed_nil, ← List.append_assoc, List.replicate_append_replicate]

theorem headed_append (size : Nat) (values : List (HeaderField × Nat)) (rest more : Bytes) :
    headed size values rest ++ more = headed size values (rest ++ more) := by
  rw [headed, headed, List.append_assoc]

@[simp] theorem drop_headed (size : Nat) (values : List (HeaderField × Nat)) (rest : Bytes) :
    (headed size values rest).drop size = rest := by
  rw [headed, List.drop_left' (by simp)]

theorem getElem?_headed (size index : Nat) (values : List (HeaderField × Nat)) (rest : Bytes) :
    (headed size values rest)[size + index]? = rest[index]? := by
  rw [← List.getElem?_drop, drop_headed]

theorem take_headed (size extra : Nat) (values : List (HeaderField × Nat)) (rest : Bytes) :
    (headed size values rest).take (size + extra) = headed size values (rest.take extra) := by
  have whole : (fill values (List.replicate size (0 : UInt8))).length = size := by simp
  rw [headed, headed, List.take_append, whole, List.take_of_length_le (by omega),
    Nat.add_sub_cancel_left]

theorem window_headed (size offset extra : Nat) (values : List (HeaderField × Nat))
    (rest : Bytes) :
    (headed size values rest).window (size + offset) extra = rest.window offset extra := by
  rw [Bytes.window, ← List.drop_drop, drop_headed, Bytes.window]

theorem get_headed (fit : Fit size (values.map Prod.fst)) (present : (field, value) ∈ values)
    (rest : Bytes) : field.get (headed size values rest) = value % 2 ^ field.width := by
  have whole : (fill values (List.replicate size (0 : UInt8))).length = size := by simp
  have inside := (fit.2 field (List.mem_map_of_mem present)).1
  rw [headed, Span.get_append _ _ _ (by rwa [whole])]
  exact get_fill (by rwa [List.length_replicate]) present

theorem put_headed (inside : field.endByte ≤ size) :
    field.put value (headed size values rest) = headed size (values ++ [(field, value)]) rest := by
  rw [headed, headed, Span.put_append _ _ _ _ (by simpa using inside), fill_append_singleton]

theorem headed_twice (size first second : Nat) (field : HeaderField)
    (values : List (HeaderField × Nat)) (rest : Bytes) :
    headed size (values ++ [(field, first)] ++ [(field, second)]) rest =
      headed size (values ++ [(field, second)]) rest := by
  rw [headed, headed, fill_append_singleton, fill_append_singleton, fill_append_singleton,
    Span.put_put]

theorem splice_headed_behind (size offset : Nat) (values : List (HeaderField × Nat))
    (rest data : Bytes) :
    (headed size values rest).splice (size + offset) data =
      headed size values (rest.splice offset data) := by
  rw [Bytes.splice, take_headed, headed_append, Nat.add_assoc, ← List.drop_drop, drop_headed,
    Bytes.splice]

theorem splice_headed (size : Nat) (values : List (HeaderField × Nat)) (rest data : Bytes) :
    (headed size values rest).splice size data =
      headed size values (data ++ rest.drop data.length) := by
  have whole : (fill values (List.replicate size (0 : UInt8))).length = size := by simp
  rw [Bytes.splice, ← List.drop_drop, drop_headed, headed, List.take_left' whole, headed]

namespace Write

variable {answer : Unit} {written : Bytes} {next : Unit → Write Unit}

theorem turns_store_headed (inside : field.endByte ≤ size) :
    (store field value >>= next).Turns (headed size values rest) answer written ↔
      (next ()).Turns (headed size (values ++ [(field, value)]) rest) answer written := by
  have reach : field.endByte ≤ (headed size values rest).length := by
    rw [length_headed]
    omega
  rw [turns_store_bind, put_headed inside, and_iff_right reach]

theorem turns_store_headed_last (inside : field.endByte ≤ size) :
    (store field value).Turns (headed size values rest) answer written ↔
      written = headed size (values ++ [(field, value)]) rest := by
  have reach : field.endByte ≤ (headed size values rest).length := by
    rw [length_headed]
    omega
  rw [turns_store, put_headed inside, and_iff_right reach]

theorem turns_put_headed (inside : data.length ≤ rest.length) :
    (put size data >>= next).Turns (headed size values rest) answer written ↔
      (next ()).Turns (headed size values (data ++ rest.drop data.length)) answer written := by
  have reach : size + data.length ≤ (headed size values rest).length := by
    rw [length_headed]
    omega
  rw [turns_put_bind, splice_headed, and_iff_right reach]

theorem turns_require_headed {part : Part} :
    (require part size >>= next).Turns (headed size values rest) answer written ↔
      (next ()).Turns (headed size values rest) answer written := by
  have reach : size ≤ (headed size values rest).length := by
    rw [length_headed]
    omega
  rw [turns_require_bind, and_iff_right reach]

end Write

namespace Packet

theorem frame_eq_ok {layer : Layer} {inner : Option Kind}
    {addresses : Option (IpAddress × IpAddress)} {body bytes : Bytes} :
    frame layer inner addresses body = .ok bytes ↔
      layer.headerSize + body.length + layer.trailerSize body.length < 2 ^ 32 ∧
        (layer.write inner addresses).Turns
          (headed layer.headerSize [] (body ++ List.replicate (layer.trailerSize body.length) 0)) ()
          bytes := by
  by_cases small : layer.headerSize + body.length + layer.trailerSize body.length < 2 ^ 32
  · rw [and_iff_right small, headed_nil, ← List.append_assoc, Write.Turns, frame_of_lt small]
    unfold Write.into
    rcases (layer.write inner addresses).run.run (List.replicate layer.headerSize 0 ++ body ++
      List.replicate (layer.trailerSize body.length) 0) with ⟨outcome, written⟩
    cases outcome with
    | error failure =>
        constructor
        · intro framed
          cases framed
        · intro turned
          cases turned
    | ok done =>
        constructor
        · intro framed
          cases framed
          rfl
        · intro turned
          cases turned
          rfl
  · constructor
    · intro framed
      rw [frame_of_le (Nat.le_of_not_lt small)] at framed
      cases framed
    · exact fun turned => absurd turned.1 small

end Packet

end PacketStack
