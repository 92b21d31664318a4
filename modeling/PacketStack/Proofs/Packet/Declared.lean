import PacketStack.Proofs.Packet.Reinterpreting

/-!
Bytes behind the length that a header declares.

Main statement: `parse_declared` says that such bytes do not change the packet that is read, unless
the declared length ends inside the header itself, in which case there is no packet.
-/

namespace PacketStack

variable {front rest bytes : Bytes}

theorem requireSize_of_le {part : Part} {minimum : Nat} (large : minimum ≤ bytes.length) :
    requireSize part minimum bytes = .ok () := requireSize_eq_ok.mpr large

namespace Ipv4

theorem decode_of_size (large : Header.size ≤ bytes.length) :
    decode bytes =
      if Header.version.get bytes = 4 ∧ Header.size ≤ 4 * Header.headerLength.get bytes ∧
          4 * Header.headerLength.get bytes ≤ bytes.length then
        if Header.totalLength.get bytes = 0 ∨
            4 * Header.headerLength.get bytes ≤ Header.totalLength.get bytes then
          .ok ⟨ofBytes bytes, bytes.window (4 * Header.headerLength.get bytes)
            (stop bytes - 4 * Header.headerLength.get bytes), (ofBytes bytes).next?⟩
        else .malformed (.ipv4TotalLength (Header.totalLength.get bytes)
          (4 * Header.headerLength.get bytes))
      else .malformed (.ipv4Header (Header.version.get bytes) (Header.headerLength.get bytes)) := by
  split
  · rename_i header
    split
    · rename_i declared
      have inside : 4 * Header.headerLength.get bytes ≤ stop bytes := by
        unfold stop
        split
        · exact header.2.2
        · omega
      exact decode_eq_ok.mpr ⟨header.1, header.2.1, inside, rfl⟩
    · rename_i short
      rw [decode, requireSize_of_le large]
      simp only [Outcome.demand, if_pos header, if_neg short]
      rfl
  · rename_i broken
    rw [decode, requireSize_of_le large]
    simp only [Outcome.demand, if_neg broken]
    rfl

theorem ofBytes_append (large : Header.size ≤ front.length)
    (inside : 4 * Header.headerLength.get front ≤ front.length) :
    ofBytes (front ++ rest) = ofBytes front := by
  have same {field : HeaderField} (fixed : field.endByte ≤ Header.size) :
      field.get (front ++ rest) = field.get front :=
    Span.get_append _ _ _ (Nat.le_trans fixed large)
  have options : Header.options (front ++ rest) = Header.options front := by
    have reach : 4 * Header.headerLength.get front ≤ (front ++ rest).length := by
      rw [List.length_append]
      omega
    rw [Header.options, Header.stop, same (by decide), Nat.min_eq_left reach,
      List.take_append_of_le_length inside, Header.options, Header.stop, Nat.min_eq_left inside]
  simp only [ofBytes, HeaderField.ipv4Address, options]
  simp (disch := decide) only [same]

theorem decode_append (large : Header.size ≤ front.length)
    (total : Header.totalLength.get front = front.length)
    (whole : Header.version.get front = 4 → 4 * Header.headerLength.get front ≤ front.length) :
    decode (front ++ rest) = decode front := by
  have same {field : HeaderField} (fixed : field.endByte ≤ Header.size) :
      field.get (front ++ rest) = field.get front :=
    Span.get_append _ _ _ (Nat.le_trans fixed large)
  have longer : front.length ≤ (front ++ rest).length := by simp
  have nonzero : front.length ≠ 0 := by
    simp only [Header.size] at large
    omega
  rw [decode_of_size large, decode_of_size (Nat.le_trans large longer)]
  simp (disch := decide) only [same]
  by_cases version : Header.version.get front = 4
  · have inside := whole version
    have reach : 4 * Header.headerLength.get front ≤ (front ++ rest).length :=
      Nat.le_trans inside longer
    have ends : stop (front ++ rest) = stop front := by
      rw [stop, stop, same (by decide), total, if_neg nonzero, if_neg nonzero,
        Nat.min_eq_left longer, Nat.min_self]
    have window : (front ++ rest).window (4 * Header.headerLength.get front)
        (stop front - 4 * Header.headerLength.get front) =
          front.window (4 * Header.headerLength.get front)
            (stop front - 4 * Header.headerLength.get front) := by
      apply Bytes.window_append_inside
      have limit := stop_le front
      rw [stop, total, if_neg nonzero, Nat.min_self]
      omega
    simp only [reach, inside, ends, window, ofBytes_append large inside]
  · simp only [version, false_and, if_false]

/-- The total length ends inside the header. -/
def Cut (bytes : Bytes) : Prop :=
  Header.totalLength.get bytes < Header.size ∨
    Header.version.get bytes = 4 ∧
      Header.totalLength.get bytes < 4 * Header.headerLength.get bytes

theorem decode_of_cut (header : Header.size ≤ bytes.length)
    (nonzero : Header.totalLength.get bytes ≠ 0) (cut : Cut bytes) :
    ∃ cause, decode bytes = .malformed cause := by
  rw [decode_of_size header]
  unfold Cut at cut
  split
  · rename_i usable
    have beyond : ¬ (Header.totalLength.get bytes = 0 ∨
        4 * Header.headerLength.get bytes ≤ Header.totalLength.get bytes) := by omega
    exact ⟨_, if_neg beyond⟩
  · exact ⟨_, rfl⟩

theorem decode_take_of_cut (inside : Header.totalLength.get bytes ≤ bytes.length)
    (cut : Cut bytes) :
    ∃ failure cause, decode (bytes.take (Header.totalLength.get bytes)) = .error failure ∧
      failure.asMalformed = .refused (.malformed cause) := by
  have length : (bytes.take (Header.totalLength.get bytes)).length =
      Header.totalLength.get bytes := by rw [List.length_take, Nat.min_eq_left inside]
  by_cases small : Header.totalLength.get bytes < Header.size
  · rw [decode, requireSize, if_pos (by rwa [length])]
    exact ⟨_, _, rfl, rfl⟩
  · have large : Header.size ≤ (bytes.take (Header.totalLength.get bytes)).length := by omega
    have beyond := cut.resolve_left small
    have words : Header.headerLength.get (bytes.take (Header.totalLength.get bytes)) =
        Header.headerLength.get bytes := by
      have split := Span.get_append Header.headerLength.toSpan
        (bytes.take (Header.totalLength.get bytes)) (bytes.drop (Header.totalLength.get bytes))
        (Nat.le_trans (by decide) large)
      rwa [List.take_append_drop, eq_comm] at split
    have unusable : ¬ (Header.version.get (bytes.take (Header.totalLength.get bytes)) = 4 ∧
        Header.size ≤ 4 * Header.headerLength.get (bytes.take (Header.totalLength.get bytes)) ∧
        4 * Header.headerLength.get (bytes.take (Header.totalLength.get bytes)) ≤
          (bytes.take (Header.totalLength.get bytes)).length) := by
      rw [words, length]
      omega
    rw [decode_of_size large, if_neg unusable]
    exact ⟨_, _, rfl, rfl⟩

end Ipv4

namespace Ipv6

theorem decode_append
    (total : Header.payloadLength.get front + Header.size = front.length) :
    decode (front ++ rest) = decode front := by
  have large : Header.size ≤ front.length := by omega
  have longer : Header.size ≤ (front ++ rest).length := by
    rw [List.length_append]
    omega
  have same {field : HeaderField} (fixed : field.endByte ≤ Header.size) :
      field.get (front ++ rest) = field.get front :=
    Span.get_append _ _ _ (Nat.le_trans fixed large)
  have header : ofBytes (front ++ rest) = ofBytes front := by
    simp only [ofBytes, HeaderField.ipv6Address]
    simp (disch := decide) only [same]
  have payload : Header.payload (front ++ rest) = Header.payload front := by
    have size : (front.drop Header.size).length = Header.payloadLength.get front := by
      rw [List.length_drop]
      omega
    rw [Header.payload, Header.payload, same (by decide), List.drop_append_of_le_length large,
      ← size, List.take_left, List.take_length]
  by_cases version : Header.version.get front = 6
  · have read := decode_eq_ok.mpr ⟨large, version, rfl⟩
    rw [read, ← header, ← payload]
    exact decode_eq_ok.mpr ⟨longer, (same (by decide)).trans version, rfl⟩
  · rw [decode, decode, requireSize_of_le large, requireSize_of_le longer, same (by decide)]
    simp only [Outcome.demand, if_neg version]
    rfl

end Ipv6

namespace Eapol

theorem decode_append (total : Header.length.get front + Header.size = front.length) :
    decode (front ++ rest) = decode front := by
  have large : Header.size ≤ front.length := by omega
  have longer : Header.size ≤ (front ++ rest).length := by
    rw [List.length_append]
    omega
  have same {field : HeaderField} (fixed : field.endByte ≤ Header.size) :
      field.get (front ++ rest) = field.get front :=
    Span.get_append _ _ _ (Nat.le_trans fixed large)
  rw [decode, decode, requireSize_of_le large, requireSize_of_le longer]
  simp (disch := decide) only [same, total, List.take_left, List.take_length]

end Eapol

/-- The length that a header in front of the bytes declares for itself and what it carries, where
the bytes reach that far. -/
inductive Declares (bytes : Bytes) : Kind → Nat → Prop
  | ipv4 (header : Ipv4.Header.size ≤ bytes.length)
      (nonzero : Ipv4.Header.totalLength.get bytes ≠ 0)
      (inside : Ipv4.Header.totalLength.get bytes ≤ bytes.length) :
      Declares bytes .ipv4 (Ipv4.Header.totalLength.get bytes)
  | ipv6 (inside : Ipv6.Header.payloadLength.get bytes + Ipv6.Header.size ≤ bytes.length) :
      Declares bytes .ipv6 (Ipv6.Header.payloadLength.get bytes + Ipv6.Header.size)
  | eapol (inside : Eapol.Header.length.get bytes + Eapol.Header.size ≤ bytes.length) :
      Declares bytes .eapol (Eapol.Header.length.get bytes + Eapol.Header.size)

/-- The declared length holds the header that declares it. -/
def Covers (bytes : Bytes) (kind : Kind) : Prop := kind = .ipv4 → ¬ Ipv4.Cut bytes

theorem covers_of_ne {kind : Kind} (other : kind ≠ .ipv4) : Covers bytes kind :=
  fun same => absurd same other

/-- The front of a link frame that announces a kind of packet. -/
inductive Announces (front : Bytes) : Kind → Kind → Prop
  | ethernet {kind : Kind} (size : front.length = Ethernet.Header.size)
      (type : (Ethernet.Header.type front).kind? = some kind) : Announces front .ethernet kind
  | sll {kind : Kind} (size : front.length = CookedCapture.Header.size)
      (type : (CookedCapture.Header.type front).kind? = some kind) : Announces front .sll kind
  | snap {kind : Kind} (size : front.length = Snap.Header.size)
      (type : (Snap.Header.type front).kind? = some kind) : Announces front .snap kind
  | loopback {kind : Kind} (size : front.length = Loopback.headerSize)
      (family : Loopback.kind? (Loopback.familyOf front) = some kind) :
      Announces front .loopback kind

variable {kind link : Kind} {size : Nat}

theorem Declares.size_le (declares : Declares bytes kind size) : size ≤ bytes.length := by
  cases declares with
  | ipv4 header nonzero inside => exact inside
  | ipv6 inside => exact inside
  | eapol inside => exact inside

theorem Declares.notNames (declares : Declares bytes kind size) : kind ≠ .dns := by
  cases declares <;> decide

theorem Declares.take_ne_nil (declares : Declares bytes kind size) : bytes.take size ≠ [] := by
  have inside := declares.size_le
  have positive : 0 < size := by
    cases declares with
    | ipv4 header nonzero _ => exact Nat.pos_of_ne_zero nonzero
    | ipv6 _ => exact Nat.succ_pos _
    | eapol _ => exact Nat.succ_pos _
  intro empty
  have length := congrArg List.length empty
  rw [List.length_take, Nat.min_eq_left inside] at length
  exact absurd length (Nat.ne_of_gt positive)

theorem Declares.decode_take_append (declares : Declares bytes kind size)
    (covers : Covers bytes kind) (junk : Bytes) :
    Layer.decode kind (bytes.take size ++ junk) = Layer.decode kind (bytes.take size) := by
  have length : (bytes.take size).length = size := by
    rw [List.length_take, Nat.min_eq_left declares.size_le]
  have same {field : HeaderField} (fixed : field.endByte ≤ size) :
      field.get (bytes.take size) = field.get bytes := by
    have split := Span.get_append field.toSpan (bytes.take size) (bytes.drop size)
      (by rwa [length])
    rwa [List.take_append_drop, eq_comm] at split
  cases declares with
  | ipv4 header nonzero inside =>
      have covered := covers rfl
      unfold Ipv4.Cut at covered
      have large : Ipv4.Header.size ≤ Ipv4.Header.totalLength.get bytes := by omega
      have fixed {field : HeaderField} (fixed : field.endByte ≤ Ipv4.Header.size) :=
        same (Nat.le_trans fixed large)
      refine congrArg (Except.map _) (Ipv4.decode_append ?_ ?_ ?_)
      · rwa [length]
      · rw [fixed (by decide), length]
      · rw [fixed (by decide), fixed (by decide), length]
        omega
  | ipv6 inside =>
      refine congrArg (Except.map _) (Ipv6.decode_append ?_)
      rw [same (Nat.le_trans (by decide) (Nat.le_add_left Ipv6.Header.size _)), length]
  | eapol inside =>
      refine congrArg (Except.map _) (Eapol.decode_append ?_)
      rw [same (Nat.le_trans (by decide) (Nat.le_add_left Eapol.Header.size _)), length]

namespace Packet

theorem parse_of_notNames (notNames : kind ≠ .dns) (bytes : Bytes) :
    parse kind bytes =
      match Layer.decode kind bytes with
      | .error failure => .error failure.asMalformed
      | .ok ⟨layer, payload, next⟩ =>
          if payload.isEmpty then .ok (.single layer)
          else match next with
            | none => .ok (.over layer (raw payload))
            | some inner => (parse inner payload).map (.over layer) := by
  rw [parse]
  split
  · rename_i failure read
    rw [read]
  · rename_i layer payload next read
    have inside := headerSize_le_of_decode read notNames
    rw [if_neg (Nat.not_lt.mpr inside)]
    -- Reading what is inside depends on the equation that says how it was announced.
    cases next with
    | none => simp only [read]
    | some inner => simp only [read]

theorem parse_congr (notNames : kind ≠ .dns) {other : Bytes}
    (same : Layer.decode kind other = Layer.decode kind bytes) :
    parse kind other = parse kind bytes := by
  rw [parse_of_notNames notNames, parse_of_notNames notNames, same]

theorem exists_parse_of_announces (announces : Announces front link kind) :
    ∃ layer : Layer, ∀ payload, payload ≠ [] →
      parse link (front ++ payload) = (parse kind payload).map (.over layer) := by
  obtain ⟨notNames, layer, read⟩ : link ≠ .dns ∧ ∃ layer : Layer, ∀ payload,
      Layer.decode link (front ++ payload) = .ok ⟨layer, payload, some kind⟩ := by
    cases announces with
    | ethernet size type =>
        refine ⟨by decide, .ethernet (Ethernet.ofBytes front), fun payload => ?_⟩
        rw [Layer.decode, Ethernet.decode_append size, type]
        rfl
    | sll size type =>
        refine ⟨by decide, .sll (CookedCapture.ofBytes front), fun payload => ?_⟩
        rw [Layer.decode, CookedCapture.decode_append size, type]
        rfl
    | snap size type =>
        refine ⟨by decide, .snap (Snap.ofBytes front), fun payload => ?_⟩
        rw [Layer.decode, Snap.decode_append size, type]
        rfl
    | loopback size family =>
        refine ⟨by decide, .loopback ⟨Loopback.familyOf front⟩, fun payload => ?_⟩
        rw [Layer.decode, Loopback.decode_append size, family]
        rfl
  refine ⟨layer, fun payload filled => ?_⟩
  have some : ¬ payload.isEmpty = true := fun empty => filled (List.isEmpty_iff.mp empty)
  rw [parse_of_notNames notNames, read]
  exact if_neg some

theorem parse_of_covers (declares : Declares bytes kind size) (covers : Covers bytes kind)
    (junk : Bytes) :
    parse kind (bytes ++ junk) = parse kind bytes ∧
      parse kind (bytes.take size) = parse kind bytes := by
  have cut (junk : Bytes) : parse kind (bytes.take size ++ junk) = parse kind (bytes.take size) :=
    parse_congr declares.notNames (declares.decode_take_append covers junk)
  have alone := cut (bytes.drop size)
  have more := cut (bytes.drop size ++ junk)
  rw [List.take_append_drop] at alone
  rw [← List.append_assoc, List.take_append_drop] at more
  exact ⟨more.trans alone.symm, alone.symm⟩

theorem parse_of_not_covers (declares : Declares bytes kind size) (cut : ¬ Covers bytes kind)
    (junk : Bytes) :
    (∃ cause, parse kind (bytes ++ junk) = .malformed cause) ∧
      ∃ cause, parse kind (bytes.take size) = .malformed cause := by
  cases declares with
  | ipv4 header nonzero inside =>
      have notNames : Kind.ipv4 ≠ .dns := by decide
      have cut : Ipv4.Cut bytes := by
        by_contra whole
        exact cut fun _ => whole
      have same {field : HeaderField} (fixed : field.endByte ≤ Ipv4.Header.size) :
          field.get (bytes ++ junk) = field.get bytes :=
        Span.get_append _ _ _ (Nat.le_trans fixed header)
      constructor
      · have longer : Ipv4.Header.size ≤ (bytes ++ junk).length := by
          rw [List.length_append]
          omega
        have again : Ipv4.Cut (bytes ++ junk) := by
          unfold Ipv4.Cut at cut ⊢
          simpa (disch := decide) only [same] using cut
        rcases Ipv4.decode_of_cut longer (by rwa [same (by decide)]) again with ⟨cause, refused⟩
        rw [parse_of_notNames notNames, Layer.decode, refused]
        exact ⟨cause, rfl⟩
      · rcases Ipv4.decode_take_of_cut inside cut with ⟨failure, cause, refused, shown⟩
        rw [parse_of_notNames notNames, Layer.decode, refused]
        exact ⟨cause, congrArg Except.error shown⟩
  | ipv6 _ => exact absurd (covers_of_ne (by decide)) cut
  | eapol _ => exact absurd (covers_of_ne (by decide)) cut

/-- Bytes behind a declared length do not matter, alone and inside a link frame. -/
theorem parse_declared (declares : Declares bytes kind size) (junk : Bytes) :
    (Covers bytes kind → ∀ other, other = bytes ++ junk ∨ other = bytes.take size →
      parse kind other = parse kind bytes ∧
        ∀ link front, Announces front link kind →
          parse link (front ++ other) = parse link (front ++ bytes)) ∧
    (¬ Covers bytes kind →
      ∀ other, other = bytes ∨ other = bytes ++ junk ∨ other = bytes.take size →
        (∃ cause, parse kind other = .malformed cause) ∧
          ∀ link front, Announces front link kind →
            ∃ cause, parse link (front ++ other) = .malformed cause) := by
  have filled := declares.take_ne_nil
  have nonempty : bytes ≠ [] := by
    rintro rfl
    exact filled List.take_nil
  have longer : bytes ++ junk ≠ [] := fun empty => nonempty (List.append_eq_nil_iff.mp empty).1
  constructor
  · rintro covers other among
    have same : other ≠ [] ∧ parse kind other = parse kind bytes := by
      rcases parse_of_covers declares covers junk with ⟨more, fewer⟩
      rcases among with rfl | rfl
      · exact ⟨longer, more⟩
      · exact ⟨filled, fewer⟩
    refine ⟨same.2, fun link front announces => ?_⟩
    rcases exists_parse_of_announces announces with ⟨layer, around⟩
    rw [around other same.1, around bytes nonempty, same.2]
  · rintro cut other among
    obtain ⟨some, cause, refused⟩ : other ≠ [] ∧ ∃ cause, parse kind other = .malformed cause := by
      rcases parse_of_not_covers declares cut [] with ⟨alone, _⟩
      rcases parse_of_not_covers declares cut junk with ⟨more, fewer⟩
      rw [List.append_nil] at alone
      rcases among with rfl | rfl | rfl
      · exact ⟨nonempty, alone⟩
      · exact ⟨longer, more⟩
      · exact ⟨filled, fewer⟩
    refine ⟨⟨cause, refused⟩, fun link front announces => ?_⟩
    rcases exists_parse_of_announces announces with ⟨layer, around⟩
    rw [around other some, refused]
    exact ⟨cause, rfl⟩

/-- A datagram of 28 bytes with two more behind it. -/
def trailing : Bytes :=
  [0x45, 0, 0, 28, 0, 1, 0, 0, 64, 17, 0, 0, 10, 0, 0, 1, 10, 0, 0, 2,
    0, 53, 0, 54, 0, 8, 0, 0, 0xff, 0xff]

/-- A header of 24 bytes that declares a total length of 20. -/
def overrun : Bytes :=
  [0x46, 0, 0, 20, 0, 1, 0, 0, 64, 17, 0, 0, 10, 0, 0, 1, 10, 0, 0, 2, 0, 0, 0, 0]

def ethernetFront : Bytes :=
  [0xff, 0xff, 0xff, 0xff, 0xff, 0xff, 2, 0, 0, 0, 0, 1, 0x08, 0x00]

theorem declares_trailing : Declares trailing .ipv4 28 := .ipv4 (by decide) (by decide) (by decide)

theorem declares_overrun : Declares overrun .ipv4 20 := .ipv4 (by decide) (by decide) (by decide)

theorem parse_trailing : Declares trailing .ipv4 28 ∧
    parse .ipv4 (trailing.take 28) = parse .ipv4 trailing ∧
    parse .ethernet (ethernetFront ++ (trailing ++ [1, 2, 3])) =
      parse .ethernet (ethernetFront ++ trailing) ∧
    ∃ cause, parse .ethernet (ethernetFront ++ overrun.take 20) = .malformed cause := by
  have announces : Announces ethernetFront .ethernet .ipv4 := .ethernet (by decide) (by decide)
  have covers : Covers trailing .ipv4 := by
    unfold Covers Ipv4.Cut
    decide
  have cut : ¬ Covers overrun .ipv4 := by
    unfold Covers Ipv4.Cut
    decide
  rcases parse_declared declares_trailing [1, 2, 3] with ⟨same, _⟩
  rcases parse_declared declares_overrun [] with ⟨_, refused⟩
  exact ⟨declares_trailing, (same covers _ (.inr rfl)).1,
    (same covers _ (.inl rfl)).2 _ _ announces, (refused cut _ (.inr (.inr rfl))).2 _ _ announces⟩

/-- Both are refused, but for different causes: with the last four bytes the header is whole. -/
theorem parse_overrun_ne : Declares overrun .ipv4 20 ∧
    parse .ipv4 overrun = .malformed (.ipv4TotalLength 20 24) ∧
    parse .ipv4 (overrun.take 20) = .malformed (.ipv4Header 4 6) ∧
    parse .ipv4 (overrun.take 20) ≠ parse .ipv4 overrun := by
  have notNames : Kind.ipv4 ≠ .dns := by decide
  have whole : parse .ipv4 overrun = .malformed (.ipv4TotalLength 20 24) := by
    have read : Layer.decode .ipv4 overrun = .malformed (.ipv4TotalLength 20 24) := by decide
    rw [parse_of_notNames notNames, read]
    rfl
  have part : parse .ipv4 (overrun.take 20) = .malformed (.ipv4Header 4 6) := by
    have read : Layer.decode .ipv4 (overrun.take 20) = .malformed (.ipv4Header 4 6) := by decide
    rw [parse_of_notNames notNames, read]
    rfl
  refine ⟨declares_overrun, whole, part, ?_⟩
  rw [whole, part]
  decide

end Packet

end PacketStack
