import PacketStack.Proofs.Packet.Framing
import PacketStack.Proofs.Packet.Reading

/-!
Packets that were read, written and read again.

Main statements: `Canonical.serializeWithin_eq_ok` says that a packet which was read can be written,
`Framed.parse_eq_ok` that it is read from what was written but for its checksums.
-/

namespace PacketStack

namespace Layer

@[simp] theorem withChecksum_withChecksum (layer : Layer) (first second : UInt16) :
    (layer.withChecksum first).withChecksum second = layer.withChecksum second := by
  cases layer <;> rfl

@[simp] theorem kind_withChecksum (layer : Layer) (checksum : UInt16) :
    (layer.withChecksum checksum).kind = layer.kind := by
  cases layer <;> rfl

theorem frame_withChecksum (layer : Layer) (checksum : UInt16) (inner : Option Kind)
    (addresses : Option (IpAddress × IpAddress)) (body : Bytes) :
    Packet.frame (layer.withChecksum checksum) inner addresses body =
      Packet.frame layer inner addresses body := by
  cases layer <;> rfl

theorem addresses?_withChecksum (layer : Layer) (checksum : UInt16) :
    (layer.withChecksum checksum).addresses? = layer.addresses? := by
  cases layer <;> rfl

theorem headerSize_pos {layer : Layer} (notRaw : layer.kind ≠ .raw) (notNames : layer.kind ≠ .dns) :
    0 < layer.headerSize := by
  have fixed {size more : Nat} (positive : 0 < size) : 0 < size + more :=
    Nat.lt_of_lt_of_le positive (Nat.le_add_right _ _)
  cases layer with
  | dot11 layer => exact fixed (by decide)
  | radioTap layer => exact Nat.lt_of_lt_of_le (by decide) layer.minimum_le
  | ipv4 layer => exact fixed (by decide)
  | tcp layer => exact fixed (by decide)
  | dns layer => exact absurd rfl notNames
  | dhcp layer => exact fixed (by decide)
  | eapol layer => exact Nat.lt_of_lt_of_le (by decide) layer.size_le_headerSize
  | raw layer => exact absurd rfl notRaw
  | _ => exact Nat.zero_lt_succ _

end Layer

namespace Packet

/-- The packet with zero in place of every stored checksum. -/
def withoutChecksums : Packet → Packet
  | .single layer => .single (layer.withChecksum 0)
  | .over layer inner => .over (layer.withChecksum 0) inner.withoutChecksums

theorem kind_withoutChecksums (packet : Packet) : packet.withoutChecksums.kind = packet.kind := by
  cases packet <;> exact Layer.kind_withChecksum _ _

theorem serializeWithin_withoutChecksums (packet : Packet)
    (addresses : Option (IpAddress × IpAddress)) :
    packet.withoutChecksums.serializeWithin addresses = packet.serializeWithin addresses := by
  induction packet generalizing addresses with
  | single layer => exact layer.frame_withChecksum 0 none addresses []
  | «over» layer inner ih =>
      simp only [withoutChecksums, serializeWithin, Layer.addresses?_withChecksum, ih,
        kind_withoutChecksums, Layer.frame_withChecksum]

theorem serialize_eq_of_withoutChecksums {first second : Packet}
    (same : first.withoutChecksums = second.withoutChecksums) :
    first.serialize = second.serialize := by
  calc first.serialize
    _ = first.withoutChecksums.serialize := (serializeWithin_withoutChecksums first none).symm
    _ = second.withoutChecksums.serialize := by rw [same]
    _ = second.serialize := serializeWithin_withoutChecksums second none

variable {packet : Packet} {addresses : Option (IpAddress × IpAddress)} {bytes : Bytes}

theorem frame_of_canonical {layer : Layer} {inner : Option Kind} (canonical : layer.Canonical)
    (known : inner = none ∨ inner = some .raw ∨ inner = layer.next?) (body : Bytes)
    (small : layer.headerSize + body.length + layer.trailerSize body.length ≤ 0xffff)
    (addresses : Option (IpAddress × IpAddress)) :
    ∃ bytes, frame layer inner addresses body = .ok bytes ∧
      bytes.length = layer.headerSize + body.length + layer.trailerSize body.length := by
  have regular := canonical.regular known
  have limit : layer.Limit body.length := canonical.limit (by omega)
  have framed : frame layer inner addresses body = .ok _ :=
    (Layer.frame_eq_ok regular).mpr ⟨⟨by omega, limit⟩, rfl⟩
  exact ⟨_, framed, length_frame regular framed⟩

theorem Canonical.serializeWithin_eq_ok (canonical : packet.Canonical)
    (small : packet.totalSize ≤ 0xffff) (addresses : Option (IpAddress × IpAddress)) :
    ∃ bytes, packet.serializeWithin addresses = .ok bytes ∧ bytes.length = packet.totalSize := by
  induction canonical generalizing addresses with
  | single canonical accepts =>
      exact frame_of_canonical canonical (Or.inl rfl) [] small addresses
  | @raw layer payload canonical unknown some accepts =>
      obtain ⟨bytes, framed, size⟩ :=
        frame_of_canonical canonical (Or.inr (Or.inl rfl)) payload small addresses
      have part : payload.length < 2 ^ 32 := by
        have whole : layer.headerSize + payload.length + layer.trailerSize payload.length ≤
            0xffff := small
        omega
      exact ⟨bytes, serializeWithin_over.mpr ⟨payload, serializeWithin_raw _ part, framed⟩, size⟩
  | @around layer inner canonical known inside ih =>
      have part : inner.totalSize ≤ 0xffff := by
        have whole : layer.headerSize + inner.totalSize + layer.trailerSize inner.totalSize ≤
            0xffff := small
        omega
      rcases ih part layer.addresses? with ⟨body, written, size⟩
      have total : layer.headerSize + body.length + layer.trailerSize body.length ≤ 0xffff := by
        rw [size]
        exact small
      obtain ⟨bytes, framed, length⟩ :=
        frame_of_canonical canonical (Or.inr (Or.inr known.symm)) body total addresses
      refine ⟨bytes, serializeWithin_over.mpr ⟨body, written, framed⟩, ?_⟩
      calc bytes.length
        _ = layer.headerSize + body.length + layer.trailerSize body.length := length
        _ = (Packet.over layer inner).totalSize := by
          rw [size]
          rfl

/-- How a packet is written: as its outermost layer around a body, which is read as a content that
is the same but for its checksums. -/
structure Framed (packet : Packet) (addresses : Option (IpAddress × IpAddress)) (bytes : Bytes)
    (inner : Option Kind) (body : Bytes) (content : Option Packet) : Prop where
  framed : frame packet.layer inner addresses body = .ok bytes
  known : inner = none ∨ inner = some .raw ∨ inner = packet.layer.next?
  accepts : packet.layer.Accepts body
  around : Around packet.layer.next? body content
  same : (ofLayer packet.layer content).withoutChecksums = packet.withoutChecksums

variable {inner : Option Kind} {body : Bytes} {content : Option Packet}

theorem withoutChecksums_ofLayer (layer : Layer) (checksum : UInt16) (content : Option Packet) :
    (ofLayer (layer.withChecksum checksum) content).withoutChecksums =
      (ofLayer layer content).withoutChecksums := by
  cases content <;> simp only [ofLayer, withoutChecksums, Layer.withChecksum_withChecksum]

theorem Canonical.layer (canonical : packet.Canonical) : packet.layer.Canonical := by
  cases canonical <;> assumption

theorem Framed.parse_eq_ok (framed : Framed packet addresses bytes inner body content)
    (canonical : packet.layer.Canonical) (notLink : packet.kind ≠ .ethernet) :
    ∃ again, parse packet.kind bytes = .ok again ∧
      again.withoutChecksums = packet.withoutChecksums := by
  have padding : body ++ packet.layer.padding body.length = body := by
    rw [Layer.padding_eq_nil notLink, List.append_nil]
  have announced := canonical.announced_eq framed.known
  have parsed := parse_frame (canonical.regular framed.known) framed.accepts framed.framed
    content (by rw [announced, padding]; exact framed.around)
  exact ⟨_, parsed, by rw [announced, withoutChecksums_ofLayer, framed.same]⟩

theorem Framed.parse_append_eq_ok (framed : Framed packet addresses bytes inner body content)
    (canonical : packet.layer.Canonical) (bounded : packet.layer.Bounded) (more : Bytes) :
    ∃ again, parse packet.kind (bytes ++ more) = .ok again ∧
      again.withoutChecksums = packet.withoutChecksums := by
  have announced := canonical.announced_eq framed.known
  have parsed := parse_frame_append bounded (canonical.regular framed.known) framed.accepts
    framed.framed content (by rw [announced]; exact framed.around) more
  exact ⟨_, parsed, by rw [announced, withoutChecksums_ofLayer, framed.same]⟩

theorem Canonical.framed (canonical : packet.Canonical)
    (written : packet.serializeWithin addresses = .ok bytes) :
    ∃ inner body content, Framed packet addresses bytes inner body content := by
  induction canonical generalizing addresses bytes with
  | single canonical accepts =>
      exact ⟨none, [], none, written, Or.inl rfl, accepts, rfl, rfl⟩
  | @raw layer payload canonical unknown filled accepts =>
      rcases serializeWithin_over.mp written with ⟨body, whole, framed⟩
      cases eq_of_serializeWithin_raw whole
      refine ⟨some .raw, payload, some (Packet.raw payload), framed, Or.inr (Or.inl rfl), accepts,
        ?_, rfl⟩
      rw [show (Packet.over layer (Packet.raw payload)).layer.next? = none from unknown]
      exact ⟨filled, rfl⟩
  | @around layer inner canonical known inside ih =>
      rcases serializeWithin_over.mp written with ⟨body, whole, framed⟩
      rcases kind_of_next known with ⟨notLink, notNames, _, notRaw⟩
      rcases ih whole with ⟨_, part, content, parts⟩
      rcases parts.parse_eq_ok inside.layer notLink with ⟨again, parsed, same⟩
      have filled : body ≠ [] := by
        have positive := Layer.headerSize_pos notRaw notNames
        have size := length_frame (inside.layer.regular parts.known) parts.framed
        intro empty
        rw [empty, List.length_nil] at size
        have positive : 0 < inner.layer.headerSize := positive
        omega
      refine ⟨some inner.kind, body, some again, framed, Or.inr (Or.inr known.symm),
        Layer.accepts_of_next known body, ?_, ?_⟩
      · rw [show (Packet.over layer inner).layer.next? = some inner.kind from known]
        exact ⟨filled, parsed⟩
      · change Packet.over (layer.withChecksum 0) again.withoutChecksums = _
        rw [same]
        rfl

end Packet

end PacketStack
