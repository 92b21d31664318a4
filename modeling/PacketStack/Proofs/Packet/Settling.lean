import PacketStack.Proofs.Packet.Rewriting

/-!
Packets that were read and written keep their bytes from then on, also where short frames of a link
are filled up.

Main statement: `serialize_settles`.
-/

namespace PacketStack

theorem EtherType.kind?_ofId_eq_none {number : UInt16}
    (unlisted : number ∉ [EtherType.ipv4, .arp, .ipv6, .eapol].map EtherType.id) :
    (EtherType.ofId number).kind? = none := by
  cases known : EtherType.ofId number with
  | other id => rfl
  | _ =>
      have same := congrArg EtherType.id known
      rw [EtherType.id_ofId] at same
      exact absurd (same ▸ by decide) unlisted

namespace Packet

variable {packet : Packet} {bytes body : Bytes} {inner : Option Kind}

theorem kind_bounded_or_arp {layer : Layer} {type : EtherType}
    (announced : EtherType.ofKind? layer.kind = some type) :
    layer.Bounded ∨ ∃ arp, layer = .arp arp := by
  cases layer with
  | arp arp => exact Or.inr ⟨arp, rfl⟩
  | ipv4 layer => exact Or.inl (Or.inl rfl)
  | ipv6 layer => exact Or.inl (Or.inr (Or.inl rfl))
  | eapol layer => exact Or.inl (Or.inr (Or.inr rfl))
  | _ => cases announced

theorem Canonical.parse_padded (canonical : packet.Canonical)
    (written : packet.serialize = .ok bytes) {type : EtherType}
    (announced : EtherType.ofKind? packet.kind = some type) {padding : Bytes}
    (small : (bytes ++ padding).length < 2 ^ 32) :
    ∃ again, parse packet.kind (bytes ++ padding) = .ok again ∧ again.kind = packet.kind ∧
      (again.serialize = .ok bytes ∨ again.serialize = .ok (bytes ++ padding)) := by
  rcases canonical.framed written with ⟨inner, body, content, framed⟩
  rcases kind_bounded_or_arp announced with bounded | ⟨arp, layer⟩
  · rcases framed.parse_append_eq_ok canonical.layer bounded padding with ⟨again, parsed, same⟩
    refine ⟨again, parsed, ?_, Or.inl ?_⟩
    · calc again.kind
        _ = again.withoutChecksums.kind := again.kind_withoutChecksums.symm
        _ = packet.withoutChecksums.kind := by rw [same]
        _ = packet.kind := packet.kind_withoutChecksums
    · calc again.serialize
        _ = packet.serialize := serialize_eq_of_withoutChecksums same
        _ = .ok bytes := written
  · have message := framed.framed
    have arpKind : packet.kind = .arp := by
      rw [kind, layer]
      rfl
    have regular (carried : Option Kind) : (Layer.arp arp).Regular carried := trivial
    rw [layer, Layer.frame_eq_ok (regular inner)] at message
    -- A message does not tell its own end, so the padding counts as part of what it carries.
    have longer (carried : Option Kind) :
        frame (.arp arp) carried none (body ++ padding) = .ok (bytes ++ padding) := by
      have equal : bytes ++ padding = (Layer.arp arp).written carried 0 (body ++ padding) := by
        rw [message.2]
        exact headed_append _ _ _ _
      rw [equal, Layer.length_written (regular carried)] at small
      exact (Layer.frame_eq_ok (regular carried)).mpr ⟨⟨small, trivial⟩, equal⟩
    have alike : (Layer.arp arp).Canonical := layer ▸ canonical.layer
    have parsed (content : Option Packet) (around : Around none (body ++ padding) content) :
        parse packet.kind (bytes ++ padding) = .ok (ofLayer (.arp arp) content) := by
      have link : (Layer.arp arp).kind ≠ .ethernet := show Kind.arp ≠ .ethernet by decide
      have read := parse_frame (regular none) trivial (longer none) content (by
        rw [Layer.padding_eq_nil link, List.append_nil]
        exact around)
      rw [alike.announced_eq (Or.inl rfl)] at read
      rw [arpKind]
      exact read
    by_cases empty : body ++ padding = []
    · refine ⟨_, parsed none empty, arpKind.symm, Or.inr ?_⟩
      have alone := longer none
      rw [empty] at alone
      exact alone
    · refine ⟨_, parsed (some (Packet.raw (body ++ padding))) ⟨empty, rfl⟩, arpKind.symm, Or.inr ?_⟩
      have part : (body ++ padding).length < 2 ^ 32 := by
        have whole := length_frame (regular none) (longer none)
        omega
      exact serializeWithin_over.mpr ⟨_, serializeWithin_raw _ part, longer _⟩

theorem frame_ethernet {ethernet : Ethernet}
    (known : inner = none ∨ inner = some .raw ∨ inner = (Layer.ethernet ethernet).next?) :
    frame (.ethernet ethernet) inner none body = .ok bytes ↔
      Ethernet.headerSize + body.length + Ethernet.trailerSize body.length < 2 ^ 32 ∧
        bytes = headed Ethernet.Header.size ethernet.values
          (body ++ List.replicate (Ethernet.trailerSize body.length) 0) := by
  have announced : ethernet.settled inner = ethernet := by
    have canonical : (Layer.ethernet ethernet).Canonical := trivial
    have same := canonical.announced_eq known
    injection same
  have regular : (Layer.ethernet ethernet).Regular inner := trivial
  rw [Layer.frame_eq_ok regular, Layer.written, announced]
  exact and_congr_left' (and_iff_left trivial)

theorem frame_ethernet_padded {ethernet : Ethernet} {other : Option Kind}
    (known : inner = none ∨ inner = some .raw ∨ inner = (Layer.ethernet ethernet).next?)
    (others : other = none ∨ other = some .raw ∨ other = (Layer.ethernet ethernet).next?)
    (framed : frame (.ethernet ethernet) inner none body = .ok bytes) :
    frame (.ethernet ethernet) other none
      (body ++ List.replicate (Ethernet.trailerSize body.length) 0) = .ok bytes := by
  have full : Ethernet.trailerSize
      (body ++ List.replicate (Ethernet.trailerSize body.length) (0 : UInt8)).length = 0 := by
    rw [List.length_append, List.length_replicate]
    simp only [Ethernet.trailerSize]
    omega
  rw [frame_ethernet known] at framed
  rw [frame_ethernet others, full, List.replicate_zero, List.append_nil, List.length_append,
    List.length_replicate, Nat.add_zero, ← Nat.add_assoc]
  exact framed

theorem padded_ne_nil (ethernet : Ethernet) (body : Bytes) :
    body ++ (Layer.ethernet ethernet).padding body.length ≠ [] := by
  intro empty
  have nothing := congrArg List.length empty
  rw [Layer.padding, List.length_append, List.length_replicate, List.length_nil] at nothing
  simp only [Ethernet.trailerSize, Ethernet.minimumFrameSize, Ethernet.headerSize,
    Ethernet.Header.size] at nothing
  omega

theorem parse_frame_ethernet {ethernet : Ethernet}
    (unknown : (EtherType.ofId ethernet.payloadType).kind? = none)
    (known : inner = none ∨ inner = some .raw)
    (framed : frame (.ethernet ethernet) inner none body = .ok bytes) :
    ∃ again, parse .ethernet bytes = .ok again ∧ again.serialize = .ok bytes := by
  have known : inner = none ∨ inner = some .raw ∨ inner = (Layer.ethernet ethernet).next? :=
    known.elim Or.inl fun raw => Or.inr (Or.inl raw)
  have canonical : (Layer.ethernet ethernet).Canonical := trivial
  have announced := canonical.announced_eq known
  have regular : (Layer.ethernet ethernet).Regular inner := trivial
  have parsed := parse_frame regular trivial framed
    (some (raw (body ++ (Layer.ethernet ethernet).padding body.length))) (by
      rw [announced, show (Layer.ethernet ethernet).next? = none from unknown]
      exact ⟨padded_ne_nil ethernet body, rfl⟩)
  rw [announced] at parsed
  have padded := frame_ethernet_padded known (Or.inr (Or.inl rfl)) framed
  have small : (body ++ (Layer.ethernet ethernet).padding body.length).length < 2 ^ 32 := by
    have whole := ((frame_ethernet (Or.inr (Or.inl rfl))).mp padded).1
    rw [Layer.padding]
    omega
  exact ⟨_, parsed, serializeWithin_over.mpr ⟨_, serializeWithin_raw _ small, padded⟩⟩

theorem Canonical.parse_ethernet (canonical : packet.Canonical) (link : packet.kind = .ethernet)
    (written : packet.serialize = .ok bytes)
    (carries : ∀ ethernet, packet = .single (.ethernet ethernet) →
      (EtherType.ofId ethernet.payloadType).kind? = none) :
    ∃ again, parse .ethernet bytes = .ok again ∧ again.serialize = .ok bytes := by
  obtain ⟨ethernet, outer⟩ : ∃ ethernet, packet.layer = .ethernet ethernet := by
    rw [kind] at link
    cases layer : packet.layer with
    | ethernet ethernet => exact ⟨ethernet, rfl⟩
    | _ =>
        rw [layer] at link
        cases link
  cases canonical with
  | @single layer canonical accepts =>
      cases outer
      exact parse_frame_ethernet (carries ethernet rfl) (Or.inl rfl) written
  | @raw layer payload canonical unknown filled accepts =>
      cases outer
      rcases serializeWithin_over.mp written with ⟨body, _, framed⟩
      exact parse_frame_ethernet unknown (Or.inr rfl) framed
  | @around layer inner canonical known inside =>
      cases outer
      rcases serializeWithin_over.mp written with ⟨body, whole, framed⟩
      have reached : some inner.kind = none ∨ some inner.kind = some .raw ∨
          some inner.kind = (Layer.ethernet ethernet).next? := Or.inr (Or.inr known.symm)
      have announced := canonical.announced_eq reached
      have small : (body ++ List.replicate (Ethernet.trailerSize body.length) 0).length <
          2 ^ 32 := by
        have whole := ((frame_ethernet reached).mp framed).1
        rw [List.length_append, List.length_replicate]
        omega
      obtain ⟨again, parsed, same, rewritten⟩ := inside.parse_padded whole
        (EtherType.kind?_eq_some_iff.mp known) small
      have padded := frame_ethernet_padded reached reached framed
      refine ⟨.over (.ethernet ethernet) again, ?_, serializeWithin_over.mpr ?_⟩
      · have regular : (Layer.ethernet ethernet).Regular (some inner.kind) := trivial
        have parsed := parse_frame regular trivial framed (some again) (by
          rw [announced, show (Layer.ethernet ethernet).next? = some inner.kind from known]
          exact ⟨padded_ne_nil ethernet body, parsed⟩)
        rw [announced] at parsed
        exact parsed
      · rw [same]
        rcases rewritten with bare | full
        · exact ⟨body, bare, framed⟩
        · exact ⟨_, full, padded⟩

/-- A packet that was read can be written, and what is written is read as a packet that is written
to the same bytes. It is the same packet but for its checksums and the padding of a link frame. Only
a link frame that announces a layer which it does not carry may not be read again. -/
theorem serialize_settles {kind : Kind} (notNames : kind ≠ .dns) (notLoopback : kind ≠ .loopback)
    (short : bytes.length ≤ 65535) (read : parse kind bytes = .ok packet) :
    ∃ written, packet.serialize = .ok written ∧
      ((∀ ethernet, packet = .single (.ethernet ethernet) →
          ethernet.payloadType ∉ [EtherType.ipv4, .arp, .ipv6, .eapol].map EtherType.id) →
        ∃ again, parse kind written = .ok again ∧ again.serialize = .ok written ∧
          (kind ≠ .ethernet → again.withoutChecksums = packet.withoutChecksums)) := by
  rcases canonical_of_parse read notNames notLoopback with ⟨same, canonical, size⟩
  have least : kind.leastSize ≤ 60 := by cases kind <;> decide
  have small : packet.totalSize ≤ 0xffff := by omega
  rcases canonical.serializeWithin_eq_ok small none with ⟨written, serialized, _⟩
  refine ⟨written, serialized, ?_⟩
  intro carries
  by_cases link : kind = .ethernet
  · have unknown : ∀ ethernet, packet = .single (.ethernet ethernet) →
        (EtherType.ofId ethernet.payloadType).kind? = none :=
      fun ethernet alone => EtherType.kind?_ofId_eq_none (carries ethernet alone)
    obtain ⟨again, parsed, rewritten⟩ :=
      canonical.parse_ethernet (same.trans link) serialized unknown
    exact ⟨again, by rw [link]; exact parsed, rewritten, fun other => absurd link other⟩
  · rcases canonical.framed serialized with ⟨inner, body, content, framed⟩
    obtain ⟨again, parsed, unchanged⟩ :=
      framed.parse_eq_ok canonical.layer (by rw [same]; exact link)
    refine ⟨again, by rw [← same]; exact parsed, ?_, fun _ => unchanged⟩
    calc again.serialize
      _ = packet.serialize := serialize_eq_of_withoutChecksums unchanged
      _ = .ok written := serialized

/-- A datagram with checksums that are wrong and a byte behind its end. -/
def staleDatagram : Bytes :=
  [0x45, 0, 0, 29, 0, 1, 0, 0, 64, 17, 0xde, 0xad, 10, 0, 0, 1, 10, 0, 0, 2,
    0, 53, 0, 99, 0, 9, 0xbe, 0xef, 7, 99]

theorem staleDatagram_settles : staleDatagram.length ≤ 65535 ∧
    ∃ packet written again, parse .ipv4 staleDatagram = .ok packet ∧
      packet.serialize = .ok written ∧ parse .ipv4 written = .ok again ∧
      again.serialize = .ok written ∧ again.withoutChecksums = packet.withoutChecksums := by
  have success : (parse .ipv4 staleDatagram).isOk = true := by cbv
  rcases Outcome.isOk_iff.mp success with ⟨packet, read⟩
  have same := (canonical_of_parse read (by decide) (by decide)).1
  obtain ⟨written, serialized, settles⟩ :=
    serialize_settles (by decide) (by decide) (by decide) read
  obtain ⟨again, parsed, rewritten, unchanged⟩ := settles (by
    rintro ethernet rfl
    cases same)
  exact ⟨by decide, packet, written, again, read, serialized, parsed, rewritten,
    unchanged (by decide)⟩

end Packet

end PacketStack
