import PacketStack.Proofs.Packet.Layers

/-!
The form in which layers are read.

Main statement: `canonical_of_decode` says that a layer which was read has this form, and takes no
more room with what it carries than it had.
-/

namespace PacketStack

theorem announced_again {Registered : Type} {ofKind? : Kind → Option Registered}
    {inner known : Option Kind} {current : Registered} (unregistered : ofKind? .raw = none)
    (registered : ∀ kind, known = some kind → ofKind? kind = some current)
    (same : inner = none ∨ inner = some .raw ∨ inner = known) :
    (inner.bind ofKind?).getD current = current := by
  rcases same with rfl | rfl | rfl
  · rfl
  · rw [Option.bind_some, unregistered, Option.getD_none]
  · cases inner with
    | none => rfl
    | some kind => rw [Option.bind_some, registered kind rfl, Option.getD_some]

theorem EtherType.announce_eq {number : UInt16} {inner : Option Kind}
    (known : inner = none ∨ inner = some .raw ∨ inner = (ofId number).kind?) :
    announce inner number = number := by
  rw [announce, Option.map_bind]
  refine announced_again rfl (fun kind registered => ?_) known
  rw [Function.comp_apply, kind?_eq_some_iff.mp registered, Option.map_some, id_ofId]

theorem IpProtocol.announce_eq {protocol : IpProtocol} {inner : Option Kind}
    (known : inner = none ∨ inner = some .raw ∨ inner = protocol.kind?) :
    announce inner protocol = protocol :=
  announced_again rfl (fun _ registered => kind?_eq_some_iff.mp registered) known

theorem Loopback.announce_eq {family : UInt32} {inner : Option Kind}
    (known : inner = none ∨ inner = some .raw ∨ inner = kind? family) :
    announce inner family = family := by
  rcases known with rfl | rfl | rfl
  · rfl
  · rfl
  · unfold kind?
    split
    · rename_i same
      exact same.symm
    · split
      · rename_i listed
        rw [announce, if_pos listed]
      · rfl

namespace Layer

def Canonical (layer : Layer) : Prop :=
  match layer with
  | .loopback layer => layer.family.toNat ≤ 0xffff
  | .arp layer => layer.operation.canonical = layer.operation
  | .ipv4 layer => layer.options.length ≤ 40 ∧ layer.options.length % 4 = 0 ∧
      layer.protocol.canonical = layer.protocol
  | .ipv6 layer => layer.flowLabel.toNat < 2 ^ 20 ∧ layer.nextHeader.canonical = layer.nextHeader
  | .icmp layer => layer.type.canonical = layer.type
  | .tcp layer =>
      (∀ option ∈ layer.options, option.Plain) ∧ layer.headerSize ≤ Tcp.maximumHeader
  | layer => layer.Regular none

variable {layer : Layer} {inner : Option Kind}

theorem Canonical.announced_eq (canonical : layer.Canonical)
    (known : inner = none ∨ inner = some .raw ∨ inner = layer.next?) :
    layer.announced inner = layer := by
  cases layer with
  | ethernet layer => rw [announced, Ethernet.settled, EtherType.announce_eq known]
  | snap layer => rw [announced, Snap.settled, EtherType.announce_eq known]
  | sll layer => rw [announced, CookedCapture.settled, EtherType.announce_eq known]
  | loopback layer => rw [announced, Loopback.settled, Loopback.announce_eq known]
  | ipv4 layer =>
      have same : IpProtocol.announce inner layer.protocol = layer.protocol := by
        apply IpProtocol.announce_eq
        rcases known with none | raw | next
        · exact Or.inl none
        · exact Or.inr (Or.inl raw)
        · have next : inner = layer.next? := next
          rw [next, Ipv4.next?]
          split
          · exact Or.inl rfl
          · exact Or.inr (Or.inr rfl)
      rw [announced, Ipv4.padded, Ipv4.announced, same, Bytes.padTo_of_whole canonical.2.1,
        canonical.2.2]
  | ipv6 layer =>
      rw [announced, Ipv6.settled, Ipv6.announced, IpProtocol.announce_eq known, canonical.2]
  | arp layer => rw [announced, Arp.settled, canonical]
  | icmp layer => rw [announced, Icmp.settled, canonical]
  | _ => rfl

theorem Canonical.regular (canonical : layer.Canonical)
    (known : inner = none ∨ inner = some .raw ∨ inner = layer.next?) : layer.Regular inner := by
  cases layer with
  | loopback layer =>
      have small : layer.family.toNat ≤ 0xffff := canonical
      change (Loopback.announce inner layer.family).toNat ≤ 0xffff
      rwa [Loopback.announce_eq known]
  | ipv4 layer => exact canonical.1
  | ipv6 layer => exact canonical.1
  | tcp layer => exact canonical.1
  | arp layer => trivial
  | icmp layer => trivial
  | _ => exact canonical

theorem Canonical.limit (canonical : layer.Canonical) {length : Nat}
    (small : layer.headerSize + length ≤ 0xffff) : layer.Limit length := by
  cases layer with
  | radioTap layer => exact RadioTap.Complete.headerSize_le canonical
  | ipv4 layer => exact small
  | ipv6 layer => exact Nat.le_trans (Nat.le_add_left _ _) small
  | tcp layer => exact canonical.2
  | udp layer => exact small
  | eapol layer => exact Nat.le_trans small (Nat.le_add_right _ _)
  | _ => trivial

theorem accepts_of_next {kind : Kind} (known : layer.next? = some kind) (body : Bytes) :
    layer.Accepts body := by
  cases layer with
  | dot11 layer =>
      have known : layer.next? = some kind := known
      unfold Wireless.Frame.next? at known
      change layer.body.Accepts body
      cases content : layer.body with
      | data data => trivial
      | _ =>
          rw [content] at known
          cases known
  | dhcp layer => cases known
  | eapol layer => cases known
  | raw layer => cases known
  | _ => trivial

end Layer

def Kind.leastSize : Kind → Nat
  | .ethernet => Ethernet.minimumFrameSize
  | _ => 0

namespace Layer

/-- What is known of a layer of a kind that was read from bytes. -/
structure ReadFrom (kind : Kind) (bytes : Bytes) (decoded : Decoded Layer) : Prop where
  kind_eq : decoded.header.kind = kind
  canonical : decoded.header.Canonical
  next_eq : decoded.next = decoded.header.next?
  accepts : decoded.header.Accepts decoded.payload
  size_le : decoded.header.headerSize + decoded.payload.length +
    decoded.header.trailerSize decoded.payload.length ≤ max bytes.length kind.leastSize

theorem canonical_of_decode {kind : Kind} {bytes : Bytes} {decoded : Decoded Layer}
    (read : decode kind bytes = .ok decoded) (notNames : kind ≠ .dns)
    (notLoopback : kind ≠ .loopback) : ReadFrom kind bytes decoded := by
  have within {size : Nat} (small : size ≤ bytes.length) :
      size + 0 ≤ max bytes.length kind.leastSize := Nat.le_trans small (Nat.le_max_left _ _)
  have fixed {size : Nat} (large : size ≤ bytes.length) :
      size + (bytes.drop size).length ≤ bytes.length := by
    rw [List.length_drop]
    omega
  have named (number : UInt16) :
      (EtherType.ofId number).kind? = (EtherType.ofId (EtherType.ofId number).id).kind? :=
    congrArg EtherType.kind? (EtherType.canonical_ofId number).symm
  cases kind <;> simp only [decode, map_eq_ok] at read <;> obtain ⟨header, read, rfl⟩ := read
  case ethernet =>
    rcases Decoded.fixed_eq_ok.mp read with ⟨large, rfl⟩
    refine ⟨rfl, trivial, named _, trivial, ?_⟩
    change Ethernet.Header.size + (bytes.drop Ethernet.Header.size).length + (60 -
      (Ethernet.Header.size + (bytes.drop Ethernet.Header.size).length)) ≤ max bytes.length 60
    have total := fixed large
    omega
  case dot11 =>
    rcases Wireless.Frame.complete_of_decode read with ⟨complete, next, size, accepts⟩
    exact ⟨rfl, complete, next, accepts, within size⟩
  case radioTap =>
    rcases RadioTap.decode_eq_ok.mp read with ⟨tap, payload, check, complete, size, rfl, rfl⟩
    refine ⟨rfl, complete, rfl, trivial, Nat.le_trans (Nat.le_of_eq ?_) (Nat.le_max_left _ _)⟩
    rw [List.length_append, List.length_append, size, ← Nat.add_assoc]
    rfl
  case snap =>
    rcases Decoded.fixed_eq_ok.mp read with ⟨large, rfl⟩
    exact ⟨rfl, Snap.organization_ofBytes_lt bytes, named _, trivial, within (fixed large)⟩
  case sll =>
    rcases Decoded.fixed_eq_ok.mp read with ⟨large, rfl⟩
    exact ⟨rfl, trivial, named _, trivial, within (fixed large)⟩
  case loopback => exact absurd rfl notLoopback
  case arp =>
    rcases Arp.decode_eq_ok.mp read with ⟨large, _, rfl⟩
    exact ⟨rfl, ArpOperation.canonical_ofId _, rfl, trivial, within (fixed large)⟩
  case ipv4 =>
    rcases Ipv4.complete_of_decode read with ⟨short, words, named, next, size⟩
    exact ⟨rfl, ⟨short, words, named⟩, next, trivial, within size⟩
  case ipv6 =>
    rcases Ipv6.complete_of_decode read with ⟨label, named, next, size⟩
    exact ⟨rfl, ⟨label, named⟩, next, trivial, within size⟩
  case tcp =>
    rcases Tcp.complete_of_decode read with ⟨plain, small, next, size⟩
    exact ⟨rfl, ⟨plain, small⟩, next, trivial, within size⟩
  case udp =>
    rcases Udp.complete_of_decode read with ⟨next, size⟩
    exact ⟨rfl, trivial, next, trivial, within size⟩
  case icmp =>
    rcases Decoded.fixed_eq_ok.mp read with ⟨large, rfl⟩
    exact ⟨rfl, IcmpType.canonical_ofId _, rfl, trivial, within (fixed large)⟩
  case dns => exact absurd rfl notNames
  case dhcp =>
    rcases Dhcp.complete_of_decode read with ⟨readable, next, rest, size⟩
    refine ⟨rfl, readable, next, rest, within ?_⟩
    change header.header.headerSize + header.payload.length ≤ bytes.length
    rw [rest]
    exact size
  case eapol =>
    rcases Eapol.complete_of_decode read with ⟨complete, accepts, next, size⟩
    exact ⟨rfl, complete, next, accepts, within size⟩
  case raw =>
    cases read
    exact ⟨rfl, trivial, rfl, rfl, within (Nat.le_refl _)⟩

end Layer

end PacketStack
