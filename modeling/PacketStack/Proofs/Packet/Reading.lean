import PacketStack.Proofs.Packet.Canonical

/-!
Packets in the form in which packets are read.

Main statement: `canonical_of_parse` says that a packet which was read has this form and takes no
more room than it had.
-/

namespace PacketStack.Packet

/-- The form in which packets are read. -/
inductive Canonical : Packet → Prop
  | single {layer : Layer} (canonical : layer.Canonical) (accepts : layer.Accepts []) :
      Canonical (.single layer)
  | raw {layer : Layer} {payload : Bytes} (canonical : layer.Canonical)
      (unknown : layer.next? = none) (some : payload ≠ []) (accepts : layer.Accepts payload) :
      Canonical (.over layer (raw payload))
  | around {layer : Layer} {inner : Packet} (canonical : layer.Canonical)
      (known : layer.next? = some inner.kind) (inside : inner.Canonical) :
      Canonical (.over layer inner)

theorem kind_of_next {layer : Layer} {kind : Kind} (known : layer.next? = some kind) :
    kind ≠ .ethernet ∧ kind ≠ .dns ∧ kind ≠ .loopback ∧ kind ≠ .raw := by
  have announced {type : EtherType} (same : type.kind? = some kind) :
      kind ≠ .ethernet ∧ kind ≠ .dns ∧ kind ≠ .loopback ∧ kind ≠ .raw := by
    have number := EtherType.kind?_eq_some_iff.mp same
    refine ⟨?_, ?_, ?_, ?_⟩ <;> rintro rfl <;> cases number
  have transported {protocol : IpProtocol} (same : protocol.kind? = some kind) :
      kind ≠ .ethernet ∧ kind ≠ .dns ∧ kind ≠ .loopback ∧ kind ≠ .raw := by
    have number := IpProtocol.kind?_eq_some_iff.mp same
    refine ⟨?_, ?_, ?_, ?_⟩ <;> rintro rfl <;> cases number
  cases layer with
  | ethernet layer => exact announced known
  | dot11 layer =>
      have known : layer.next? = some kind := known
      unfold Wireless.Frame.next? at known
      split at known
      · split at known
        · cases known
        · cases known
          decide
      · cases known
  | radioTap layer =>
      cases known
      decide
  | snap layer => exact announced known
  | sll layer => exact announced known
  | loopback layer =>
      have known : Loopback.kind? layer.family = some kind := known
      unfold Loopback.kind? at known
      split at known
      · cases known
        decide
      · split at known
        · cases known
          decide
        · cases known
  | ipv4 layer =>
      have known : layer.next? = some kind := known
      unfold Ipv4.next? at known
      split at known
      · cases known
      · exact transported known
  | ipv6 layer => exact transported known
  | _ => cases known

theorem size_mono (layer : Layer) {small large : Nat} (order : small ≤ large) :
    layer.headerSize + small + layer.trailerSize small ≤
      layer.headerSize + large + layer.trailerSize large := by
  cases layer with
  | ethernet layer =>
      simp only [Layer.trailerSize, Ethernet.trailerSize, Layer.headerSize, Ethernet.headerSize,
        Ethernet.Header.size]
      omega
  | _ => exact Nat.add_le_add_right (Nat.add_le_add_left order _) _

theorem canonical_of_parse {kind : Kind} {bytes : Bytes} {packet : Packet}
    (read : parse kind bytes = .ok packet) (notNames : kind ≠ .dns)
    (notLoopback : kind ≠ .loopback) :
    packet.kind = kind ∧ packet.Canonical ∧
      packet.totalSize ≤ max bytes.length kind.leastSize := by
  fun_induction parse kind bytes generalizing packet with
  | case1 => cases read
  | case2 => cases read
  | case3 kind bytes layer payload next decoded large empty =>
      cases read
      have known := Layer.canonical_of_decode decoded notNames notLoopback
      have nothing : payload = [] := List.isEmpty_iff.mp empty
      subst nothing
      exact ⟨known.kind_eq, .single known.canonical known.accepts, known.size_le⟩
  | case4 kind bytes layer payload large filled decoded =>
      cases read
      have known := Layer.canonical_of_decode decoded notNames notLoopback
      have some : payload ≠ [] := fun nothing => filled (List.isEmpty_iff.mpr nothing)
      exact ⟨known.kind_eq, .raw known.canonical known.next_eq.symm some known.accepts,
        known.size_le⟩
  | case5 kind bytes layer payload large filled inner decoded _ ih =>
      rcases Layer.map_eq_ok.mp read with ⟨inside, parsed, result⟩
      cases result
      have known := Layer.canonical_of_decode decoded notNames notLoopback
      rcases kind_of_next known.next_eq.symm with ⟨notLink, notNames, notLoopback, notRaw⟩
      rcases ih parsed notNames notLoopback with ⟨same, canonical, small⟩
      have nothing : inner.leastSize = 0 := by
        unfold Kind.leastSize
        split
        · exact absurd rfl notLink
        · rfl
      rw [nothing, Nat.max_zero] at small
      refine ⟨known.kind_eq, .around known.canonical ?_ canonical, ?_⟩
      · rw [same]
        exact known.next_eq.symm
      · calc (Packet.over layer inside).totalSize
          _ ≤ layer.headerSize + payload.length + layer.trailerSize payload.length :=
            size_mono layer small
          _ ≤ max bytes.length kind.leastSize := known.size_le

end PacketStack.Packet
