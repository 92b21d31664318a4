import PacketStack.Proofs.Packet.Accepting

/-!
Datagrams of UDP which a receiver takes for unchecked, since zero in the place of their checksum
says that none was computed.

Main statement: `Packet.checksum_ne_zero_iff` says when a datagram inside an IP layer is written
with a checksum other than zero: unless its sum without the checksum is all ones, whose complement
is zero.
-/

namespace PacketStack

namespace Udp

theorem checksum_written_eq_zero_iff (udp : Udp) {source destination : IpAddress} (body : Bytes)
    (version : source.isV4 = destination.isV4) (small : Header.size + body.length ≤ 0xffff)
    {datagram : Bytes} (written : datagram = udp.written
      (Checksum.within (some (source, destination)) .udp (udp.written 0 body)) body) :
    Header.checksum.get datagram = 0 ↔
      Checksum.total (Checksum.pseudoOctets source destination .udp datagram.length ++
        Header.checksum.put 0 datagram) = 0xffff := by
  have place : Checksum.At Header.checksum 3 := ⟨rfl, rfl⟩
  have inside : Header.checksum.endByte ≤ Header.size := by decide
  have length : datagram.length = Header.size + body.length := by
    rw [written, Udp.written, length_headed]
  have reach : Header.checksum.endByte ≤ datagram.length := by
    rw [length]
    exact Nat.le_trans inside (Nat.le_add_right _ _)
  obtain ⟨sum, equal⟩ : ∃ sum, sum = Checksum.addWords
      (Checksum.pseudoHeader source destination .udp datagram.length)
      (Checksum.withoutWord 3 datagram) := ⟨_, rfl⟩
  have computed : Checksum.within (some (source, destination)) .udp (udp.written 0 body) =
      Checksum.complement sum := by
    have known : Checksum.transport? (udp.written 0 body) .udp source destination =
        some (Checksum.within (some (source, destination)) .udp (udp.written 0 body)) :=
      Checksum.within_eq_transport? version (udp.written 0 body)
    rw [udp.transport?_written 0 (Checksum.within (some (source, destination)) .udp
      (udp.written 0 body)), ← written, Checksum.transport?, if_pos version] at known
    rw [equal]
    exact (Option.some.inj known).symm
  have stored : Header.checksum.get datagram = (Checksum.complement sum).toNat := by
    have cut : Header.checksum.get datagram = (Checksum.complement sum).toNat % 2 ^ 16 := by
      rw [written, computed]
      exact get_headed (udp.fit _ _) (by simp [values]) body
    rw [cut, Nat.mod_eq_of_lt (UInt16.toNat_lt _)]
  have blank : (Checksum.total (Checksum.pseudoOctets source destination .udp datagram.length ++
      Header.checksum.put 0 datagram)).toNat = Checksum.fold sum := by
    rw [Checksum.toNat_total_put_zero place rfl
      (Checksum.length_pseudoOctets_mod_two _ _ _ _) reach,
      Checksum.addWords_pseudoOctets _ _ _ (length ▸ small), equal]
  rw [stored, ← UInt16.toNat_inj, blank, ← UInt16.toNat_zero, UInt16.toNat_inj,
    Checksum.complement_eq_zero_iff]
  rfl

end Udp

namespace Packet

/-- The checksum of a datagram of UDP inside an IP layer is not zero, just if the sum of the
addresses, the protocol, the length and the datagram with a blank checksum is not all ones. -/
theorem checksum_ne_zero_iff {packet : Packet} {bytes : Bytes}
    (written : packet.serialize = .ok bytes) :
    (packet.regions bytes).map Region.node = packet.nodes ∧
      ∀ region ∈ packet.regions bytes, ∀ udp source destination,
        region.node.layer = .udp udp →
        region.parent.bind Layer.addresses? = some (source, destination) →
          (Udp.Header.checksum.get region.bytes ≠ 0 ↔
            Checksum.total (Checksum.pseudoOctets source destination .udp region.bytes.length ++
              Udp.Header.checksum.put 0 region.bytes) ≠ 0xffff) := by
  refine ⟨map_node_regionsWithin none packet bytes, ?_⟩
  intro region member udp source destination message known
  have whole : packet.serializeWithin ((none : Option Layer).bind Layer.addresses?) =
      .ok bytes := written
  rcases exists_frame_of_mem_regionsWithin whole member with ⟨inner, body, framed⟩
  rw [message] at framed
  rcases Udp.turns_write.mp (turns_of_frame framed rfl) with ⟨small, equal⟩
  rw [known] at equal
  have version : source.isV4 = destination.isV4 := by
    rcases Option.bind_eq_some_iff.mp known with ⟨outer, _, found⟩
    exact isV4_eq_of_addresses? found
  exact not_congr (udp.checksum_written_eq_zero_iff body version small equal)

/-- A datagram without content. -/
def emptyDatagram (sourcePort : UInt16) : Packet :=
  .over (.ipv4 (.new (.ofNat 0x0a000002) (.ofNat 0x0a000001))) (.single (.udp ⟨sourcePort, 53, 0⟩))

/-- The region of the datagram inside its IP layer. -/
def datagramRegion (sourcePort : UInt16) (bytes : Bytes) : Region :=
  ⟨some (emptyDatagram sourcePort).layer, .single (.udp ⟨sourcePort, 53, 0⟩), bytes.window 20 8⟩

theorem datagramRegion_mem (sourcePort : UInt16) (bytes : Bytes) :
    datagramRegion sourcePort bytes ∈ (emptyDatagram sourcePort).regions bytes :=
  List.mem_cons_of_mem _ (List.mem_singleton.mpr rfl)

theorem emptyDatagram_checked : ∃ bytes, (emptyDatagram 1024).serialize = .ok bytes ∧
    datagramRegion 1024 bytes ∈ (emptyDatagram 1024).regions bytes ∧
    Udp.Header.checksum.get (datagramRegion 1024 bytes).bytes ≠ 0 := by
  have written : (emptyDatagram 1024).serialize = .ok [0x45, 0, 0, 28, 0, 1, 0, 0, 128, 17, 0x26,
      0xce, 10, 0, 0, 1, 10, 0, 0, 2, 4, 0, 0, 53, 0, 8, 0xe7, 0xa6] := by decide +kernel
  have member := datagramRegion_mem 1024 [0x45, 0, 0, 28, 0, 1, 0, 0, 128, 17, 0x26, 0xce,
    10, 0, 0, 1, 10, 0, 0, 2, 4, 0, 0, 53, 0, 8, 0xe7, 0xa6]
  have checked := (checksum_ne_zero_iff written).2 _ member _ _ _ rfl rfl
  exact ⟨_, written, member, checked.mpr (by decide +kernel)⟩

/-- The words of this datagram come to the word of ones alone, so its checksum is written as
zero. -/
theorem emptyDatagram_unchecked : ∃ bytes, (emptyDatagram 60326).serialize = .ok bytes ∧
    datagramRegion 60326 bytes ∈ (emptyDatagram 60326).regions bytes ∧
    Udp.Header.checksum.get (datagramRegion 60326 bytes).bytes = 0 := by
  have written : (emptyDatagram 60326).serialize = .ok [0x45, 0, 0, 28, 0, 1, 0, 0, 128, 17, 0x26,
      0xce, 10, 0, 0, 1, 10, 0, 0, 2, 0xeb, 0xa6, 0, 53, 0, 8, 0, 0] := by decide +kernel
  exact ⟨_, written, datagramRegion_mem _ _, by decide +kernel⟩

end Packet

end PacketStack
