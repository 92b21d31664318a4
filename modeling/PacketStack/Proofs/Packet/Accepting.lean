import PacketStack.Proofs.Header.OnesComplement
import PacketStack.Proofs.Internet.Ipv4
import PacketStack.Proofs.Internet.Ipv6
import PacketStack.Proofs.Internet.Messages
import PacketStack.Proofs.Packet.Assembly
import PacketStack.Proofs.Transport.Tcp
import PacketStack.Proofs.Transport.Udp

/-!
What a receiver makes of the checksums in a packet that was written.

Main statement: `Packet.serialize_accepted` says that it accepts all of them, those of headers of
IPv4, of control messages, and of the transports that stand right inside an IP layer.
-/

namespace PacketStack

namespace Ipv4

def Header.whole (bytes : Bytes) : Bytes := bytes.take (4 * headerLength.get bytes)

theorem whole_written (ip : Ipv4) (checksum : UInt16) (body : Bytes)
    (short : ip.options.length ≤ 40) : Header.whole (ip.written checksum body) =
      headed Header.size (ip.values (ip.headerSize + body.length) checksum)
        (Bytes.padTo 4 ip.options) := by
  have room := Bytes.length_padTo_four ip.options
  have front : ip.headerSize = Header.size + (Bytes.padTo 4 ip.options).length := rfl
  have twenty : Header.size = 20 := rfl
  have cut : Header.headerLength.get (ip.written checksum body) = ip.headerSize / 4 % 2 ^ 4 :=
    get_headed (ip.fit (ip.headerSize + body.length) checksum) (by simp [values]) _
  have words : 4 * Header.headerLength.get (ip.written checksum body) = ip.headerSize := by
    rw [cut]
    omega
  rw [Header.whole, words, written, front, take_headed, List.take_left]

theorem accepted_written (ip : Ipv4) (body : Bytes) (short : ip.options.length ≤ 40) :
    Checksum.Accepted Header.checksum (fun header => some (Checksum.ipv4Header header)) []
      (Header.whole (ip.written
        (Checksum.ipv4Header ((ip.written 0 body).take ip.headerSize)) body)) := by
  have place : Checksum.At Header.checksum 5 := ⟨rfl, rfl⟩
  have inside : Header.checksum.endByte ≤ Header.size := by decide
  rw [whole_written ip _ body short]
  apply Checksum.accepted_message ((ip.values (ip.headerSize + body.length) 0).take 10) place rfl
    inside
  rw [written, headerSize, take_headed, List.take_left]
  rfl

end Ipv4

namespace Icmp

theorem accepted_written (icmp : Icmp) (body : Bytes) :
    Checksum.Accepted Header.checksum (fun message => some (Checksum.icmp message)) []
      (icmp.written (Checksum.icmp (icmp.written 0 body)) body) := by
  have place : Checksum.At Header.checksum 1 := ⟨rfl, rfl⟩
  have inside : Header.checksum.endByte ≤ Header.size := by decide
  exact Checksum.accepted_message ((icmp.values 0).take 4) place rfl inside rfl

end Icmp

namespace Tcp

theorem accepted_written (tcp : Tcp) {source destination : IpAddress} (body : Bytes)
    (version : source.isV4 = destination.isV4) (small : tcp.headerSize + body.length ≤ 0xffff)
    {segment : Bytes} (written : segment = tcp.written
      (Checksum.within (some (source, destination)) .tcp (tcp.written 0 body)) body) :
    Checksum.Accepted Header.checksum (Checksum.transport? · .tcp source destination)
      (Checksum.pseudoOctets source destination .tcp segment.length) segment := by
  have place : Checksum.At Header.checksum 8 := ⟨rfl, rfl⟩
  have inside : Header.checksum.endByte ≤ Header.size := by decide
  have length : Header.size + (tcp.optionBytes ++ body).length = tcp.headerSize + body.length := by
    rw [List.length_append, headerSize, Nat.add_assoc]
  rw [written, length_written, ← length]
  exact Checksum.accepted_transport ((tcp.values 0).take 8) rfl place rfl inside version
    (length ▸ small) rfl

end Tcp

namespace Udp

theorem accepted_written (udp : Udp) {source destination : IpAddress} (body : Bytes)
    (version : source.isV4 = destination.isV4) (small : Header.size + body.length ≤ 0xffff)
    {datagram : Bytes} (written : datagram = udp.written
      (Checksum.within (some (source, destination)) .udp (udp.written 0 body)) body) :
    Checksum.Accepted Header.checksum (Checksum.transport? · .udp source destination)
      (Checksum.pseudoOctets source destination .udp datagram.length) datagram := by
  have place : Checksum.At Header.checksum 3 := ⟨rfl, rfl⟩
  have inside : Header.checksum.endByte ≤ Header.size := by decide
  rw [written, Udp.written, length_headed]
  exact Checksum.accepted_transport ((udp.values (Header.size + body.length) 0).take 3) rfl place
    rfl inside version small rfl

end Udp

namespace Packet

variable {layer : Layer} {inner : Option Kind} {addresses : Option (IpAddress × IpAddress)}
  {body bytes : Bytes}

/-- Where a layer has a checksum, a receiver accepts it: in a header of IPv4 with options of at most
40 bytes, in a control message, and in a transport right inside an IP layer. -/
def Region.Accepted (region : Region) : Prop :=
  match region.node.layer with
  | .ipv4 ip => ip.options.length ≤ 40 →
      Checksum.Accepted Ipv4.Header.checksum (fun header => some (Checksum.ipv4Header header)) []
        (Ipv4.Header.whole region.bytes)
  | .icmp _ =>
      Checksum.Accepted Icmp.Header.checksum (fun message => some (Checksum.icmp message)) []
        region.bytes
  | .tcp _ => ∀ source destination,
      region.parent.bind Layer.addresses? = some (source, destination) →
        Checksum.Accepted Tcp.Header.checksum (Checksum.transport? · .tcp source destination)
          (Checksum.pseudoOctets source destination .tcp region.bytes.length) region.bytes
  | .udp _ => ∀ source destination,
      region.parent.bind Layer.addresses? = some (source, destination) →
        Checksum.Accepted Udp.Header.checksum (Checksum.transport? · .udp source destination)
          (Checksum.pseudoOctets source destination .udp region.bytes.length) region.bytes
  | _ => True

theorem isV4_eq_of_addresses? {layer : Layer} {source destination : IpAddress}
    (known : layer.addresses? = some (source, destination)) : source.isV4 = destination.isV4 := by
  cases layer with
  | ipv4 ip =>
      cases known
      rfl
  | ipv6 ip =>
      cases known
      rfl
  | _ => cases known

theorem turns_of_frame (framed : frame layer inner addresses body = .ok bytes)
    (bare : layer.trailerSize body.length = 0) :
    (layer.write inner addresses).Turns (headed layer.headerSize [] body) () bytes := by
  have turned := (frame_eq_ok.mp framed).2
  rwa [bare, List.replicate_zero, List.append_nil] at turned

theorem length_le_of_addresses? (known : layer.addresses?.isSome)
    (framed : frame layer inner addresses body = .ok bytes) : body.length ≤ 0xffff := by
  cases layer with
  | ipv4 ip =>
      have fits := (Ipv4.turns_write.mp (turns_of_frame framed rfl)).1
      exact Nat.le_trans (Nat.le_add_left _ _) fits
  | ipv6 ip => exact (Ipv6.turns_write.mp (turns_of_frame framed rfl)).1
  | _ => cases known

theorem accepted_of_frame {parent : Option Layer} {node : Packet} (same : node.layer = layer)
    (small : (parent.bind Layer.addresses?).isSome → bytes.length ≤ 0xffff)
    (framed : frame layer inner (parent.bind Layer.addresses?) body = .ok bytes) :
    Region.Accepted ⟨parent, node, bytes⟩ := by
  have version {source destination : IpAddress}
      (known : parent.bind Layer.addresses? = some (source, destination)) :
      source.isV4 = destination.isV4 := by
    rcases Option.bind_eq_some_iff.mp known with ⟨outer, _, found⟩
    exact isV4_eq_of_addresses? found
  rw [Region.Accepted, same]
  cases layer with
  | ipv4 ip =>
      intro short
      rw [(Ipv4.turns_write.mp (turns_of_frame framed rfl)).2]
      exact (ip.announced inner).accepted_written body short
  | icmp icmp =>
      have turned := turns_of_frame framed rfl
      rw [Icmp.turns_write.mp turned]
      exact icmp.accepted_written body
  | tcp tcp =>
      intro source destination known
      have written := (Tcp.turns_write.mp (turns_of_frame framed rfl)).2
      rw [known] at written small
      have fits := small rfl
      rw [written, Tcp.length_written] at fits
      exact tcp.accepted_written body (version known) fits written
  | udp udp =>
      intro source destination known
      rcases Udp.turns_write.mp (turns_of_frame framed rfl) with ⟨fits, written⟩
      rw [known] at written
      exact udp.accepted_written body (version known) fits written
  | _ => trivial

theorem accepted_of_mem_regionsWithin {packet : Packet} {parent : Option Layer}
    (small : (parent.bind Layer.addresses?).isSome → bytes.length ≤ 0xffff)
    (written : packet.serializeWithin (parent.bind Layer.addresses?) = .ok bytes)
    {region : Region} (member : region ∈ packet.regionsWithin parent bytes) :
    region.bytes.length = region.node.totalSize ∧ region.Accepted := by
  -- What is inside an IP layer is short enough for its length to be summed in one word.
  induction packet generalizing parent bytes with
  | single layer =>
      rcases List.mem_singleton.mp member with rfl
      exact ⟨length_serializeWithin written, accepted_of_frame rfl small written⟩
  | «over» layer inner ih =>
      rcases serializeWithin_over.mp written with ⟨body, within, framed⟩
      rcases List.mem_cons.mp member with rfl | deeper
      · exact ⟨length_serializeWithin written, accepted_of_frame rfl small framed⟩
      · have known : inner.serializeWithin ((some layer).bind Layer.addresses?) = .ok body := within
        rw [window_of_frame framed (length_serializeWithin within)] at deeper
        have fits : ((some layer).bind Layer.addresses?).isSome → body.length ≤ 0xffff :=
          fun inside => length_le_of_addresses? inside framed
        exact ih fits known deeper

/-- A receiver accepts the checksums in all layers of a packet that was written. -/
theorem serialize_accepted {packet : Packet} (written : packet.serialize = .ok bytes) :
    (packet.regions bytes).map Region.node = packet.nodes ∧
      ∀ region ∈ packet.regions bytes,
        region.bytes.length = region.node.totalSize ∧ region.Accepted := by
  have alone : ((none : Option Layer).bind Layer.addresses?).isSome → bytes.length ≤ 0xffff := nofun
  exact ⟨map_node_regionsWithin none packet bytes,
    fun region member => accepted_of_mem_regionsWithin alone written member⟩

theorem paddedFrame_accepted : ∃ bytes, paddedFrame.serialize = .ok bytes ∧
    ∀ region ∈ paddedFrame.regions bytes, region.Accepted := by
  have success : paddedFrame.serialize.isOk = true := by rfl
  rcases Outcome.isOk_iff.mp success with ⟨bytes, written⟩
  exact ⟨bytes, written, fun region member => ((serialize_accepted written).2 region member).2⟩

end Packet

end PacketStack
