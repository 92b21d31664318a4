import PacketStack.Proofs.Packet.Accepting

/-!
Headers of IPv4 that tell how long they are.

The length of a header stands in four bits, which have room for options of forty bytes. Main
statement: `Packet.headerLength_eq_iff` says that a written header tells its true length, and is
read again with its options, just if it has no more of them.
-/

namespace PacketStack

namespace Ipv4

theorem length_padTo_le_forty_iff (ip : Ipv4) :
    (Bytes.padTo 4 ip.options).length ≤ 40 ↔ ip.options.length ≤ 40 := by
  rw [Bytes.length_padTo_four]
  omega

theorem headerLength_written (ip : Ipv4) (checksum : UInt16) (body : Bytes) :
    Header.headerLength.get (ip.written checksum body) = ip.headerSize / 4 % 16 :=
  get_headed (ip.fit _ _) (by simp [values]) _

theorem headerLength_written_eq_iff (ip : Ipv4) (checksum : UInt16) (body : Bytes) :
    4 * Header.headerLength.get (ip.written checksum body) = ip.headerSize ↔
      ip.options.length ≤ 40 := by
  have words := Bytes.length_padTo_four ip.options
  have front : ip.headerSize = 20 + (Bytes.padTo 4 ip.options).length := rfl
  rw [headerLength_written]
  omega

theorem drop_written (ip : Ipv4) (checksum : UInt16) (body : Bytes) :
    (ip.written checksum body).drop ip.headerSize = body := by
  rw [written, headerSize, ← List.drop_drop, drop_headed, List.drop_left]

end Ipv4

namespace Packet

variable {bytes : Bytes}

/-- What is read from bytes is a datagram with the given options, around what is behind its header
if that can be read as what the header says it is. -/
def ReadsOptions (options : Bytes) (headerSize : Nat) (bytes : Bytes) : Prop :=
  ∃ read : Ipv4, reinterpret .ipv4 bytes = .ok (.ipv4 read) ∧ read.options = options ∧
    ∀ content, Around read.next? (bytes.drop headerSize) content →
      parse .ipv4 bytes = .ok (ofLayer (.ipv4 read) content)

theorem length_options_of_reinterpret {read : Ipv4}
    (header : reinterpret .ipv4 bytes = .ok (.ipv4 read)) : read.options.length ≤ 40 := by
  unfold reinterpret at header
  split at header
  · cases header
  · rename_i decoded known
    simp only [Layer.decode, Layer.map_eq_ok] at known
    rcases known with ⟨datagram, known, rfl⟩
    cases header
    exact (Ipv4.complete_of_decode known).1

theorem readsOptions_written_iff (ip : Ipv4) (checksum : UInt16) (body : Bytes)
    (small : ip.headerSize + body.length ≤ 0xffff) :
    ReadsOptions (Bytes.padTo 4 ip.options) ip.headerSize (ip.written checksum body) ↔
      ip.options.length ≤ 40 := by
  constructor
  · rintro ⟨read, header, options, _⟩
    rw [← ip.length_padTo_le_forty_iff, ← options]
    exact length_options_of_reinterpret header
  · intro short
    have decoded := ip.decode_written checksum body [] short small
    rw [List.append_nil] at decoded
    have known : Layer.decode .ipv4 (ip.written checksum body) =
        .ok ⟨.ipv4 (ip.padded checksum), body, (ip.padded checksum).next?⟩ := by
      rw [Layer.decode, decoded]
      rfl
    refine ⟨ip.padded checksum, by rw [reinterpret, known], rfl, ?_⟩
    intro content around
    rw [ip.drop_written] at around
    have inside : (Layer.ipv4 (ip.padded checksum)).headerSize ≤
        (ip.written checksum body).length := by
      rw [Layer.headerSize, ip.headerSize_padded, ip.length_written]
      exact Nat.le_add_right _ _
    exact parse_of_decode known inside around

/-- A header of IPv4 that was written tells its true length, just if it has options of at most forty
bytes, and just then it is read again with these options, filled up with zeros to whole words. -/
theorem headerLength_eq_iff {packet : Packet} (written : packet.serialize = .ok bytes) :
    (packet.regions bytes).map Region.node = packet.nodes ∧
      ∀ region ∈ packet.regions bytes, ∀ ip, region.node.layer = .ipv4 ip →
        (4 * Ipv4.Header.headerLength.get region.bytes = ip.headerSize ↔
          ip.options.length ≤ 40) ∧
        (ReadsOptions (Bytes.padTo 4 ip.options) ip.headerSize region.bytes ↔
          ip.options.length ≤ 40) := by
  refine ⟨map_node_regionsWithin none packet bytes, ?_⟩
  intro region member ip datagram
  have whole : packet.serializeWithin ((none : Option Layer).bind Layer.addresses?) =
      .ok bytes := written
  rcases exists_frame_of_mem_regionsWithin whole member with ⟨inner, body, framed⟩
  rw [datagram] at framed
  rcases Ipv4.turns_write.mp (turns_of_frame framed rfl) with ⟨small, equal⟩
  rw [equal]
  exact ⟨(ip.announced inner).headerLength_written_eq_iff _ body,
    readsOptions_written_iff (ip.announced inner) _ body small⟩

/-- A datagram with as many options that do nothing as given. -/
def idleOptions (count : Nat) : Packet :=
  .single (.ipv4 { Ipv4.new (.ofNat 0x0a000002) (.ofNat 0x0a000001) with
    options := List.replicate count 1 })

theorem idleOptions_read : ∃ bytes, (idleOptions 38).serialize = .ok bytes ∧
    4 * Ipv4.Header.headerLength.get bytes = 60 ∧
    ReadsOptions (Bytes.padTo 4 (List.replicate 38 1)) 60 bytes := by
  have success : (idleOptions 38).serialize.isOk = true := by decide +kernel
  rcases Outcome.isOk_iff.mp success with ⟨bytes, written⟩
  have told := (headerLength_eq_iff written).2 ⟨none, idleOptions 38, bytes⟩
    (List.mem_singleton.mpr rfl) _ rfl
  exact ⟨bytes, written, told.1.mpr (by decide), told.2.mpr (by decide)⟩

/-- The header around eleven words of options is written as one of no words. -/
theorem idleOptions_unread : ∃ bytes, (idleOptions 44).serialize = .ok bytes ∧
    (idleOptions 44).layer.headerSize = 64 ∧ Ipv4.Header.headerLength.get bytes = 0 ∧
    parse .ipv4 bytes = .malformed (.ipv4Header 4 0) := by
  have written : (idleOptions 44).serialize = .ok ([0x40, 0, 0, 64, 0, 1, 0, 0, 128, 0, 0x15, 0xa5,
      10, 0, 0, 1, 10, 0, 0, 2] ++ List.replicate 44 1) := by decide +kernel
  have zero : Ipv4.Header.headerLength.get ([0x40, 0, 0, 64, 0, 1, 0, 0, 128, 0, 0x15, 0xa5,
      10, 0, 0, 1, 10, 0, 0, 2] ++ List.replicate 44 1) = 0 := by decide +kernel
  exact ⟨_, written, rfl, zero, by decide +kernel⟩

end Packet

end PacketStack
