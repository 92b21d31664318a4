import PacketStack.Proofs.Packet.Stacks

/-!
Stacks of a link layer, a datagram, a message and what it carries, built and read again.

Main statement: `parse_serialize_stack`.
-/

namespace PacketStack.Stack

theorem frame_of_inside {stack : Stack} {addresses : Option (IpAddress × IpAddress)}
    {bytes : Bytes} (written : stack.inside.serializeWithin addresses = .ok bytes) :
    ∃ inner body, Packet.frame stack.message.layer inner addresses body = .ok bytes ∧
      Packet.Around none body (stack.payload.map Packet.raw) := by
  unfold inside at written
  cases content : stack.payload with
  | none =>
      rw [content] at written
      exact ⟨none, [], written, rfl⟩
  | some payload =>
      rw [content] at written
      rcases Packet.serializeWithin_over.mp written with ⟨body, whole, framed⟩
      cases Packet.eq_of_serializeWithin_raw whole
      exact ⟨some .raw, payload, framed, fun empty => stack.filled (by rw [content, empty]), rfl⟩

theorem parse_inside {stack : Stack} {addresses : IpAddress × IpAddress} {bytes : Bytes}
    (version : addresses.1.isV4 = addresses.2.isV4)
    (written : stack.inside.serializeWithin (some addresses) = .ok bytes) :
    ∃ checksum, stack.message.checksum? addresses bytes = some checksum ∧ bytes ≠ [] ∧
      Packet.parse stack.message.layer.kind bytes =
        .ok (.ofLayer (stack.message.settled checksum) (stack.payload.map Packet.raw)) := by
  rcases frame_of_inside written with ⟨inner, body, framed, around⟩
  have regular := Message.regular framed
  have size := Packet.length_frame regular framed
  have accepts : stack.message.layer.Accepts body := by cases stack.message <;> trivial
  have unknown : (stack.message.layer.announced inner).next? = none := by
    cases stack.message <;> rfl
  have notLink : stack.message.layer.kind ≠ .ethernet := by cases stack.message <;> nofun
  have parsed := Packet.parse_frame regular accepts framed
    (stack.payload.map Packet.raw) (by
      rw [unknown, Layer.padding_eq_nil notLink, List.append_nil]
      exact around)
  rw [Message.withChecksum_announced] at parsed
  refine ⟨_, ?_, ?_, parsed⟩
  · rw [((Layer.frame_eq_ok regular).mp framed).2]
    exact stack.message.checksum?_written version inner body
  · intro empty
    have positive : 0 < stack.message.layer.headerSize := by
      cases stack.message with
      | tcp layer options => exact Nat.lt_of_lt_of_le (by decide) (Nat.le_add_right 20 _)
      | udp layer => exact Nat.zero_lt_succ _
      | icmp layer => exact Nat.zero_lt_succ _
    rw [empty, List.length_nil] at size
    omega

theorem parse_carried {stack : Stack} {datagram : Bytes}
    (written : stack.carried.serialize = .ok datagram) :
    ∃ message checksum,
      stack.inside.serializeWithin (some stack.datagram.addresses) = .ok message ∧
      stack.message.checksum? stack.datagram.addresses message = some checksum ∧
      datagram ≠ [] ∧ ∀ more, Packet.parse stack.datagram.layer.kind (datagram ++ more) =
        .ok (.over (stack.datagram.settled stack.message (Checksum.ipv4Header
            (datagram.take stack.datagram.layer.headerSize)))
          (.ofLayer (stack.message.settled checksum) (stack.payload.map Packet.raw))) := by
  rcases Packet.serializeWithin_over.mp written with ⟨message, inner, framed⟩
  rw [stack.datagram.addresses?_layer] at inner
  rw [stack.kind_inside] at framed
  rcases parse_inside stack.datagram.version_eq inner with ⟨checksum, sum, filled, parsed⟩
  have regular := stack.datagram.regular (some stack.message.layer.kind)
  have accepts : stack.datagram.layer.Accepts message := by cases stack.datagram <;> trivial
  have bytes := ((Layer.frame_eq_ok regular).mp framed).2
  refine ⟨message, checksum, inner, sum, ?_, fun more => ?_⟩
  · intro empty
    have size := Packet.length_frame regular framed
    have positive : 0 < message.length := List.length_pos_iff.mpr filled
    rw [empty, List.length_nil] at size
    omega
  · have read := Packet.parse_frame_append stack.datagram.bounded regular accepts framed
      (some (.ofLayer (stack.message.settled checksum)
        (stack.payload.map Packet.raw))) (by
        rw [stack.datagram.next?_announced]
        exact ⟨filled, parsed⟩) more
    rw [stack.datagram.withChecksum_announced, stack.datagram.settled_written, ← bytes] at read
    exact read

/-- A stack that was written is read again, each layer with the number of the one inside of it, the
checksums of the written bytes, options that fill whole words and the type of a message by its
name. -/
theorem parse_serialize_stack (stack : Stack) {bytes : Bytes}
    (written : stack.packet.serialize = .ok bytes) :
    ∃ message datagram checksum,
      stack.inside.serializeWithin (some stack.datagram.addresses) = .ok message ∧
      stack.carried.serialize = .ok datagram ∧
      stack.message.checksum? stack.datagram.addresses message = some checksum ∧
      Packet.parse stack.packet.kind bytes = .ok (stack.settled (Checksum.ipv4Header
        (datagram.take stack.datagram.layer.headerSize)) checksum) ∧
      (stack.settled (Checksum.ipv4Header (datagram.take stack.datagram.layer.headerSize))
        checksum).toList.map Layer.kind = stack.packet.toList.map Layer.kind := by
  unfold packet at written
  cases outer : stack.link with
  | none =>
      rw [outer] at written
      rcases parse_carried written with ⟨message, checksum, inner, sum, _, parsed⟩
      refine ⟨message, bytes, checksum, inner, written, sum, ?_, stack.kinds_settled _ _⟩
      have read := parsed []
      rw [List.append_nil] at read
      simp only [packet, settled, outer]
      exact read
  | some link =>
      rw [outer] at written
      rcases Packet.serializeWithin_over.mp written with ⟨datagram, whole, framed⟩
      have alone : link.layer.addresses? = none := by cases link <;> rfl
      rw [alone] at whole
      rcases parse_carried whole with ⟨message, checksum, inner, sum, filled, parsed⟩
      refine ⟨message, datagram, checksum, inner, whole, sum, ?_, stack.kinds_settled _ _⟩
      have accepts : link.layer.Accepts datagram := by cases link <;> trivial
      have read := Packet.parse_frame (link.regular stack.datagram) accepts framed
        (some (.over (stack.datagram.settled stack.message (Checksum.ipv4Header
            (datagram.take stack.datagram.layer.headerSize)))
          (.ofLayer (stack.message.settled checksum) (stack.payload.map Packet.raw)))) (by
          rw [link.announced_eq, link.next?_settled]
          exact ⟨fun empty => filled (List.append_eq_nil_iff.mp empty).1, parsed _⟩)
      have plain (checksum : UInt16) : (link.settled stack.datagram).withChecksum checksum =
          link.settled stack.datagram := by cases link <;> rfl
      rw [link.announced_eq, plain] at read
      simp only [packet, settled, outer]
      exact read

/-- A segment with options inside of a datagram whose options do not fill their last word, in a
frame of a link that is filled up. -/
def shortFrame : Stack where
  link := some (.ethernet ⟨.ofNat 0x0a0b0c0d0e0f, .ofNat 1, 0x1234⟩)
  datagram := .ipv4 ⟨0, 7, 0x4000, 64, .other 99, .ofNat 0x0a000001, .ofNat 0x0a000002, [1, 1, 1],
    0xdead⟩ (by decide) (by decide)
  message := .tcp ⟨80, 1024, 1, 2, ⟨0x12⟩, 512, 0, [.mss 1460, .nop], 0xbeef⟩ (by decide)
  payload := some [42]
  filled := by decide

theorem shortFrame_read : ∃ bytes, shortFrame.packet.serialize = .ok bytes ∧
    ∃ message datagram checksum,
      shortFrame.inside.serializeWithin (some shortFrame.datagram.addresses) = .ok message ∧
      shortFrame.carried.serialize = .ok datagram ∧
      shortFrame.message.checksum? shortFrame.datagram.addresses message = some checksum ∧
      Packet.parse .ethernet bytes = .ok (shortFrame.settled (Checksum.ipv4Header
        (datagram.take shortFrame.datagram.layer.headerSize)) checksum) := by
  have success : shortFrame.packet.serialize.isOk = true := by rfl
  rcases Outcome.isOk_iff.mp success with ⟨bytes, written⟩
  obtain ⟨message, datagram, checksum, inner, whole, sum, parsed, _⟩ :=
    parse_serialize_stack shortFrame written
  exact ⟨bytes, written, message, datagram, checksum, inner, whole, sum, parsed⟩

/-- A message whose type holds a number that has a name. -/
def namelessEcho : Stack where
  link := none
  datagram := .ipv4 (.new (.ofNat 0x0a000002) (.ofNat 0x0a000001)) (by decide) (by decide)
  message := .icmp ⟨.other 8, 0, 0, 0, 0⟩
  payload := none
  filled := nofun

/-- The type is read by its name. -/
theorem namelessEcho_renamed :
    ∃ bytes header, namelessEcho.packet.serialize = .ok bytes ∧
      Packet.parse .ipv4 bytes =
        .ok (.over header (.single (.icmp ⟨.echoRequest, 0, 0, 0, 0xf7ff⟩))) ∧
      IcmpType.echoRequest ≠ .other 8 := by
  have written : namelessEcho.packet.serialize = .ok [0x45, 0, 0, 28, 0, 1, 0, 0, 128, 1, 0x26,
      0xde, 10, 0, 0, 1, 10, 0, 0, 2, 8, 0, 0xf7, 0xff, 0, 0, 0, 0] := by decide +kernel
  exact ⟨_, .ipv4 { Ipv4.new (.ofNat 0x0a000002) (.ofNat 0x0a000001) with
    protocol := .icmp, checksum := 0x26de }, written, by decide +kernel, nofun⟩

end PacketStack.Stack
