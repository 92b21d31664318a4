import PacketStack.Proofs.Packet.Extents
import PacketStack.Proofs.Packet.Framing

/-!
Packets written into one buffer.

Main statement: `assemble_compositional` says that this never fails for want of room, that it comes
to the same as writing every layer around the finished bytes of those inside, and that each layer
leaves the bytes inside as they were written.
-/

namespace PacketStack

namespace Packet

variable {layer : Layer} {inner : Option Kind} {addresses : Option (IpAddress × IpAddress)}
variable {body bytes : Bytes}

def blank (layer : Layer) (body : Bytes) : Bytes :=
  List.replicate layer.headerSize 0 ++ body ++ List.replicate (layer.trailerSize body.length) 0

@[simp] theorem length_blank (layer : Layer) (body : Bytes) :
    (blank layer body).length =
      layer.headerSize + body.length + layer.trailerSize body.length := by
  simp [blank, Nat.add_assoc]

theorem sparesIn_blank (layer : Layer) (inner : Option Kind)
    (addresses : Option (IpAddress × IpAddress))
    (small : layer.headerSize + body.length + layer.trailerSize body.length < 2 ^ 32) :
    (layer.write inner addresses).SparesIn layer.headerSize layer.checkSize (blank layer body) := by
  have check := layer.checkSize_le_trailerSize body.length
  apply layer.spares_write
  · rw [length_blank]
    omega
  · rwa [length_blank]

theorem faultless_frame (layer : Layer) (inner : Option Kind)
    (addresses : Option (IpAddress × IpAddress))
    (small : layer.headerSize + body.length + layer.trailerSize body.length < 2 ^ 32) :
    (frame layer inner addresses body).Faultless := by
  rw [frame_of_lt small]
  exact (sparesIn_blank layer inner addresses small).faultless.map _

theorem exists_parts_of_frame (framed : frame layer inner addresses body = .ok bytes) :
    ∃ header check : Bytes, header.length = layer.headerSize ∧ check.length = layer.checkSize ∧
      bytes = header ++ body ++
        (List.replicate (layer.trailerSize body.length - layer.checkSize) 0 ++ check) := by
  have room := layer.checkSize_le_trailerSize body.length
  have small := (frame_eq_ok.mp framed).1
  rcases sparesIn_blank layer inner addresses small with ⟨length, middle, _⟩
  rw [frame_of_lt small, Layer.map_eq_ok] at framed
  rcases framed with ⟨_, _, written⟩
  change ((layer.write inner addresses).run.run (blank layer body)).2 = bytes at written
  rw [written, length_blank] at length
  rw [written, length_blank] at middle
  have size : layer.headerSize + body.length + layer.trailerSize body.length - layer.checkSize -
      layer.headerSize = body.length + (layer.trailerSize body.length - layer.checkSize) := by
    omega
  have inside : (blank layer body).window layer.headerSize
      (body.length + (layer.trailerSize body.length - layer.checkSize)) =
        body ++ List.replicate (layer.trailerSize body.length - layer.checkSize) 0 := by
    rw [blank, List.append_assoc, Bytes.window_append_right _ _ _ _ (by simp),
      List.length_replicate, Nat.sub_self, Bytes.window, List.drop_zero, List.take_append,
      List.take_of_length_le (by omega), Nat.add_sub_cancel_left, List.take_replicate,
      Nat.min_eq_left (by omega)]
  rw [size, inside] at middle
  refine ⟨bytes.take layer.headerSize, bytes.drop (layer.headerSize +
    (body.length + (layer.trailerSize body.length - layer.checkSize))), ?_, ?_, ?_⟩
  · rw [List.length_take]
    omega
  · rw [List.length_drop]
    omega
  · calc bytes
      _ = bytes.take (layer.headerSize +
            (body.length + (layer.trailerSize body.length - layer.checkSize))) ++
          bytes.drop (layer.headerSize +
            (body.length + (layer.trailerSize body.length - layer.checkSize))) :=
        (List.take_append_drop _ _).symm
      _ = _ := by
        rw [← Bytes.take_append_window, middle]
        simp only [List.append_assoc]

theorem length_of_frame (framed : frame layer inner addresses body = .ok bytes) :
    bytes.length = layer.headerSize + body.length + layer.trailerSize body.length := by
  have room := layer.checkSize_le_trailerSize body.length
  rcases exists_parts_of_frame framed with ⟨header, check, front, back, rfl⟩
  simp only [List.length_append, List.length_replicate, front, back]
  omega

theorem length_serializeWithin {packet : Packet}
    (written : packet.serializeWithin addresses = .ok bytes) : bytes.length = packet.totalSize := by
  induction packet generalizing addresses bytes with
  | single layer => exact length_of_frame written
  | «over» layer inner ih =>
      rcases serializeWithin_over.mp written with ⟨body, inside, framed⟩
      rw [length_of_frame framed, ih inside, totalSize]

theorem faultless_serializeWithin {packet : Packet} (small : packet.totalSize < 2 ^ 32)
    (addresses : Option (IpAddress × IpAddress)) :
    (packet.serializeWithin addresses).Faultless := by
  induction packet generalizing addresses with
  | single layer => exact faultless_frame layer none addresses small
  | «over» layer inner ih =>
      rw [totalSize] at small
      apply (ih (by omega) layer.addresses?).bind
      intro body within
      apply faultless_frame
      rwa [length_serializeWithin within]

theorem narrow_bind (first second : Nat) :
    (narrow first >>= fun front => narrow (front + second)) = narrow (first + second) := by
  by_cases small : first < 0x100000000
  · simp only [narrow, if_pos small]
    rfl
  · have large : ¬ first + second < 0x100000000 := by omega
    simp only [narrow, if_neg small, if_neg large]
    rfl

theorem measure_eq (packet : Packet) : packet.measure = narrow packet.totalSize := by
  induction packet with
  | single layer => exact narrow_bind _ _
  | «over» layer inner ih =>
      rw [measure, ih]
      by_cases small : inner.totalSize < 0x100000000
      · have inside : narrow inner.totalSize = .ok inner.totalSize := if_pos small
        rw [inside]
        exact narrow_bind _ _
      · have large : ¬ (Packet.over layer inner).totalSize < 0x100000000 := by
          rw [totalSize]
          omega
        rw [narrow, if_neg small, narrow, if_neg large]
        rfl

theorem measure_eq_ok {packet : Packet} (small : packet.totalSize < 2 ^ 32) :
    packet.measure = .ok packet.totalSize := packet.measure_eq.trans (if_pos small)

theorem run_part {start stop : Nat} {write : Write Unit} {frame before : Bytes}
    (there : frame.range start stop = .ok before) :
    (Write.part start stop write).run.run frame =
      ((Write.into before write).1, frame.splice start (Write.into before write).2) := by
  have read : Write.frame.run.run frame = (.ok frame, frame) := rfl
  rw [Write.part, Write.run_bind_ok read, there]
  rfl

theorem range_blank (head size tail : Nat) :
    Bytes.range (List.replicate (head + size + tail) 0) head (head + size) =
      .ok (List.replicate size 0) := by
  rw [Bytes.range_eq_ok, List.length_replicate, Nat.add_sub_cancel_left, Bytes.window,
    List.drop_replicate, List.take_replicate]
  refine ⟨Nat.le_add_right _ _, Nat.le_add_right _ _, ?_⟩
  congr 1
  omega

theorem splice_blank (layer : Layer) (body : Bytes) :
    Bytes.splice (List.replicate
      (layer.headerSize + body.length + layer.trailerSize body.length) 0) layer.headerSize body =
        blank layer body := by
  rw [Bytes.splice, List.take_replicate, List.drop_replicate, blank, List.append_assoc,
    Nat.min_eq_left (by omega), Nat.add_sub_cancel_left]

theorem into_writeWithin {packet : Packet} (small : packet.totalSize < 2 ^ 32)
    (addresses : Option (IpAddress × IpAddress)) :
    ∃ outcome written, Write.into (List.replicate packet.totalSize 0)
        (packet.writeWithin addresses) = (outcome, written) ∧
      written.length = packet.totalSize ∧
      packet.serializeWithin addresses = outcome.map fun _ => written := by
  -- On the layers, of which the inner ones are written first.
  induction packet generalizing addresses with
  | single layer =>
      have spares : (layer.write none addresses).SparesIn layer.headerSize layer.checkSize
          (blank layer []) := sparesIn_blank layer none addresses small
      have same : List.replicate (totalSize (.single layer)) 0 = blank layer [] := by
        simp [totalSize, blank]
      rw [same]
      exact ⟨_, _, rfl, spares.length.trans (length_blank layer []), frame_of_lt small⟩
  | «over» layer inner ih =>
      rw [totalSize] at small
      have inside : inner.totalSize < 2 ^ 32 := by omega
      rcases ih inside layer.addresses? with ⟨outcome, body, written, size, same⟩
      have room := range_blank layer.headerSize inner.totalSize (layer.trailerSize inner.totalSize)
      have part : (Write.part layer.headerSize (layer.headerSize + inner.totalSize)
          (inner.writeWithin layer.addresses?)).run.run (List.replicate
            (layer.headerSize + inner.totalSize + layer.trailerSize inner.totalSize) 0) =
              (outcome, blank layer body) := by
        rw [run_part room, written, ← splice_blank, size]
      have measured : (Write.lift inner.measure).run.run (List.replicate
          (layer.headerSize + inner.totalSize + layer.trailerSize inner.totalSize) 0) =
            (.ok inner.totalSize, List.replicate
              (layer.headerSize + inner.totalSize + layer.trailerSize inner.totalSize) 0) := by
        rw [measure_eq_ok inside]
        rfl
      rw [totalSize, writeWithin, Write.into, Write.run_bind_ok measured, serializeWithin, same]
      cases outcome with
      | error failure =>
          rw [Write.run_bind_error part]
          refine ⟨_, _, rfl, ?_, rfl⟩
          rw [length_blank, size]
      | ok done =>
          rw [Write.run_bind_ok part]
          rw [← size] at small
          have spares := sparesIn_blank layer (some inner.kind) addresses small
          refine ⟨_, _, rfl, spares.length.trans ?_, frame_of_lt small⟩
          rw [length_blank, size]

theorem assembleWithin_eq {packet : Packet} (small : packet.totalSize < 2 ^ 32)
    (addresses : Option (IpAddress × IpAddress)) :
    packet.assembleWithin addresses = packet.serializeWithin addresses := by
  rcases into_writeWithin small addresses with ⟨outcome, written, run, _, same⟩
  rw [assembleWithin, measure_eq_ok small, same]
  change (Write.into (List.replicate packet.totalSize 0) (packet.writeWithin addresses)).1.map
    (fun _ => (Write.into (List.replicate packet.totalSize 0) (packet.writeWithin addresses)).2) = _
  rw [run]

/-- A region is what was written for its packet inside the layer around it: a header, the bytes that
were written for the packet inside, and a trailer, which in a frame of Ethernet is all zeros. -/
structure Region.Framed (region : Region) : Prop where
  written : region.node.assembleWithin (region.parent.bind Layer.addresses?) = .ok region.bytes
  length : region.bytes.length = region.node.totalSize
  parts : ∃ header inside trailer : Bytes, region.bytes = header ++ inside ++ trailer ∧
    header.length = region.node.layer.headerSize ∧
    trailer.length = region.node.trailerSize ∧
    (region.node.kind = .ethernet → ∀ byte ∈ trailer, byte = 0) ∧
    match region.node.inner? with
    | none => inside = []
    | some inner => inside.length = inner.totalSize ∧
        inner.assembleWithin region.node.layer.addresses? = .ok inside

theorem map_node_regionsWithin (parent : Option Layer) (packet : Packet) (bytes : Bytes) :
    (packet.regionsWithin parent bytes).map Region.node = packet.nodes := by
  induction packet generalizing parent bytes with
  | single layer => rfl
  | «over» layer inner ih => rw [regionsWithin, List.map_cons, ih, nodes]

theorem exists_trailer_of_frame (framed : frame layer inner addresses body = .ok bytes) :
    ∃ header trailer : Bytes, bytes = header ++ body ++ trailer ∧
      header.length = layer.headerSize ∧ trailer.length = layer.trailerSize body.length ∧
      (layer.kind = .ethernet → ∀ byte ∈ trailer, byte = 0) := by
  have room := layer.checkSize_le_trailerSize body.length
  rcases exists_parts_of_frame framed with ⟨header, check, front, back, rfl⟩
  refine ⟨header, _, rfl, front, ?_, ?_⟩
  · rw [List.length_append, List.length_replicate, back]
    omega
  · intro link byte member
    have unchecked : layer.checkSize = 0 := by
      cases layer with
      | radioTap layer => cases link
      | _ => rfl
    rw [unchecked, List.length_eq_zero_iff] at back
    rw [back, List.append_nil] at member
    exact List.eq_of_mem_replicate member

theorem window_of_frame {size : Nat} (framed : frame layer inner addresses body = .ok bytes)
    (length : body.length = size) : bytes.window layer.headerSize size = body := by
  rcases exists_trailer_of_frame framed with ⟨header, trailer, whole, front, _, _⟩
  rw [whole, ← front, ← length, List.append_assoc,
    Bytes.window_append_right _ _ _ _ (Nat.le_refl _), Nat.sub_self,
    Bytes.window_append_left _ _ _ rfl]

theorem framed_of_mem_regionsWithin {packet : Packet} {parent : Option Layer} {bytes : Bytes}
    (small : packet.totalSize < 2 ^ 32)
    (written : packet.serializeWithin (parent.bind Layer.addresses?) = .ok bytes)
    {region : Region} (member : region ∈ packet.regionsWithin parent bytes) : region.Framed := by
  induction packet generalizing parent bytes with
  | single layer =>
      rcases List.mem_singleton.mp member with rfl
      rcases exists_trailer_of_frame written with ⟨header, trailer, whole, front, back, zeros⟩
      refine ⟨?_, length_serializeWithin written, header, [], trailer, whole, front, back, zeros,
        rfl⟩
      rw [assembleWithin_eq small, written]
  | «over» layer inner ih =>
      have inside : inner.totalSize < 2 ^ 32 := by
        rw [totalSize] at small
        omega
      rcases serializeWithin_over.mp written with ⟨body, within, framed⟩
      have size := length_serializeWithin within
      rcases exists_trailer_of_frame framed with ⟨header, trailer, whole, front, back, zeros⟩
      rcases List.mem_cons.mp member with rfl | deeper
      · refine ⟨?_, length_serializeWithin written, header, body, trailer, whole, front, ?_, zeros,
          size, ?_⟩
        · rw [assembleWithin_eq small, written]
        · rw [back, size]
          rfl
        · exact (assembleWithin_eq inside layer.addresses?).trans within
      · have known : inner.serializeWithin ((some layer).bind Layer.addresses?) = .ok body := within
        rw [window_of_frame framed size] at deeper
        exact ih inside known deeper

theorem exists_frame_of_mem_regionsWithin {packet : Packet} {parent : Option Layer}
    (written : packet.serializeWithin (parent.bind Layer.addresses?) = .ok bytes)
    {region : Region} (member : region ∈ packet.regionsWithin parent bytes) :
    ∃ inner body, frame region.node.layer inner (region.parent.bind Layer.addresses?) body =
      .ok region.bytes := by
  induction packet generalizing parent bytes with
  | single layer =>
      rcases List.mem_singleton.mp member with rfl
      exact ⟨none, [], written⟩
  | «over» layer inner ih =>
      rcases serializeWithin_over.mp written with ⟨body, within, framed⟩
      rcases List.mem_cons.mp member with rfl | deeper
      · exact ⟨some inner.kind, body, framed⟩
      · have known : inner.serializeWithin ((some layer).bind Layer.addresses?) = .ok body := within
        rw [window_of_frame framed (length_serializeWithin within)] at deeper
        exact ih known deeper

/-- A packet is assembled without a fault and from its layers: each of them is written around what
was written for the layers inside it, which it leaves as it is. -/
theorem assemble_compositional (packet : Packet) (small : packet.totalSize < 2 ^ 32) :
    packet.assemble.Faultless ∧ packet.assemble = packet.serialize ∧
      ∀ bytes, packet.assemble = .ok bytes →
        (packet.regions bytes).map Region.node = packet.nodes ∧
        ∀ region ∈ packet.regions bytes, region.Framed := by
  have same : packet.assemble = packet.serialize := assembleWithin_eq small none
  refine ⟨?_, same, ?_⟩
  · rw [same]
    exact faultless_serializeWithin small none
  · intro bytes assembled
    have written : packet.serializeWithin ((none : Option Layer).bind Layer.addresses?) =
        .ok bytes := same.symm.trans assembled
    exact ⟨map_node_regionsWithin none packet bytes,
      fun region member => framed_of_mem_regionsWithin small written member⟩

/-- A question in a datagram that is filled up to the size of a frame. -/
def paddedFrame : Packet :=
  .over (.ethernet ⟨.ofNat 0x0a0b0c0d0e0f, .ofNat 1, 0⟩)
    (.over (.ipv4 (.new (.ofNat 0x0a000002) (.ofNat 0x0a000001)))
      (.over (.udp ⟨1024, 53, 0⟩) (raw [1, 2, 3])))

theorem paddedFrame_assembled : paddedFrame.totalSize < 2 ^ 32 ∧
    ∃ bytes, paddedFrame.assemble = .ok bytes ∧
      ∀ region ∈ paddedFrame.regions bytes, region.Framed := by
  have small : paddedFrame.totalSize < 2 ^ 32 := by decide
  rcases assemble_compositional paddedFrame small with ⟨_, same, regions⟩
  have success : paddedFrame.serialize.isOk = true := by rfl
  rcases Outcome.isOk_iff.mp success with ⟨bytes, written⟩
  exact ⟨small, bytes, same.trans written, (regions bytes (same.trans written)).2⟩

end Packet

end PacketStack
