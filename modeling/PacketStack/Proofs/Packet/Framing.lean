import PacketStack.Proofs.Packet.Layers

/-!
One layer of a packet, written around what it carries and read again with it.

Main statements: `parse_frame` and `parse_frame_append` say which packet is read from a frame.
-/

namespace PacketStack.Packet

/-- What a layer is read around, where its payload is of a known kind or not. -/
def Around (next : Option Kind) (payload : Bytes) : Option Packet → Prop
  | none => payload = []
  | some inner => payload ≠ [] ∧
      match next with
      | none => inner = raw payload
      | some kind => parse kind payload = .ok inner

theorem parse_of_decode {kind : Kind} {bytes payload : Bytes} {layer : Layer}
    {next : Option Kind} {inner : Option Packet}
    (read : Layer.decode kind bytes = .ok ⟨layer, payload, next⟩)
    (inside : layer.headerSize ≤ bytes.length) (around : Around next payload inner) :
    parse kind bytes = .ok (ofLayer layer inner) := by
  rw [parse]
  split
  · rename_i failure failed
    cases failed.symm.trans read
  · rename_i found content known again
    cases again.symm.trans read
    rw [if_neg (Nat.not_lt.mpr inside)]
    cases inner with
    | none =>
        have empty : payload.isEmpty = true := List.isEmpty_iff.mpr around
        rw [if_pos empty]
        rfl
    | some inner =>
        rcases around with ⟨some, same⟩
        have filled : ¬ payload.isEmpty = true := fun empty => some (List.isEmpty_iff.mp empty)
        rw [if_neg filled]
        cases next with
        | none =>
            rw [show inner = raw payload from same]
            rfl
        | some kind =>
            have parsed : parse kind payload = .ok inner := same
            simp only [parsed]
            rfl

variable {layer : Layer} {inner : Option Kind} {addresses : Option (IpAddress × IpAddress)}
variable {body bytes : Bytes}

theorem length_frame (regular : layer.Regular inner)
    (framed : frame layer inner addresses body = .ok bytes) :
    bytes.length = layer.headerSize + body.length + layer.trailerSize body.length := by
  rw [((Layer.frame_eq_ok regular).mp framed).2]
  exact Layer.length_written regular _ body

theorem parse_frame (regular : layer.Regular inner) (accepts : layer.Accepts body)
    (framed : frame layer inner addresses body = .ok bytes) (content : Option Packet)
    (around : Around (layer.announced inner).next? (body ++ layer.padding body.length) content) :
    parse layer.kind bytes = .ok (ofLayer ((layer.announced inner).withChecksum
      (layer.checksum inner addresses body)) content) := by
  have size := length_frame regular framed
  rcases (Layer.frame_eq_ok regular).mp framed with ⟨⟨_, limit⟩, equal⟩
  have read := Layer.decode_written regular accepts limit (layer.checksum inner addresses body)
  rw [← equal] at read
  refine parse_of_decode read ?_ around
  rw [Layer.headerSize_withChecksum, Layer.headerSize_announced]
  omega

theorem parse_frame_append (bounded : layer.Bounded) (regular : layer.Regular inner)
    (accepts : layer.Accepts body) (framed : frame layer inner addresses body = .ok bytes)
    (content : Option Packet) (around : Around (layer.announced inner).next? body content)
    (more : Bytes) :
    parse layer.kind (bytes ++ more) = .ok (ofLayer ((layer.announced inner).withChecksum
      (layer.checksum inner addresses body)) content) := by
  have size := length_frame regular framed
  rcases (Layer.frame_eq_ok regular).mp framed with ⟨⟨_, limit⟩, equal⟩
  have read := Layer.decode_written_append bounded regular accepts limit
    (layer.checksum inner addresses body) more
  rw [← equal] at read
  refine parse_of_decode read ?_ around
  rw [Layer.headerSize_withChecksum, Layer.headerSize_announced, List.length_append]
  omega

theorem serializeWithin_over {packet : Packet} :
    (Packet.over layer packet).serializeWithin addresses = .ok bytes ↔
      ∃ body, packet.serializeWithin layer.addresses? = .ok body ∧
        frame layer (some packet.kind) addresses body = .ok bytes := by
  rw [serializeWithin, Outcome.bind_eq_ok]

theorem serialize_single_eq_ok (regular : layer.Regular none) (limit : layer.Limit 0) :
    (Packet.single layer).serialize = .ok bytes ↔
      (Packet.single layer).totalSize < 2 ^ 32 ∧
        bytes = layer.written none (layer.checksum none none []) [] := by
  have framed : (Packet.single layer).serialize = frame layer none none [] := rfl
  rw [framed, Layer.frame_eq_ok regular]
  exact and_congr_left' (and_iff_left limit)

theorem serializeWithin_raw (addresses : Option (IpAddress × IpAddress)) {payload : Bytes}
    (small : payload.length < 2 ^ 32) : (raw payload).serializeWithin addresses = .ok payload := by
  have regular : (Layer.raw ⟨payload⟩).Regular none := trivial
  change frame (.raw ⟨payload⟩) none addresses [] = .ok payload
  rw [Layer.frame_eq_ok regular]
  exact ⟨⟨small, trivial⟩, (List.append_nil payload).symm⟩

theorem eq_of_serializeWithin_raw {payload : Bytes}
    (written : (raw payload).serializeWithin addresses = .ok bytes) : bytes = payload := by
  have regular : (Layer.raw ⟨payload⟩).Regular none := trivial
  have framed : frame (.raw ⟨payload⟩) none addresses [] = .ok bytes := written
  rw [((Layer.frame_eq_ok regular).mp framed).2]
  exact List.append_nil payload

end PacketStack.Packet
