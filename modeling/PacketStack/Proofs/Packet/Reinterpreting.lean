import PacketStack.Proofs.Packet.Canonical
import PacketStack.Proofs.Packet.Framing

/-!
The header that is read from bytes alone, and the packet that is read from the same bytes.

Main statement: `parse_eq_carrying_iff` says when they agree where nothing inside is known. The
names of a message may take less room than they need once they are written out, so a message with
names that point to each other may be no packet.
-/

namespace PacketStack.Packet

/-- A layer around bytes without a known meaning, if there are any. -/
def carrying (layer : Layer) (payload : Bytes) : Packet :=
  if payload.isEmpty then .single layer else .over layer (raw payload)

variable {kind : Kind} {bytes payload : Bytes} {layer : Layer} {next : Option Kind}

theorem headerSize_le_of_decode {decoded : Decoded Layer}
    (read : Layer.decode kind bytes = .ok decoded) (notNames : kind ≠ .dns) :
    decoded.header.headerSize ≤ bytes.length := by
  by_cases link : kind = .ethernet
  · subst link
    simp only [Layer.decode, Layer.map_eq_ok] at read
    obtain ⟨header, read, rfl⟩ := read
    exact (Decoded.fixed_eq_ok.mp read).1
  · by_cases loopback : kind = .loopback
    · subst loopback
      simp only [Layer.decode, Layer.map_eq_ok] at read
      obtain ⟨header, read, rfl⟩ := read
      exact (Decoded.fixed_eq_ok.mp read).1
    · have known := Layer.canonical_of_decode read notNames loopback
      have nothing : kind.leastSize = 0 := by
        unfold Kind.leastSize
        split
        · exact absurd rfl link
        · rfl
      have size := known.size_le
      rw [nothing, Nat.max_zero] at size
      omega

theorem parse_of_small (read : Layer.decode kind bytes = .ok ⟨layer, payload, next⟩)
    (small : bytes.length < layer.headerSize) :
    parse kind bytes =
      .malformed (.headerExceedsBuffer kind layer.headerSize bytes.length) := by
  rw [parse]
  split
  · rename_i failure failed
    cases failed.symm.trans read
  · rename_i found content known again
    cases again.symm.trans read
    exact if_pos small

theorem parse_of_last (read : Layer.decode kind bytes = .ok ⟨layer, payload, next⟩)
    (last : payload = [] ∨ next = none) (inside : layer.headerSize ≤ bytes.length) :
    parse kind bytes = .ok (carrying layer payload) := by
  unfold carrying
  cases payload with
  | nil =>
      have alone : Around next [] none := rfl
      exact parse_of_decode read inside alone
  | cons first rest =>
      have unknown : next = none := by
        rcases last with nothing | unknown
        · cases nothing
        · exact unknown
      subst unknown
      have around : Around none (first :: rest) (some (raw (first :: rest))) :=
        ⟨List.cons_ne_nil first rest, rfl⟩
      exact parse_of_decode read inside around

/-- Where nothing known is inside a layer, the packet that is read is this layer around the bytes
behind it. Only a message may be refused, just if it takes more room with its names written out than
it has, and then for this reason. -/
theorem parse_eq_carrying_iff (read : Layer.decode kind bytes = .ok ⟨layer, payload, next⟩)
    (last : payload = [] ∨ next = none) :
    reinterpret kind bytes = .ok layer ∧
      (parse kind bytes = .ok (carrying layer payload) ↔
        kind ≠ .dns ∨ layer.headerSize ≤ bytes.length) ∧
      (parse kind bytes ≠ .ok (carrying layer payload) →
        parse kind bytes =
          .malformed (.headerExceedsBuffer kind layer.headerSize bytes.length)) := by
  have header : reinterpret kind bytes = .ok layer := by rw [reinterpret, read]
  refine ⟨header, ⟨?_, ?_⟩, ?_⟩
  · intro agrees
    right
    apply Nat.le_of_not_lt
    intro small
    rw [parse_of_small read small] at agrees
    cases agrees
  · rintro (notNames | inside)
    · exact parse_of_last read last (headerSize_le_of_decode read notNames)
    · exact parse_of_last read last inside
  · intro differs
    apply parse_of_small read
    apply Nat.lt_of_not_le
    intro inside
    exact differs (parse_of_last read last inside)

/-- A response with two answers, in which four of five names point to the ones before them. -/
def compressedResponse : Bytes :=
  [0x12, 0x34, 0x81, 0x80, 0, 1, 0, 2, 0, 0, 0, 0,
    3, 0x77, 0x77, 0x77, 7, 0x65, 0x78, 0x61, 0x6d, 0x70, 0x6c, 0x65, 3, 0x63, 0x6f, 0x6d, 0,
    0, 1, 0, 1,
    0xc0, 12, 0, 5, 0, 1, 0, 0, 0, 60, 0, 6, 3, 0x77, 0x65, 0x62, 0xc0, 16,
    0xc0, 45, 0, 1, 0, 1, 0, 0, 14, 16, 0, 4, 93, 184, 216, 34]

/-- What the response says. -/
def response : Dns where
  id := 0x1234
  flags := ⟨0x8180⟩
  queries := [⟨.ofText "www.example.com", .a, 1⟩]
  answers := [⟨.ofText "www.example.com", .cname, 1, 60, .name (.ofText "web.example.com")⟩,
    ⟨.ofText "web.example.com", .a, 1, 3600, .ipv4 (.ofNat 0x5db8d822)⟩]
  authority := []
  additional := []

theorem decode_compressedResponse :
    Layer.decode .dns compressedResponse = .ok ⟨.dns response, [], none⟩ := by
  have read : Dns.decode compressedResponse = .ok ⟨response, [], none⟩ := by decide +kernel
  rw [Layer.decode, read]
  rfl

theorem headerSize_response : (Layer.dns response).headerSize = 108 := by decide +kernel

/-- The response is read with as many bytes behind it as its names have been shortened by. -/
theorem parse_compressedResponse_padded :
    ∃ payload,
      Layer.decode .dns (compressedResponse ++ List.replicate 41 0) =
        .ok ⟨.dns response, payload, none⟩ ∧
      parse .dns (compressedResponse ++ List.replicate 41 0) =
        .ok (carrying (.dns response) payload) := by
  have read : Dns.decode (compressedResponse ++ List.replicate 41 0) =
      .ok ⟨response, List.replicate 41 0, none⟩ := by decide +kernel
  have decoded : Layer.decode .dns (compressedResponse ++ List.replicate 41 0) =
      .ok ⟨.dns response, List.replicate 41 0, none⟩ := by
    rw [Layer.decode, read]
    rfl
  obtain ⟨_, agrees, _⟩ := parse_eq_carrying_iff decoded (.inr rfl)
  refine ⟨_, decoded, agrees.mpr (.inr ?_)⟩
  rw [headerSize_response]
  decide

/-- Not every message that can be read alone is read as a packet. -/
theorem compressedResponse_refused :
    reinterpret .dns compressedResponse = .ok (.dns response) ∧
      Layer.decode .dns compressedResponse = .ok ⟨.dns response, [], none⟩ ∧
      parse .dns compressedResponse = .malformed (.headerExceedsBuffer .dns 108 67) := by
  have small : compressedResponse.length < (Layer.dns response).headerSize := by
    rw [headerSize_response]
    decide
  have refused := parse_of_small decode_compressedResponse small
  rw [headerSize_response] at refused
  exact ⟨by rw [reinterpret, decode_compressedResponse], decode_compressedResponse, refused⟩

end PacketStack.Packet
