import PacketStack.Proofs.Header.Checksums
import PacketStack.Proofs.Header.Values

/-!
UDP datagrams that are written and read again.
-/

namespace PacketStack.Udp

def values (udp : Udp) (length : Nat) (checksum : UInt16) : List (HeaderField × Nat) :=
  [(Header.source, udp.sourcePort.toNat), (Header.destination, udp.destinationPort.toNat),
    (Header.length, length), (Header.checksum, checksum.toNat)]

theorem fit (udp : Udp) (length : Nat) (checksum : UInt16) :
    Fit Header.size ((udp.values length checksum).map Prod.fst) := by
  change Fit Header.size [Header.source, Header.destination, Header.length, Header.checksum]
  decide

def written (udp : Udp) (checksum : UInt16) (body : Bytes) : Bytes :=
  headed Header.size (udp.values (Header.size + body.length) checksum) body

theorem transport?_written (udp : Udp) (first second : UInt16) (body : Bytes)
    (source destination : IpAddress) :
    Checksum.transport? (udp.written first body) .udp source destination =
      Checksum.transport? (udp.written second body) .udp source destination := by
  have place : Checksum.At Header.checksum 3 := ⟨rfl, rfl⟩
  have inside : Header.checksum.endByte ≤ Header.size := by decide
  exact Checksum.transport?_headed ((udp.values (Header.size + body.length) 0).take 3) rfl place
    inside _ _

theorem turns_write {udp : Udp} {addresses : Option (IpAddress × IpAddress)}
    {body bytes : Bytes} :
    (udp.write addresses).Turns (headed Header.size [] body) () bytes ↔
      Header.size + body.length ≤ 0xffff ∧
        bytes = udp.written (Checksum.within addresses .udp (udp.written 0 body)) body := by
  unfold write
  simp (disch := decide) only [Write.turns_frame_bind, Write.turns_demand_bind,
    Write.turns_require_headed, Write.turns_store_headed, List.nil_append, List.cons_append,
    length_headed]
  apply and_congr_right
  intro _
  have inside : Header.checksum.endByte ≤ Header.size := by decide
  exact Write.turns_checksum_headed ((udp.values (Header.size + body.length) 0).take 3) inside

def ofBytes (bytes : Bytes) : Udp where
  sourcePort := (Header.source.get bytes).toUInt16
  destinationPort := (Header.destination.get bytes).toUInt16
  checksum := (Header.checksum.get bytes).toUInt16

def stop (bytes : Bytes) : Nat :=
  if Header.size ≤ Header.length.get bytes ∧ Header.length.get bytes ≤ bytes.length then
    Header.length.get bytes
  else bytes.length

theorem stop_le (bytes : Bytes) : stop bytes ≤ bytes.length := by
  unfold stop
  split
  · rename_i usable
    exact usable.2
  · exact Nat.le_refl _

theorem decode_eq_ok {bytes : Bytes} {decoded : Decoded Udp} :
    decode bytes = .ok decoded ↔
      Header.size ≤ bytes.length ∧
        decoded = ⟨ofBytes bytes, bytes.window Header.size (stop bytes - Header.size), none⟩ := by
  simp only [decode, Outcome.bind_eq_ok, requireSize_eq_ok, Bytes.range_eq_ok]
  constructor
  · intro holds
    rcases holds with ⟨_, large, payload, ⟨_, _, rfl⟩, result⟩
    cases result
    exact ⟨large, rfl⟩
  · intro holds
    rcases holds with ⟨large, rfl⟩
    refine ⟨(), large, _, ⟨?_, stop_le bytes, rfl⟩, rfl⟩
    split
    · rename_i usable
      exact usable.1
    · exact large

theorem complete_of_decode {bytes : Bytes} {decoded : Decoded Udp}
    (read : decode bytes = .ok decoded) :
    decoded.next = none ∧ Header.size + decoded.payload.length ≤ bytes.length := by
  rcases decode_eq_ok.mp read with ⟨large, rfl⟩
  have ends := stop_le bytes
  refine ⟨rfl, ?_⟩
  rw [Bytes.length_window]
  omega

theorem decode_written (udp : Udp) (checksum : UInt16) (body : Bytes)
    (small : Header.size + body.length ≤ 0xffff) :
    decode (udp.written checksum body) = .ok ⟨{ udp with checksum }, body, none⟩ := by
  have fields := udp.fit (Header.size + body.length) checksum
  have source : Header.source.get (udp.written checksum body) = udp.sourcePort.toNat % 2 ^ 16 :=
    get_headed fields (by simp [values]) body
  have destination : Header.destination.get (udp.written checksum body) =
      udp.destinationPort.toNat % 2 ^ 16 := get_headed fields (by simp [values]) body
  have stored : Header.checksum.get (udp.written checksum body) = checksum.toNat % 2 ^ 16 :=
    get_headed fields (by simp [values]) body
  have length : Header.length.get (udp.written checksum body) = Header.size + body.length := by
    have cut : Header.length.get (udp.written checksum body) =
        (Header.size + body.length) % 2 ^ 16 := get_headed fields (by simp [values]) body
    rw [cut, Nat.mod_eq_of_lt (by omega)]
  have total : (udp.written checksum body).length = Header.size + body.length := by
    rw [written, length_headed]
  have stop_eq : stop (udp.written checksum body) = Header.size + body.length := by
    rw [stop, length, total, if_pos ⟨Nat.le_add_right _ _, Nat.le_refl _⟩]
  have payload : (udp.written checksum body).window Header.size
      (stop (udp.written checksum body) - Header.size) = body := by
    rw [stop_eq, Nat.add_sub_cancel_left, written, Bytes.window, drop_headed, List.take_length]
  have read : ofBytes (udp.written checksum body) = { udp with checksum } := by
    simp only [ofBytes, source, destination, stored, toUInt16_mod]
  rw [decode_eq_ok, payload, read, total]
  exact ⟨Nat.le_add_right _ _, rfl⟩

end PacketStack.Udp
