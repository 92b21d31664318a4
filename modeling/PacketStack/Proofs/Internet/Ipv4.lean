import PacketStack.Internet.Ipv4
import PacketStack.Proofs.Header.Checksums
import PacketStack.Proofs.Header.Values

/-!
IPv4 datagrams that are written and read again, also where bytes stand behind them.
-/

namespace PacketStack

namespace Bytes

theorem length_padTo_four (bytes : Bytes) :
    (padTo 4 bytes).length = (bytes.length + 3) / 4 * 4 := by
  rw [padTo, List.length_append, List.length_replicate]
  omega

theorem padTo_of_whole {bytes : Bytes} (whole : bytes.length % 4 = 0) : padTo 4 bytes = bytes := by
  rw [padTo, whole]
  exact List.append_nil _

end Bytes

namespace Ipv4

def announced (ip : Ipv4) (inner : Option Kind) : Ipv4 :=
  { ip with protocol := IpProtocol.announce inner ip.protocol }

def padded (ip : Ipv4) (checksum : UInt16) : Ipv4 :=
  { ip with protocol := ip.protocol.canonical, options := Bytes.padTo 4 ip.options, checksum }

theorem headerSize_padded (ip : Ipv4) (checksum : UInt16) :
    (ip.padded checksum).headerSize = ip.headerSize := by
  have whole : (Bytes.padTo 4 ip.options).length % 4 = 0 := by
    rw [Bytes.length_padTo_four]
    omega
  rw [headerSize, padded, Bytes.padTo_of_whole whole, headerSize]

def values (ip : Ipv4) (total : Nat) (checksum : UInt16) : List (HeaderField × Nat) :=
  [(Header.version, 4), (Header.headerLength, ip.headerSize / 4), (Header.tos, ip.tos.toNat),
    (Header.totalLength, total), (Header.identification, ip.identification.toNat),
    (Header.flagsAndFragmentOffset, ip.flagsAndFragmentOffset.toNat), (Header.ttl, ip.ttl.toNat),
    (Header.protocol, ip.protocol.id.toNat), (Header.source, ip.source.toNat),
    (Header.destination, ip.destination.toNat), (Header.checksum, checksum.toNat)]

theorem fit (ip : Ipv4) (total : Nat) (checksum : UInt16) :
    Fit Header.size ((ip.values total checksum).map Prod.fst) := by
  change Fit Header.size [Header.version, Header.headerLength, Header.tos, Header.totalLength,
    Header.identification, Header.flagsAndFragmentOffset, Header.ttl, Header.protocol,
    Header.source, Header.destination, Header.checksum]
  decide

/-- A written datagram around a body. -/
def written (ip : Ipv4) (checksum : UInt16) (body : Bytes) : Bytes :=
  headed Header.size (ip.values (ip.headerSize + body.length) checksum)
    (Bytes.padTo 4 ip.options ++ body)

theorem length_written (ip : Ipv4) (checksum : UInt16) (body : Bytes) :
    (ip.written checksum body).length = ip.headerSize + body.length := by
  rw [written, length_headed, List.length_append, headerSize]
  omega

theorem ipv4Header_written (ip : Ipv4) (first second : UInt16) (body : Bytes) :
    Checksum.ipv4Header ((ip.written first body).take ip.headerSize) =
      Checksum.ipv4Header ((ip.written second body).take ip.headerSize) := by
  have place : Checksum.At Header.checksum 5 := ⟨rfl, rfl⟩
  have inside : Header.checksum.endByte ≤ Header.size := by decide
  rw [written, written, headerSize, take_headed, take_headed]
  exact Checksum.ofMessage_headed ((ip.values (ip.headerSize + body.length) 0).take 10) place
    inside _ _

theorem options_over_blank (ip : Ipv4) (body : Bytes) :
    ip.options ++ (List.replicate (Bytes.padTo 4 ip.options).length 0 ++ body).drop
      ip.options.length = Bytes.padTo 4 ip.options ++ body := by
  have short : ip.options.length ≤
      (List.replicate (Bytes.padTo 4 ip.options).length (0 : UInt8)).length := by
    rw [List.length_replicate, Bytes.length_padTo_four]
    omega
  have rest : (Bytes.padTo 4 ip.options).length - ip.options.length =
      (4 - ip.options.length % 4) % 4 := by
    rw [Bytes.length_padTo_four]
    omega
  calc ip.options ++ (List.replicate (Bytes.padTo 4 ip.options).length 0 ++ body).drop
          ip.options.length
    _ = ip.options ++ (List.replicate ((4 - ip.options.length % 4) % 4) 0 ++ body) := by
      rw [List.drop_append_of_le_length short, List.drop_replicate, rest]
    _ = Bytes.padTo 4 ip.options ++ body := by rw [Bytes.padTo, List.append_assoc]

theorem turns_write {ip : Ipv4} {inner : Option Kind} {body bytes : Bytes} :
    (ip.write inner).Turns (headed ip.headerSize [] body) () bytes ↔
      ip.headerSize + body.length ≤ 0xffff ∧
        bytes = (ip.announced inner).written (Checksum.ipv4Header
          (((ip.announced inner).written 0 body).take ip.headerSize)) body := by
  have inside : ip.options.length ≤
      (List.replicate (Bytes.padTo 4 ip.options).length (0 : UInt8) ++ body).length := by
    rw [List.length_append, List.length_replicate, Bytes.length_padTo_four]
    omega
  have twice := headed_twice Header.size 0 (Checksum.ipv4Header
    (((ip.announced inner).written 0 body).take ip.headerSize)).toNat Header.checksum
    (((ip.announced inner).values (ip.headerSize + body.length) 0).take 10)
    (Bytes.padTo 4 ip.options ++ body)
  have total : Header.size + (List.replicate (Bytes.padTo 4 ip.options).length (0 : UInt8) ++
      body).length = ip.headerSize + body.length := by
    rw [List.length_append, List.length_replicate, headerSize]
    omega
  rw [write, show headed ip.headerSize [] body = headed Header.size []
    (List.replicate (Bytes.padTo 4 ip.options).length 0 ++ body) from headed_split _ _ _]
  simp (disch := decide) only [Write.turns_frame_bind, Write.turns_demand_bind,
    Write.turns_reach_bind, Write.turns_store_headed, Write.turns_put_headed inside,
    Write.turns_store_headed_last, List.nil_append, List.cons_append, length_headed, total,
    options_over_blank]
  apply and_congr_right
  intro _
  constructor
  · intro holds
    rcases holds with ⟨_, equal⟩
    exact equal.trans twice
  · intro equal
    exact ⟨Nat.le_add_right _ _, equal.trans twice.symm⟩

def ofBytes (bytes : Bytes) : Ipv4 where
  tos := (Header.tos.get bytes).toUInt8
  identification := (Header.identification.get bytes).toUInt16
  flagsAndFragmentOffset := (Header.flagsAndFragmentOffset.get bytes).toUInt16
  ttl := (Header.ttl.get bytes).toUInt8
  protocol := .ofId (Header.protocol.get bytes).toUInt8
  source := Header.source.ipv4Address bytes
  destination := Header.destination.ipv4Address bytes
  options := Header.options bytes
  checksum := (Header.checksum.get bytes).toUInt16

def next? (ip : Ipv4) : Option Kind := if ip.isFragmented then none else ip.protocol.kind?

def stop (bytes : Bytes) : Nat :=
  if Header.totalLength.get bytes = 0 then bytes.length
  else min (Header.totalLength.get bytes) bytes.length

theorem stop_le (bytes : Bytes) : stop bytes ≤ bytes.length := by
  unfold stop
  split
  · exact Nat.le_refl _
  · exact Nat.min_le_right _ _

theorem decode_eq_ok {bytes : Bytes} {decoded : Decoded Ipv4} :
    decode bytes = .ok decoded ↔
      Header.version.get bytes = 4 ∧ Header.size ≤ 4 * Header.headerLength.get bytes ∧
        4 * Header.headerLength.get bytes ≤ stop bytes ∧
        decoded = ⟨ofBytes bytes, bytes.window (4 * Header.headerLength.get bytes)
          (stop bytes - 4 * Header.headerLength.get bytes), (ofBytes bytes).next?⟩ := by
  simp only [decode, Outcome.bind_eq_ok, requireSize_eq_ok, Outcome.demand_eq_ok,
    Bytes.range_eq_ok]
  constructor
  · intro holds
    rcases holds with ⟨_, _, _, ⟨version, size, _⟩, _, _, payload, ⟨inside, _, rfl⟩, result⟩
    cases result
    exact ⟨version, size, inside, rfl⟩
  · intro holds
    rcases holds with ⟨version, size, inside, rfl⟩
    have long : 4 * Header.headerLength.get bytes ≤ bytes.length :=
      Nat.le_trans inside (stop_le bytes)
    have declared : Header.totalLength.get bytes = 0 ∨
        4 * Header.headerLength.get bytes ≤ Header.totalLength.get bytes := by
      unfold stop at inside
      split at inside
      · rename_i zero
        exact Or.inl zero
      · exact Or.inr (Nat.le_trans inside (Nat.min_le_left _ _))
    exact ⟨(), Nat.le_trans size long, (), ⟨version, size, long⟩, (), declared, _,
      ⟨inside, stop_le bytes, rfl⟩, rfl⟩

theorem length_options_ofBytes {bytes : Bytes}
    (long : 4 * Header.headerLength.get bytes ≤ bytes.length)
    (size : Header.size ≤ 4 * Header.headerLength.get bytes) :
    (ofBytes bytes).options.length + Header.size = 4 * Header.headerLength.get bytes ∧
      (ofBytes bytes).options.length ≤ 40 := by
  have bound : Header.headerLength.get bytes < 2 ^ 4 := Span.get_lt _ _ (by decide)
  have length : (ofBytes bytes).options.length =
      4 * Header.headerLength.get bytes - Header.size := by
    rw [ofBytes, Header.options, Header.stop, List.length_drop, List.length_take]
    omega
  rw [length]
  constructor
  · omega
  · simp only [Header.size] at size ⊢
    omega

theorem complete_of_decode {bytes : Bytes} {decoded : Decoded Ipv4}
    (read : decode bytes = .ok decoded) :
    decoded.header.options.length ≤ 40 ∧ decoded.header.options.length % 4 = 0 ∧
      decoded.header.protocol.canonical = decoded.header.protocol ∧
      decoded.next = decoded.header.next? ∧
      decoded.header.headerSize + decoded.payload.length ≤ bytes.length := by
  rcases decode_eq_ok.mp read with ⟨version, size, inside, rfl⟩
  have ends := stop_le bytes
  rcases length_options_ofBytes (Nat.le_trans inside ends) size with ⟨whole, short⟩
  have words : (ofBytes bytes).options.length % 4 = 0 := by
    simp only [Header.size] at whole
    omega
  refine ⟨short, words, IpProtocol.canonical_ofId _, rfl, ?_⟩
  change Header.size + (Bytes.padTo 4 (ofBytes bytes).options).length +
    (bytes.window _ _).length ≤ bytes.length
  rw [Bytes.padTo_of_whole words, Bytes.length_window]
  omega

theorem decode_written (ip : Ipv4) (checksum : UInt16) (body padding : Bytes)
    (short : ip.options.length ≤ 40) (small : ip.headerSize + body.length ≤ 0xffff) :
    decode (ip.written checksum body ++ padding) =
      .ok ⟨ip.padded checksum, body, (ip.padded checksum).next?⟩ := by
  have fields := ip.fit (ip.headerSize + body.length) checksum
  have room := Bytes.length_padTo_four ip.options
  have front : ip.headerSize = Header.size + (Bytes.padTo 4 ip.options).length := rfl
  have twenty : Header.size = 20 := rfl
  have length : (ip.written checksum body ++ padding).length =
      ip.headerSize + body.length + padding.length := by
    rw [List.length_append, length_written]
  obtain ⟨bytes, equal⟩ : ∃ bytes, bytes = ip.written checksum body ++ padding := ⟨_, rfl⟩
  have shape : bytes = headed Header.size (ip.values (ip.headerSize + body.length) checksum)
      (Bytes.padTo 4 ip.options ++ (body ++ padding)) := by
    rw [equal, written, headed_append, List.append_assoc]
  rw [← equal] at length ⊢
  have value {field : HeaderField} {value : Nat}
      (present : (field, value) ∈ ip.values (ip.headerSize + body.length) checksum) :
      field.get bytes = value % 2 ^ field.width := by
    rw [shape]
    exact get_headed fields present _
  have version : Header.version.get bytes = 4 % 2 ^ 4 := value (by simp [values])
  have words : 4 * Header.headerLength.get bytes = ip.headerSize := by
    have cut : Header.headerLength.get bytes = ip.headerSize / 4 % 2 ^ 4 :=
      value (by simp [values])
    rw [cut]
    omega
  have total : Header.totalLength.get bytes = ip.headerSize + body.length := by
    have cut : Header.totalLength.get bytes = (ip.headerSize + body.length) % 2 ^ 16 :=
      value (by simp [values])
    rw [cut]
    omega
  have tos : Header.tos.get bytes = ip.tos.toNat % 2 ^ 8 := value (by simp [values])
  have identification : Header.identification.get bytes = ip.identification.toNat % 2 ^ 16 :=
    value (by simp [values])
  have flags : Header.flagsAndFragmentOffset.get bytes =
      ip.flagsAndFragmentOffset.toNat % 2 ^ 16 := value (by simp [values])
  have ttl : Header.ttl.get bytes = ip.ttl.toNat % 2 ^ 8 := value (by simp [values])
  have protocol : Header.protocol.get bytes = ip.protocol.id.toNat % 2 ^ 8 :=
    value (by simp [values])
  have source : Header.source.get bytes = ip.source.toNat % 2 ^ 32 := value (by simp [values])
  have destination : Header.destination.get bytes = ip.destination.toNat % 2 ^ 32 :=
    value (by simp [values])
  have stored : Header.checksum.get bytes = checksum.toNat % 2 ^ 16 := value (by simp [values])
  have options : Header.options bytes = Bytes.padTo 4 ip.options := by
    have reach : Header.stop bytes = Header.size + (Bytes.padTo 4 ip.options).length := by
      rw [Header.stop, words, length]
      omega
    rw [Header.options, reach, shape, take_headed, List.take_left, drop_headed]
  have read : ofBytes bytes = ip.padded checksum := by
    simp only [ofBytes, padded, HeaderField.ipv4Address, tos, identification, flags, ttl,
      protocol, source, destination, options, stored, toUInt8_mod, toUInt16_mod,
      Ipv4Address.ofNat_mod, IpProtocol.canonical]
  have ends : stop bytes = ip.headerSize + body.length := by
    rw [stop, total, length, if_neg (by omega)]
    omega
  have payload : bytes.window ip.headerSize (ip.headerSize + body.length - ip.headerSize) =
      body := by
    rw [Nat.add_sub_cancel_left, shape, front, window_headed, Bytes.window, List.drop_left,
      List.take_left]
  rw [decode_eq_ok, read, words, ends, payload]
  exact ⟨version, by omega, Nat.le_add_right _ _, rfl⟩

end Ipv4

end PacketStack
