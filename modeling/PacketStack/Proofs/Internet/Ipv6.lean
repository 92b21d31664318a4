import PacketStack.Internet.Ipv6
import PacketStack.Proofs.Header.Values

/-!
IPv6 datagrams that are written and read again, also where bytes stand behind them.
-/

namespace PacketStack.Ipv6

def announced (ip : Ipv6) (inner : Option Kind) : Ipv6 :=
  { ip with nextHeader := IpProtocol.announce inner ip.nextHeader }

def settled (ip : Ipv6) : Ipv6 := { ip with nextHeader := ip.nextHeader.canonical }

def values (ip : Ipv6) (length : Nat) : List (HeaderField × Nat) :=
  [(Header.version, 6), (Header.trafficClass, ip.trafficClass.toNat),
    (Header.flowLabel, ip.flowLabel.toNat), (Header.payloadLength, length),
    (Header.nextHeader, ip.nextHeader.id.toNat), (Header.hopLimit, ip.hopLimit.toNat),
    (Header.source, ip.source.toNat), (Header.destination, ip.destination.toNat)]

theorem fit (ip : Ipv6) (length : Nat) : Fit Header.size ((ip.values length).map Prod.fst) := by
  change Fit Header.size [Header.version, Header.trafficClass, Header.flowLabel,
    Header.payloadLength, Header.nextHeader, Header.hopLimit, Header.source, Header.destination]
  decide

def written (ip : Ipv6) (body : Bytes) : Bytes := headed Header.size (ip.values body.length) body

theorem turns_write {ip : Ipv6} {inner : Option Kind} {body bytes : Bytes} :
    (ip.write inner).Turns (headed Header.size [] body) () bytes ↔
      body.length ≤ 0xffff ∧ bytes = (ip.announced inner).written body := by
  unfold write
  simp (disch := decide) only [Write.turns_frame_bind, Write.turns_demand_bind,
    Write.turns_require_headed, Write.turns_store_headed, Write.turns_store_headed_last,
    List.nil_append, List.cons_append, length_headed, Nat.add_sub_cancel_left]
  exact Iff.rfl

def ofBytes (bytes : Bytes) : Ipv6 where
  trafficClass := (Header.trafficClass.get bytes).toUInt8
  flowLabel := (Header.flowLabel.get bytes).toUInt32
  nextHeader := .ofId (Header.nextHeader.get bytes).toUInt8
  hopLimit := (Header.hopLimit.get bytes).toUInt8
  source := Header.source.ipv6Address bytes
  destination := Header.destination.ipv6Address bytes

theorem decode_eq_ok {bytes : Bytes} {decoded : Decoded Ipv6} :
    decode bytes = .ok decoded ↔
      Header.size ≤ bytes.length ∧ Header.version.get bytes = 6 ∧
        decoded = ⟨ofBytes bytes, Header.payload bytes, (ofBytes bytes).nextHeader.kind?⟩ := by
  have cut : bytes.window Header.size (Header.payload bytes).length = Header.payload bytes := by
    rw [Bytes.window, Header.payload, List.take_eq_take_iff]
    simp
  simp only [decode, Outcome.bind_eq_ok, requireSize_eq_ok, Outcome.demand_eq_ok,
    Bytes.range_eq_ok, Nat.add_sub_cancel_left, cut]
  constructor
  · intro holds
    rcases holds with ⟨_, large, _, version, payload, ⟨_, _, rfl⟩, result⟩
    cases result
    exact ⟨large, version, rfl⟩
  · intro holds
    rcases holds with ⟨large, version, rfl⟩
    have short : (Header.payload bytes).length ≤ bytes.length - Header.size := by
      simp only [Header.payload, List.length_take, List.length_drop]
      omega
    exact ⟨(), large, (), version, _, ⟨by omega, by omega, rfl⟩, rfl⟩

theorem flowLabel_ofBytes_lt (bytes : Bytes) : (ofBytes bytes).flowLabel.toNat < 2 ^ 20 := by
  have bound : Header.flowLabel.get bytes < 2 ^ 20 := Span.get_lt _ _ (by decide)
  have word : (ofBytes bytes).flowLabel.toNat = Header.flowLabel.get bytes % 2 ^ 32 :=
    UInt32.toNat_ofNat'
  rw [word]
  omega

theorem complete_of_decode {bytes : Bytes} {decoded : Decoded Ipv6}
    (read : decode bytes = .ok decoded) :
    decoded.header.flowLabel.toNat < 2 ^ 20 ∧
      decoded.header.nextHeader.canonical = decoded.header.nextHeader ∧
      decoded.next = decoded.header.nextHeader.kind? ∧
      Header.size + decoded.payload.length ≤ bytes.length := by
  rcases decode_eq_ok.mp read with ⟨large, version, rfl⟩
  refine ⟨flowLabel_ofBytes_lt bytes, IpProtocol.canonical_ofId _, rfl, ?_⟩
  simp only [Header.payload, List.length_take, List.length_drop]
  omega

theorem decode_written (ip : Ipv6) (label : ip.flowLabel.toNat < 2 ^ 20) (body padding : Bytes)
    (small : body.length ≤ 0xffff) :
    decode (ip.written body ++ padding) = .ok ⟨ip.settled, body, ip.settled.nextHeader.kind?⟩ := by
  have fields := ip.fit body.length
  rw [written, headed_append]
  have version : Header.version.get (headed Header.size (ip.values body.length)
      (body ++ padding)) = 6 % 2 ^ 4 := get_headed fields (by simp [values]) _
  have trafficClass : Header.trafficClass.get (headed Header.size (ip.values body.length)
      (body ++ padding)) = ip.trafficClass.toNat % 2 ^ 8 := get_headed fields (by simp [values]) _
  have flowLabel : Header.flowLabel.get (headed Header.size (ip.values body.length)
      (body ++ padding)) = ip.flowLabel.toNat % 2 ^ 20 := get_headed fields (by simp [values]) _
  have payloadLength : Header.payloadLength.get (headed Header.size (ip.values body.length)
      (body ++ padding)) = body.length % 2 ^ 16 := get_headed fields (by simp [values]) _
  have nextHeader : Header.nextHeader.get (headed Header.size (ip.values body.length)
      (body ++ padding)) = ip.nextHeader.id.toNat % 2 ^ 8 :=
    get_headed fields (by simp [values]) _
  have hopLimit : Header.hopLimit.get (headed Header.size (ip.values body.length)
      (body ++ padding)) = ip.hopLimit.toNat % 2 ^ 8 := get_headed fields (by simp [values]) _
  have source : Header.source.get (headed Header.size (ip.values body.length)
      (body ++ padding)) = ip.source.toNat % 2 ^ 128 := get_headed fields (by simp [values]) _
  have destination : Header.destination.get (headed Header.size (ip.values body.length)
      (body ++ padding)) = ip.destination.toNat % 2 ^ 128 :=
    get_headed fields (by simp [values]) _
  have read :
      ofBytes (headed Header.size (ip.values body.length) (body ++ padding)) = ip.settled := by
    simp only [ofBytes, settled, IpProtocol.canonical, HeaderField.ipv6Address, trafficClass,
      flowLabel, nextHeader, hopLimit, source, destination, toUInt8_mod, Ipv6Address.ofNat_mod,
      Nat.mod_eq_of_lt label]
    rw [Nat.toUInt32_eq, UInt32.ofNat_toNat]
  have payload : Header.payload (headed Header.size (ip.values body.length) (body ++ padding)) =
      body := by
    rw [Header.payload, drop_headed, payloadLength, Nat.mod_eq_of_lt (by omega), List.take_left]
  rw [decode_eq_ok, read, payload, length_headed]
  exact ⟨Nat.le_add_right _ _, version, rfl⟩

end PacketStack.Ipv6
