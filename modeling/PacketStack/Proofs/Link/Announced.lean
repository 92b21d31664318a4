import PacketStack.Proofs.Header.Values

/-!
Link layers that announce the type of what they carry, written and read again: Ethernet, cooked
captures, subnetwork access and loopback headers. The announced type is that of the inner layer.
-/

namespace PacketStack

namespace Ethernet

def settled (ethernet : Ethernet) (inner : Option Kind) : Ethernet :=
  { ethernet with payloadType := EtherType.announce inner ethernet.payloadType }

def values (ethernet : Ethernet) : List (HeaderField × Nat) :=
  [(Header.destination, ethernet.destination.toNat), (Header.source, ethernet.source.toNat),
    (Header.etherType, ethernet.payloadType.toNat)]

theorem fit (ethernet : Ethernet) : Fit Header.size (ethernet.values.map Prod.fst) := by
  change Fit Header.size [Header.destination, Header.source, Header.etherType]
  decide

theorem turns_write {ethernet : Ethernet} {inner : Option Kind} {rest bytes : Bytes} :
    (ethernet.write inner).Turns (headed Header.size [] rest) () bytes ↔
      bytes = headed Header.size (ethernet.settled inner).values rest := by
  unfold write
  simp (disch := decide) only [Write.turns_require_headed, Write.turns_store_headed,
    Write.turns_store_headed_last, List.nil_append, List.cons_append]
  exact Iff.rfl

theorem decode_headed (ethernet : Ethernet) (rest : Bytes) :
    decode (headed Header.size ethernet.values rest) =
      .ok ⟨ethernet, rest, (EtherType.ofId ethernet.payloadType).kind?⟩ := by
  have destination : Header.destination.get (headed Header.size ethernet.values rest) =
      ethernet.destination.toNat % 2 ^ 48 := get_headed ethernet.fit (by simp [values]) rest
  have source : Header.source.get (headed Header.size ethernet.values rest) =
      ethernet.source.toNat % 2 ^ 48 := get_headed ethernet.fit (by simp [values]) rest
  have type : Header.etherType.get (headed Header.size ethernet.values rest) =
      ethernet.payloadType.toNat % 2 ^ 16 := get_headed ethernet.fit (by simp [values]) rest
  have announced : Header.type (headed Header.size ethernet.values rest) =
      .ofId ethernet.payloadType := by
    rw [Header.type, type, toUInt16_mod]
  have read : ofBytes (headed Header.size ethernet.values rest) = ethernet := by
    simp only [ofBytes, HeaderField.hwAddress, announced, destination, source,
      HwAddress.ofNat_mod, EtherType.id_ofId]
  rw [decode, Decoded.fixed_eq_ok, read, announced, drop_headed, length_headed]
  exact ⟨Nat.le_add_right _ _, rfl⟩

theorem decode_append {front : Bytes} (size : front.length = Header.size) (payload : Bytes) :
    decode (front ++ payload) = .ok ⟨ofBytes front, payload, (Header.type front).kind?⟩ := by
  apply Decoded.fixed_append size <;>
    simp (disch := (rw [size]; decide)) only [ofBytes, HeaderField.hwAddress, Header.type,
      Span.get_append]

end Ethernet

namespace CookedCapture

def settled (cooked : CookedCapture) (inner : Option Kind) : CookedCapture :=
  { cooked with protocol := EtherType.announce inner cooked.protocol }

def values (cooked : CookedCapture) : List (HeaderField × Nat) :=
  [(Header.packetType, cooked.packetType.toNat), (Header.addressType, cooked.addressType.toNat),
    (Header.addressLength, cooked.addressLength.toNat), (Header.address, cooked.address.toNat),
    (Header.protocol, cooked.protocol.toNat)]

theorem fit (cooked : CookedCapture) : Fit Header.size (cooked.values.map Prod.fst) := by
  change Fit Header.size [Header.packetType, Header.addressType, Header.addressLength,
    Header.address, Header.protocol]
  decide

theorem turns_write {cooked : CookedCapture} {inner : Option Kind} {rest bytes : Bytes} :
    (cooked.write inner).Turns (headed Header.size [] rest) () bytes ↔
      bytes = headed Header.size (cooked.settled inner).values rest := by
  unfold write
  simp (disch := decide) only [Write.turns_require_headed, Write.turns_store_headed,
    Write.turns_store_headed_last, List.nil_append, List.cons_append]
  exact Iff.rfl

theorem decode_headed (cooked : CookedCapture) (rest : Bytes) :
    decode (headed Header.size cooked.values rest) =
      .ok ⟨cooked, rest, (EtherType.ofId cooked.protocol).kind?⟩ := by
  have packetType : Header.packetType.get (headed Header.size cooked.values rest) =
      cooked.packetType.toNat % 2 ^ 16 := get_headed cooked.fit (by simp [values]) rest
  have addressType : Header.addressType.get (headed Header.size cooked.values rest) =
      cooked.addressType.toNat % 2 ^ 16 := get_headed cooked.fit (by simp [values]) rest
  have addressLength : Header.addressLength.get (headed Header.size cooked.values rest) =
      cooked.addressLength.toNat % 2 ^ 16 := get_headed cooked.fit (by simp [values]) rest
  have address : Header.address.get (headed Header.size cooked.values rest) =
      cooked.address.toNat % 2 ^ 64 := get_headed cooked.fit (by simp [values]) rest
  have protocol : Header.protocol.get (headed Header.size cooked.values rest) =
      cooked.protocol.toNat % 2 ^ 16 := get_headed cooked.fit (by simp [values]) rest
  have announced : Header.type (headed Header.size cooked.values rest) = .ofId cooked.protocol := by
    rw [Header.type, protocol, toUInt16_mod]
  have octets : Octets.ofNat 8 (cooked.address.toNat % 2 ^ 64) = cooked.address :=
    Octets.ofNat_mod _ 64 rfl
  have read : ofBytes (headed Header.size cooked.values rest) = cooked := by
    simp only [ofBytes, announced, packetType, addressType, addressLength, address, octets,
      toUInt16_mod, EtherType.id_ofId]
  rw [decode, Decoded.fixed_eq_ok, read, announced, drop_headed, length_headed]
  exact ⟨Nat.le_add_right _ _, rfl⟩

theorem decode_append {front : Bytes} (size : front.length = Header.size) (payload : Bytes) :
    decode (front ++ payload) = .ok ⟨ofBytes front, payload, (Header.type front).kind?⟩ := by
  apply Decoded.fixed_append size <;>
    simp (disch := (rw [size]; decide)) only [ofBytes, Header.type, Span.get_append]

end CookedCapture

namespace Snap

def settled (snap : Snap) (inner : Option Kind) : Snap :=
  { snap with payloadType := EtherType.announce inner snap.payloadType }

def values (snap : Snap) : List (HeaderField × Nat) :=
  [(Header.destinationAccess, accessPoint), (Header.sourceAccess, accessPoint),
    (Header.control, snap.control.toNat), (Header.organization, snap.organization.toNat),
    (Header.etherType, snap.payloadType.toNat)]

theorem fit (snap : Snap) : Fit Header.size (snap.values.map Prod.fst) := by
  change Fit Header.size [Header.destinationAccess, Header.sourceAccess, Header.control,
    Header.organization, Header.etherType]
  decide

theorem turns_write {snap : Snap} {inner : Option Kind} {rest bytes : Bytes} :
    (snap.write inner).Turns (headed Header.size [] rest) () bytes ↔
      bytes = headed Header.size (snap.settled inner).values rest := by
  unfold write
  simp (disch := decide) only [Write.turns_require_headed, Write.turns_store_headed,
    Write.turns_store_headed_last, List.nil_append, List.cons_append]
  exact Iff.rfl

theorem organization_ofBytes_lt (bytes : Bytes) : (ofBytes bytes).organization.toNat < 2 ^ 24 := by
  have bound : Header.organization.get bytes < 2 ^ 24 := Span.get_lt _ _ (by decide)
  have word : (ofBytes bytes).organization.toNat = Header.organization.get bytes % 2 ^ 32 :=
    UInt32.toNat_ofNat'
  rw [word]
  omega

theorem decode_headed (snap : Snap) (small : snap.organization.toNat < 2 ^ 24) (rest : Bytes) :
    decode (headed Header.size snap.values rest) =
      .ok ⟨snap, rest, (EtherType.ofId snap.payloadType).kind?⟩ := by
  have control : Header.control.get (headed Header.size snap.values rest) =
      snap.control.toNat % 2 ^ 8 := get_headed snap.fit (by simp [values]) rest
  have organization : Header.organization.get (headed Header.size snap.values rest) =
      snap.organization.toNat := by
    have cut : Header.organization.get (headed Header.size snap.values rest) =
        snap.organization.toNat % 2 ^ 24 := get_headed snap.fit (by simp [values]) rest
    rw [cut, Nat.mod_eq_of_lt small]
  have type : Header.etherType.get (headed Header.size snap.values rest) =
      snap.payloadType.toNat % 2 ^ 16 := get_headed snap.fit (by simp [values]) rest
  have announced : Header.type (headed Header.size snap.values rest) = .ofId snap.payloadType := by
    rw [Header.type, type, toUInt16_mod]
  have read : ofBytes (headed Header.size snap.values rest) = snap := by
    simp only [ofBytes, announced, control, organization, toUInt8_mod, EtherType.id_ofId]
    rw [Nat.toUInt32_eq, UInt32.ofNat_toNat]
  rw [decode, Decoded.fixed_eq_ok, read, announced, drop_headed, length_headed]
  exact ⟨Nat.le_add_right _ _, rfl⟩

theorem decode_append {front : Bytes} (size : front.length = Header.size) (payload : Bytes) :
    decode (front ++ payload) = .ok ⟨ofBytes front, payload, (Header.type front).kind?⟩ := by
  apply Decoded.fixed_append size <;>
    simp (disch := (rw [size]; decide)) only [ofBytes, Header.type, Span.get_append]

end Snap

namespace Loopback

def settled (loopback : Loopback) (inner : Option Kind) : Loopback :=
  ⟨announce inner loopback.family⟩

theorem turns_write {loopback : Loopback} {inner : Option Kind} {rest bytes : Bytes} :
    (loopback.write inner).Turns (headed headerSize [] rest) () bytes ↔
      bytes = Bytes.ofNatLE 4 (loopback.settled inner).family.toNat ++ rest := by
  have inside : 0 + (Bytes.ofNatLE 4 (loopback.settled inner).family.toNat).length ≤
      (headed headerSize [] rest).length := by
    rw [Bytes.length_ofNatLE, length_headed, headerSize]
    omega
  have written : (headed headerSize [] rest).splice 0
      (Bytes.ofNatLE 4 (loopback.settled inner).family.toNat) =
        Bytes.ofNatLE 4 (loopback.settled inner).family.toNat ++ rest := by
    rw [Bytes.splice, List.take_zero, List.nil_append, Bytes.length_ofNatLE]
    exact congrArg _ (drop_headed headerSize [] rest)
  rw [write, Write.turns_require_headed, Write.turns_put]
  constructor
  · intro turned
    exact turned.2.trans written
  · intro equal
    exact ⟨inside, equal.trans written.symm⟩

theorem decode_written (loopback : Loopback) (small : loopback.family.toNat ≤ 0xffff)
    (rest : Bytes) :
    decode (Bytes.ofNatLE 4 loopback.family.toNat ++ rest) =
      .ok ⟨loopback, rest, kind? loopback.family⟩ := by
  have front : (Bytes.ofNatLE 4 loopback.family.toNat).length = headerSize := by simp [headerSize]
  have family : familyOf (Bytes.ofNatLE 4 loopback.family.toNat) = loopback.family := by
    have number : Bytes.toNatLE (Bytes.ofNatLE 4 loopback.family.toNat) =
        loopback.family.toNat := by
      rw [Bytes.toNatLE_ofNatLE, Bytes.valueCount_eq]
      exact Nat.mod_eq_of_lt loopback.family.toNat_lt
    rw [familyOf, number, if_pos small]
    exact UInt32.ofNat_toNat
  have large : headerSize ≤ (Bytes.ofNatLE 4 loopback.family.toNat ++ rest).length := by
    rw [List.length_append, front]
    exact Nat.le_add_right _ _
  rw [decode, Decoded.fixed_eq_ok]
  simp only [ofBytes, List.take_left' front, List.drop_left' front, family]
  exact ⟨large, trivial⟩

theorem decode_append {front : Bytes} (size : front.length = headerSize) (payload : Bytes) :
    decode (front ++ payload) = .ok ⟨⟨familyOf front⟩, payload, kind? (familyOf front)⟩ := by
  have whole : front.take headerSize = front := List.take_of_length_le (Nat.le_of_eq size)
  apply (Decoded.fixed_append size _ _).trans <;> simp only [ofBytes, List.take_left' size, whole]

end Loopback

end PacketStack
