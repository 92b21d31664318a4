import PacketStack.Internet.Arp
import PacketStack.Internet.Icmp
import PacketStack.Proofs.Header.Checksums
import PacketStack.Proofs.Header.Values

/-!
Messages for address resolution and control messages that are written and read again.
-/

namespace PacketStack

namespace Arp

def settled (arp : Arp) : Arp := { arp with operation := arp.operation.canonical }

def values (arp : Arp) : List (HeaderField × Nat) :=
  [(Header.hardwareType, ethernetHardware), (Header.protocolType, EtherType.ipv4.id.toNat),
    (Header.hardwareLength, 6), (Header.protocolLength, 4),
    (Header.operation, arp.operation.id.toNat), (Header.senderHardware, arp.senderHardware.toNat),
    (Header.sender, arp.sender.toNat), (Header.targetHardware, arp.targetHardware.toNat),
    (Header.target, arp.target.toNat)]

theorem fit (arp : Arp) : Fit Header.size (arp.values.map Prod.fst) := by
  change Fit Header.size [Header.hardwareType, Header.protocolType, Header.hardwareLength,
    Header.protocolLength, Header.operation, Header.senderHardware, Header.sender,
    Header.targetHardware, Header.target]
  decide

theorem turns_write {arp : Arp} {rest bytes : Bytes} :
    arp.write.Turns (headed Header.size [] rest) () bytes ↔
      bytes = headed Header.size arp.values rest := by
  unfold write
  simp (disch := decide) only [Write.turns_require_headed, Write.turns_store_headed,
    Write.turns_store_headed_last, List.nil_append, List.cons_append]
  exact Iff.rfl

def ofBytes (bytes : Bytes) : Arp where
  operation := .ofId (Header.operation.get bytes).toUInt16
  senderHardware := Header.senderHardware.hwAddress bytes
  sender := Header.sender.ipv4Address bytes
  targetHardware := Header.targetHardware.hwAddress bytes
  target := Header.target.ipv4Address bytes

theorem decode_eq_ok {bytes : Bytes} {decoded : Decoded Arp} :
    decode bytes = .ok decoded ↔
      Header.size ≤ bytes.length ∧
        (Header.hardwareLength.get bytes = 6 ∧ Header.protocolLength.get bytes = 4) ∧
        decoded = ⟨ofBytes bytes, bytes.drop Header.size, none⟩ := by
  simp only [decode, requireSize_bind_eq_ok, Outcome.demand_bind_eq_ok, Outcome.pure_eq_ok]
  exact Iff.rfl

theorem decode_headed (arp : Arp) (rest : Bytes) :
    decode (headed Header.size arp.values rest) = .ok ⟨arp.settled, rest, none⟩ := by
  have hardware : Header.hardwareLength.get (headed Header.size arp.values rest) = 6 % 2 ^ 8 :=
    get_headed arp.fit (by simp [values]) rest
  have protocol : Header.protocolLength.get (headed Header.size arp.values rest) = 4 % 2 ^ 8 :=
    get_headed arp.fit (by simp [values]) rest
  have operation : Header.operation.get (headed Header.size arp.values rest) =
      arp.operation.id.toNat % 2 ^ 16 := get_headed arp.fit (by simp [values]) rest
  have senderHardware : Header.senderHardware.get (headed Header.size arp.values rest) =
      arp.senderHardware.toNat % 2 ^ 48 := get_headed arp.fit (by simp [values]) rest
  have sender : Header.sender.get (headed Header.size arp.values rest) =
      arp.sender.toNat % 2 ^ 32 := get_headed arp.fit (by simp [values]) rest
  have targetHardware : Header.targetHardware.get (headed Header.size arp.values rest) =
      arp.targetHardware.toNat % 2 ^ 48 := get_headed arp.fit (by simp [values]) rest
  have target : Header.target.get (headed Header.size arp.values rest) =
      arp.target.toNat % 2 ^ 32 := get_headed arp.fit (by simp [values]) rest
  have read : ofBytes (headed Header.size arp.values rest) = arp.settled := by
    simp only [ofBytes, settled, ArpOperation.canonical, HeaderField.hwAddress,
      HeaderField.ipv4Address, operation, senderHardware,
      sender, targetHardware, target, toUInt16_mod, HwAddress.ofNat_mod, Ipv4Address.ofNat_mod]
  rw [decode_eq_ok, read, drop_headed, length_headed]
  exact ⟨Nat.le_add_right _ _, ⟨hardware, protocol⟩, rfl⟩

end Arp

namespace Icmp

def settled (icmp : Icmp) (checksum : UInt16) : Icmp :=
  { icmp with type := icmp.type.canonical, checksum }

def values (icmp : Icmp) (checksum : UInt16) : List (HeaderField × Nat) :=
  [(Header.type, icmp.type.id.toNat), (Header.code, icmp.code.toNat),
    (Header.identifier, icmp.identifier.toNat), (Header.sequence, icmp.sequence.toNat),
    (Header.checksum, checksum.toNat)]

theorem fit (icmp : Icmp) (checksum : UInt16) :
    Fit Header.size ((icmp.values checksum).map Prod.fst) := by
  change Fit Header.size [Header.type, Header.code, Header.identifier, Header.sequence,
    Header.checksum]
  decide

def written (icmp : Icmp) (checksum : UInt16) (body : Bytes) : Bytes :=
  headed Header.size (icmp.values checksum) body

theorem checksum_written (icmp : Icmp) (first second : UInt16) (body : Bytes) :
    Checksum.icmp (icmp.written first body) = Checksum.icmp (icmp.written second body) := by
  have place : Checksum.At Header.checksum 1 := ⟨rfl, rfl⟩
  have inside : Header.checksum.endByte ≤ Header.size := by decide
  exact Checksum.ofMessage_headed ((icmp.values 0).take 4) place inside _ _

theorem turns_write {icmp : Icmp} {body bytes : Bytes} :
    icmp.write.Turns (headed Header.size [] body) () bytes ↔
      bytes = icmp.written (Checksum.icmp (icmp.written 0 body)) body := by
  have twice := headed_twice Header.size 0 (Checksum.icmp (icmp.written 0 body)).toNat
    Header.checksum [(Header.type, icmp.type.id.toNat), (Header.code, icmp.code.toNat),
      (Header.identifier, icmp.identifier.toNat), (Header.sequence, icmp.sequence.toNat)] body
  unfold write
  simp (disch := decide) only [Write.turns_require_headed, Write.turns_store_headed,
    Write.turns_frame_bind, Write.turns_store_headed_last, List.nil_append, List.cons_append]
  exact Iff.of_eq (congrArg (bytes = ·) twice)

theorem decode_written (icmp : Icmp) (checksum : UInt16) (body : Bytes) :
    decode (icmp.written checksum body) = .ok ⟨icmp.settled checksum, body, none⟩ := by
  have fields := icmp.fit checksum
  have type : Header.type.get (icmp.written checksum body) = icmp.type.id.toNat % 2 ^ 8 :=
    get_headed fields (by simp [values]) body
  have code : Header.code.get (icmp.written checksum body) = icmp.code.toNat % 2 ^ 8 :=
    get_headed fields (by simp [values]) body
  have identifier : Header.identifier.get (icmp.written checksum body) =
      icmp.identifier.toNat % 2 ^ 16 := get_headed fields (by simp [values]) body
  have sequence : Header.sequence.get (icmp.written checksum body) =
      icmp.sequence.toNat % 2 ^ 16 := get_headed fields (by simp [values]) body
  have stored : Header.checksum.get (icmp.written checksum body) = checksum.toNat % 2 ^ 16 :=
    get_headed fields (by simp [values]) body
  have read : ofBytes (icmp.written checksum body) = icmp.settled checksum := by
    simp only [ofBytes, settled, IcmpType.canonical, type, code, identifier, sequence, stored,
      toUInt8_mod, toUInt16_mod]
  rw [decode, Decoded.fixed_eq_ok, read, written, drop_headed, length_headed]
  exact ⟨Nat.le_add_right _ _, rfl⟩

end Icmp

end PacketStack
