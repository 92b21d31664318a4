import PacketStack.Frame
import PacketStack.Registry

/-!
Address resolution between hardware addresses and IPv4.
-/

namespace PacketStack

structure Arp where
  operation : ArpOperation
  senderHardware : HwAddress
  sender : Ipv4Address
  targetHardware : HwAddress
  target : Ipv4Address
  deriving DecidableEq, Repr

namespace Arp

namespace Header

def hardwareType : HeaderField := .word16 "hardware_type" 0

def protocolType : HeaderField := .word16 "protocol_type" 2

def hardwareLength : HeaderField := .byte "hardware_length" 4

def protocolLength : HeaderField := .byte "protocol_length" 5

def operation : HeaderField := .whole .operation "operation" 6 2

def senderHardware : HeaderField := .hardware "sender_hw_addr" 8

def sender : HeaderField := .internet "sender_ip_addr" 14

def targetHardware : HeaderField := .hardware "target_hw_addr" 18

def target : HeaderField := .internet "target_ip_addr" 24

def size : Nat := 28

def layout : HeaderLayout where
  part := .arp
  minimum := size
  fields := [hardwareType, protocolType, hardwareLength, protocolLength, operation, senderHardware,
    sender, targetHardware, target]
  regions := [("packet", id)]
  blocks := []
  describe bytes := Text.record "ArpPacket" [
    ("hardware_type", hardwareType.describe bytes),
    ("protocol_type", protocolType.describe bytes),
    ("hardware_length", hardwareLength.describe bytes),
    ("protocol_length", protocolLength.describe bytes),
    ("operation", operation.describe bytes),
    ("sender_hw_addr", senderHardware.describe bytes),
    ("sender_ip_addr", sender.describe bytes),
    ("target_hw_addr", targetHardware.describe bytes),
    ("target_ip_addr", target.describe bytes)]

end Header

def ethernetHardware : Nat := 1

def request (target sender : Ipv4Address) (senderHardware : HwAddress) : Arp :=
  ⟨.request, senderHardware, sender, .zero, target⟩

def reply (target sender : Ipv4Address) (targetHardware senderHardware : HwAddress) : Arp :=
  ⟨.reply, senderHardware, sender, targetHardware, target⟩

instance : Inhabited Arp := ⟨request .zero .zero .zero⟩

def headerSize : Nat := Header.size

def write (arp : Arp) : Write Unit := do
  Write.require .arp Header.size
  Write.store Header.hardwareType ethernetHardware
  Write.store Header.protocolType EtherType.ipv4.id.toNat
  Write.store Header.hardwareLength 6
  Write.store Header.protocolLength 4
  Write.store Header.operation arp.operation.id.toNat
  Write.store Header.senderHardware arp.senderHardware.toNat
  Write.store Header.sender arp.sender.toNat
  Write.store Header.targetHardware arp.targetHardware.toNat
  Write.store Header.target arp.target.toNat

/-- Only addresses of the sizes of Ethernet and IPv4 can be read. -/
def decode (bytes : Bytes) : Outcome (Decoded Arp) := do
  requireSize .arp Header.size bytes
  let hardware := Header.hardwareLength.get bytes
  let protocol := Header.protocolLength.get bytes
  .demand (hardware = 6 ∧ protocol = 4) (.arpAddressLengths hardware protocol)
  let header := {
    operation := .ofId (Header.operation.get bytes).toUInt16
    senderHardware := Header.senderHardware.hwAddress bytes
    sender := Header.sender.ipv4Address bytes
    targetHardware := Header.targetHardware.hwAddress bytes
    target := Header.target.ipv4Address bytes }
  return ⟨header, bytes.drop Header.size, none⟩

theorem next_eq_none {bytes : Bytes} {decoded : Decoded Arp}
    (read : decode bytes = .ok decoded) : decoded.next = none := by
  simp only [decode, Outcome.bind_eq_ok] at read
  obtain ⟨_, _, _, _, result⟩ := read
  injection result with result
  rw [← result]

end Arp

end PacketStack
