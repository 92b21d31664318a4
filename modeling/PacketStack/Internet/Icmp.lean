import PacketStack.Frame
import PacketStack.Checksum

/-!
Control messages of IPv4, with the identifier and the sequence number of echo messages.
-/

namespace PacketStack

structure Icmp where
  type : IcmpType
  code : UInt8
  identifier : UInt16
  sequence : UInt16
  /-- The checksum found when the message was read. -/
  checksum : UInt16
  deriving DecidableEq, Repr

namespace Icmp

namespace Header

def type : HeaderField := .whole .icmpType "icmp_type" 0 1

def code : HeaderField := .byte "icmp_code" 1

def checksum : HeaderField := .word16 "checksum" 2

def identifier : HeaderField := .word16 "identifier" 4

def sequence : HeaderField := .word16 "sequence" 6

def size : Nat := 8

def layout : HeaderLayout where
  part := .icmp
  minimum := size
  fields := [type, code, checksum, identifier, sequence]
  regions := [("packet", id), ("payload", List.drop size)]
  blocks := []
  describe bytes := Text.record "IcmpPacket" [
    ("icmp_type", type.describe bytes),
    ("icmp_code", Text.tuple "IcmpCode" (code.describe bytes)),
    ("checksum", checksum.describe bytes),
    ("identifier", identifier.describe bytes),
    ("sequence", sequence.describe bytes),
    ("payload", Text.quotedBytes (bytes.drop size))]

end Header

def new (type : IcmpType) : Icmp := ⟨type, 0, 0, 0, 0⟩

def echoRequest (identifier sequence : UInt16) : Icmp :=
  { new .echoRequest with identifier, sequence }

instance : Inhabited Icmp := ⟨new .echoRequest⟩

def headerSize : Nat := Header.size

def write (icmp : Icmp) : Write Unit := do
  Write.require .icmp Header.size
  Write.store Header.type icmp.type.id.toNat
  Write.store Header.code icmp.code.toNat
  Write.store Header.identifier icmp.identifier.toNat
  Write.store Header.sequence icmp.sequence.toNat
  Write.store Header.checksum 0
  Write.store Header.checksum (Checksum.icmp (← Write.frame)).toNat

def ofBytes (bytes : Bytes) : Icmp where
  type := .ofId (Header.type.get bytes).toUInt8
  code := (Header.code.get bytes).toUInt8
  identifier := (Header.identifier.get bytes).toUInt16
  sequence := (Header.sequence.get bytes).toUInt16
  checksum := (Header.checksum.get bytes).toUInt16

def decode : Bytes → Outcome (Decoded Icmp) :=
  Decoded.fixed .icmp Header.size ofBytes fun _ => none

theorem next_eq_none {bytes : Bytes} {decoded : Decoded Icmp}
    (read : decode bytes = .ok decoded) : decoded.next = none := by
  rw [(Decoded.fixed_eq_ok.mp read).2]

end Icmp

end PacketStack
