import PacketStack.Frame

/-!
The flags of 802.11 frames, and the addresses and numbers that management and data frames share.
-/

namespace PacketStack.Wireless

/-- The second byte of the frame control field. -/
structure Flags where
  bits : UInt8
  deriving DecidableEq, Repr, Inhabited

namespace Flags

def toDs : Flags := ⟨0x01⟩

def fromDs : Flags := ⟨0x02⟩

def moreFragments : Flags := ⟨0x04⟩

def retry : Flags := ⟨0x08⟩

def powerManagement : Flags := ⟨0x10⟩

def moreData : Flags := ⟨0x20⟩

def protectedFrame : Flags := ⟨0x40⟩

def order : Flags := ⟨0x80⟩

def contains (flags wanted : Flags) : Bool := flags.bits &&& wanted.bits == wanted.bits

def intersect (left right : Flags) : Flags := ⟨left.bits &&& right.bits⟩

def union (left right : Flags) : Flags := ⟨left.bits ||| right.bits⟩

def without (flags unwanted : Flags) : Flags := ⟨flags.bits &&& ~~~ unwanted.bits⟩

def isBetweenSystems (flags : Flags) : Bool := flags.contains toDs && flags.contains fromDs

def names : List (String × Nat) :=
  [("TO_DS", 0x01), ("FROM_DS", 0x02), ("MORE_FRAG", 0x04), ("RETRY", 0x08), ("POWER_MGMT", 0x10),
    ("MORE_DATA", 0x20), ("PROTECTED", 0x40), ("ORDER", 0x80)]

def text (flags : Flags) : String := Text.flags "FrameFlags" names flags.bits.toNat

end Flags

/-- The addresses after the first one and the sequence control field. -/
structure SequenceHeader where
  addr2 : HwAddress
  addr3 : HwAddress
  /-- The fragment number, of which four bits are written. -/
  fragment : UInt8
  /-- The sequence number, of which twelve bits are written. -/
  sequence : UInt16
  /-- Only part of frames between two parts of a distribution system. -/
  addr4 : HwAddress
  deriving DecidableEq, Repr, Inhabited

namespace SequenceHeader

def size (flags : Flags) : Nat := if flags.isBetweenSystems then 20 else 14

def sequenceControl (header : SequenceHeader) : UInt16 :=
  (header.fragment.toUInt16 &&& (0x0f : UInt16)) ||| (header.sequence <<< (4 : UInt16))

def toBytes (header : SequenceHeader) (flags : Flags) : Bytes :=
  header.addr2.octets ++ header.addr3.octets ++ Bytes.ofNatLE 2 header.sequenceControl.toNat ++
    if flags.isBetweenSystems then header.addr4.octets else []

def parse (flags : Flags) (bytes : Bytes) : Outcome SequenceHeader := do
  requireSize .sequenceHeader (size flags) bytes
  let control := (Bytes.toNatLE (bytes.window 12 2)).toUInt16
  return {
    addr2 := .ofNat (Bytes.toNatBE (bytes.window 0 6))
    addr3 := .ofNat (Bytes.toNatBE (bytes.window 6 6))
    fragment := (control &&& 0x0f).toUInt8
    sequence := control >>> 4
    addr4 :=
      if flags.isBetweenSystems then .ofNat (Bytes.toNatBE (bytes.window 14 6)) else .zero }

end SequenceHeader

end PacketStack.Wireless
