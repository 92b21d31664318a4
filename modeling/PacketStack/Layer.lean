import PacketStack.Application.Dhcp
import PacketStack.Application.Dns
import PacketStack.Internet.Arp
import PacketStack.Internet.Icmp
import PacketStack.Internet.Ipv4
import PacketStack.Internet.Ipv6
import PacketStack.Link.CookedCapture
import PacketStack.Link.Ethernet
import PacketStack.Link.Loopback
import PacketStack.Link.RadioTap
import PacketStack.Link.Snap
import PacketStack.Transport.Tcp
import PacketStack.Transport.Udp
import PacketStack.Wireless.Eapol
import PacketStack.Wireless.Frame

/-!
A layer of any kind, with its sizes, its reading and its writing.

Main statement: `decode_payload_lt` says that a layer which knows what it carries carries less than
what it was read from, so reading the layers inside comes to an end.
-/

namespace PacketStack

/-- Bytes without a known meaning. -/
structure Raw where
  payload : Bytes
  deriving DecidableEq, Repr, Inhabited

namespace Raw

def headerSize (raw : Raw) : Nat := raw.payload.length

def write (raw : Raw) : Write Unit := Write.put 0 raw.payload

def decode (bytes : Bytes) : Outcome (Decoded Raw) := .ok ⟨⟨bytes⟩, [], none⟩

def describe (raw : Raw) : String :=
  Text.record "RawPdu" [("payload", Text.quotedBytes raw.payload)]

end Raw

inductive Layer where
  | ethernet (layer : Ethernet)
  | dot11 (layer : Wireless.Frame)
  | radioTap (layer : RadioTap)
  | snap (layer : Snap)
  | sll (layer : CookedCapture)
  | loopback (layer : Loopback)
  | arp (layer : Arp)
  | ipv4 (layer : Ipv4)
  | ipv6 (layer : Ipv6)
  | tcp (layer : Tcp)
  | udp (layer : Udp)
  | icmp (layer : Icmp)
  | dns (layer : Dns)
  | dhcp (layer : Dhcp)
  | eapol (layer : Eapol)
  | raw (layer : Raw)
  deriving DecidableEq

namespace Decoded

def map {α β : Type} (f : α → β) (decoded : Decoded α) : Decoded β :=
  ⟨f decoded.header, decoded.payload, decoded.next⟩

end Decoded

namespace Layer

def kind : Layer → Kind
  | .ethernet _ => .ethernet
  | .dot11 _ => .dot11
  | .radioTap _ => .radioTap
  | .snap _ => .snap
  | .sll _ => .sll
  | .loopback _ => .loopback
  | .arp _ => .arp
  | .ipv4 _ => .ipv4
  | .ipv6 _ => .ipv6
  | .tcp _ => .tcp
  | .udp _ => .udp
  | .icmp _ => .icmp
  | .dns _ => .dns
  | .dhcp _ => .dhcp
  | .eapol _ => .eapol
  | .raw _ => .raw

def headerSize : Layer → Nat
  | .ethernet _ => Ethernet.headerSize
  | .dot11 layer => layer.headerSize
  | .radioTap layer => layer.headerSize
  | .snap _ => Snap.headerSize
  | .sll _ => CookedCapture.headerSize
  | .loopback _ => Loopback.headerSize
  | .arp _ => Arp.headerSize
  | .ipv4 layer => layer.headerSize
  | .ipv6 _ => Ipv6.headerSize
  | .tcp layer => layer.headerSize
  | .udp _ => Udp.headerSize
  | .icmp _ => Icmp.headerSize
  | .dns layer => layer.headerSize
  | .dhcp layer => layer.headerSize
  | .eapol layer => layer.headerSize
  | .raw layer => layer.headerSize

def trailerSize (layer : Layer) (inner : Nat) : Nat :=
  match layer with
  | .ethernet _ => Ethernet.trailerSize inner
  | .radioTap layer => layer.trailerSize
  | _ => 0

/-- The source and the destination of an IP layer. -/
def addresses? : Layer → Option (IpAddress × IpAddress)
  | .ipv4 layer => some (.v4 layer.source, .v4 layer.destination)
  | .ipv6 layer => some (.v6 layer.source, .v6 layer.destination)
  | _ => none

/-- Writes a layer into a frame in which the layers inside are written already. The kind of the
layer inside and the addresses of the enclosing layer are given. -/
def write (layer : Layer) (inner : Option Kind) (addresses : Option (IpAddress × IpAddress)) :
    Write Unit :=
  match layer with
  | .ethernet layer => layer.write inner
  | .dot11 layer => layer.write
  | .radioTap layer => layer.write
  | .snap layer => layer.write inner
  | .sll layer => layer.write inner
  | .loopback layer => layer.write inner
  | .arp layer => layer.write
  | .ipv4 layer => layer.write inner
  | .ipv6 layer => layer.write inner
  | .tcp layer => layer.write addresses
  | .udp layer => layer.write addresses
  | .icmp layer => layer.write
  | .dns layer => layer.write
  | .dhcp layer => layer.write
  | .eapol layer => layer.write
  | .raw layer => layer.write

/-- Reads a layer of a kind from the front of the bytes. -/
def decode (kind : Kind) (bytes : Bytes) : Outcome (Decoded Layer) :=
  match kind with
  | .ethernet => (Ethernet.decode bytes).map (Decoded.map .ethernet)
  | .dot11 => (Wireless.Frame.decode bytes).map (Decoded.map .dot11)
  | .radioTap => (RadioTap.decode bytes).map (Decoded.map .radioTap)
  | .snap => (Snap.decode bytes).map (Decoded.map .snap)
  | .sll => (CookedCapture.decode bytes).map (Decoded.map .sll)
  | .loopback => (Loopback.decode bytes).map (Decoded.map .loopback)
  | .arp => (Arp.decode bytes).map (Decoded.map .arp)
  | .ipv4 => (Ipv4.decode bytes).map (Decoded.map .ipv4)
  | .ipv6 => (Ipv6.decode bytes).map (Decoded.map .ipv6)
  | .tcp => (Tcp.decode bytes).map (Decoded.map .tcp)
  | .udp => (Udp.decode bytes).map (Decoded.map .udp)
  | .icmp => (Icmp.decode bytes).map (Decoded.map .icmp)
  | .dns => (Dns.decode bytes).map (Decoded.map .dns)
  | .dhcp => (Dhcp.decode bytes).map (Decoded.map .dhcp)
  | .eapol => (Eapol.decode bytes).map (Decoded.map .eapol)
  | .raw => (Raw.decode bytes).map (Decoded.map .raw)

theorem map_eq_ok {α β : Type} {f : α → β} {outcome : Outcome α} {result : β} :
    outcome.map f = .ok result ↔ ∃ value, outcome = .ok value ∧ f value = result := by
  cases outcome <;> simp [Except.map]

theorem decode_payload_lt {kind inner : Kind} {bytes : Bytes} {decoded : Decoded Layer}
    (read : decode kind bytes = .ok decoded) (known : decoded.next = some inner) :
    decoded.payload.length < bytes.length := by
  cases kind <;> simp only [decode, map_eq_ok] at read <;> obtain ⟨header, read, rfl⟩ := read
  case ethernet => exact (Decoded.payload_lt_of_fixed (by decide) read :)
  case dot11 => exact Wireless.Frame.payload_lt read
  case radioTap => exact RadioTap.payload_lt read
  case snap => exact (Decoded.payload_lt_of_fixed (by decide) read :)
  case sll => exact (Decoded.payload_lt_of_fixed (by decide) read :)
  case loopback => exact (Decoded.payload_lt_of_fixed (by decide) read :)
  case arp => exact absurd (Arp.next_eq_none read) (by simp_all [Decoded.map])
  case ipv4 => exact Ipv4.payload_lt read
  case ipv6 => exact Ipv6.payload_lt read
  case tcp => exact absurd (Tcp.next_eq_none read) (by simp_all [Decoded.map])
  case udp => exact absurd (Udp.next_eq_none read) (by simp_all [Decoded.map])
  case icmp => exact absurd (Icmp.next_eq_none read) (by simp_all [Decoded.map])
  case dns => exact absurd (Dns.next_eq_none read) (by simp_all [Decoded.map])
  case dhcp => exact absurd (Dhcp.next_eq_none read) (by simp_all [Decoded.map])
  case eapol => exact absurd (Eapol.next_eq_none read) (by simp_all [Decoded.map])
  case raw =>
    injection read with result
    subst result
    simp [Decoded.map] at known

end Layer

def Failure.asMalformed : Failure → Failure
  | .refused (.shortBuffer part minimum available) =>
      .refused (.malformed (.tooShort part minimum available))
  | failure => failure

end PacketStack
