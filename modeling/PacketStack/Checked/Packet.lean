import PacketStack.Checked.Headers
import PacketStack.Checked.Wireless
import PacketStack.Packet

/-!
Checked reading of a layer of any kind, of packets and of captured frames.
-/

namespace PacketStack

def Layer.decodeChecked (kind : Kind) (bytes : Bytes) : Outcome (Decoded Layer) :=
  match kind with
  | .ethernet => (Ethernet.decodeChecked bytes).map (Decoded.map .ethernet)
  | .dot11 => (Wireless.Frame.decodeChecked bytes).map (Decoded.map .dot11)
  | .radioTap => (RadioTap.decodeChecked bytes).map (Decoded.map .radioTap)
  | .snap => (Snap.decodeChecked bytes).map (Decoded.map .snap)
  | .sll => (CookedCapture.decodeChecked bytes).map (Decoded.map .sll)
  | .loopback => (Loopback.decodeChecked bytes).map (Decoded.map .loopback)
  | .arp => (Arp.decodeChecked bytes).map (Decoded.map .arp)
  | .ipv4 => (Ipv4.decodeChecked bytes).map (Decoded.map .ipv4)
  | .ipv6 => (Ipv6.decodeChecked bytes).map (Decoded.map .ipv6)
  | .tcp => (Tcp.decodeChecked bytes).map (Decoded.map .tcp)
  | .udp => (Udp.decodeChecked bytes).map (Decoded.map .udp)
  | .icmp => (Icmp.decodeChecked bytes).map (Decoded.map .icmp)
  | .dns => (Dns.decodeChecked bytes).map (Decoded.map .dns)
  | .dhcp => (Dhcp.decodeChecked bytes).map (Decoded.map .dhcp)
  | .eapol => (Eapol.decodeChecked bytes).map (Decoded.map .eapol)
  | .raw => (Raw.decode bytes).map (Decoded.map .raw)

namespace Packet

/-- Reads a layer with everything it carries, where a layer inside takes fewer bytes than the one
around it. -/
def parseChecked (kind : Kind) (bytes : Bytes) : Outcome Packet :=
  match Layer.decodeChecked kind bytes with
  | .error failure => .error failure.asMalformed
  | .ok ⟨layer, payload, next⟩ =>
      if bytes.length < layer.headerSize then
        .malformed (.headerExceedsBuffer kind layer.headerSize bytes.length)
      else if payload.isEmpty then .ok (.single layer)
      else match next with
        | none => .ok (.over layer (raw payload))
        | some inner =>
            if payload.length < bytes.length then (parseChecked inner payload).map (.over layer)
            else .outOfBounds
termination_by bytes.length

def ofLinkBytesChecked (link : LinkType) (bytes : Bytes) : Outcome Packet :=
  let kind? := if link = .raw then
      match bytes.head?.map (·.toNat / 16) with
      | some 4 => some Kind.ipv4
      | some 6 => some Kind.ipv6
      | _ => none
    else link.kind?
  match kind? with
  | some kind => parseChecked kind bytes
  | none => .ok (raw bytes)

end Packet

end PacketStack
