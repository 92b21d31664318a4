/-!
The kinds of layers a packet is made of.
-/

namespace PacketStack

inductive Kind where
  | ethernet
  | dot11
  | radioTap
  | snap
  | sll
  | loopback
  | arp
  | ipv4
  | ipv6
  | tcp
  | udp
  | icmp
  | dns
  | dhcp
  | eapol
  | raw
  deriving DecidableEq, Repr, Inhabited

namespace Kind

/-- The name of a kind in messages. -/
def text : Kind → String
  | .ethernet => "EthernetII"
  | .dot11 => "802.11"
  | .radioTap => "RadioTap"
  | .snap => "SNAP"
  | .sll => "SLL"
  | .loopback => "Loopback"
  | .arp => "ARP"
  | .ipv4 => "IPv4"
  | .ipv6 => "IPv6"
  | .tcp => "TCP"
  | .udp => "UDP"
  | .icmp => "ICMP"
  | .dns => "DNS"
  | .dhcp => "DHCP"
  | .eapol => "EAPOL"
  | .raw => "Raw"

def all : List Kind :=
  [.ethernet, .dot11, .radioTap, .snap, .sll, .loopback, .arp, .ipv4, .ipv6, .tcp, .udp, .icmp,
    .dns, .dhcp, .eapol, .raw]

end Kind

end PacketStack
