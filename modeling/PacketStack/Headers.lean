import PacketStack.Application.Dhcp
import PacketStack.Internet.Arp
import PacketStack.Internet.Icmp
import PacketStack.Internet.Ipv4
import PacketStack.Internet.Ipv6
import PacketStack.Link.CookedCapture
import PacketStack.Link.Ethernet
import PacketStack.Link.Snap
import PacketStack.Transport.Tcp
import PacketStack.Transport.Udp
import PacketStack.Wireless.Eapol
import PacketStack.Wireless.Frame

/-!
The headers of which there are views.
-/

namespace PacketStack

/-- The layouts of headers by name. -/
def headerLayouts : List (String × HeaderLayout) := [
  ("ethernet", Ethernet.Header.layout),
  ("arp", Arp.Header.layout),
  ("ipv4", Ipv4.Header.layout),
  ("ipv6", Ipv6.Header.layout),
  ("tcp", Tcp.Header.layout),
  ("udp", Udp.Header.layout),
  ("icmp", Icmp.Header.layout),
  ("sll", CookedCapture.Header.layout),
  ("snap", Snap.Header.layout),
  ("bootp", Dhcp.Header.layout),
  ("eapol", Eapol.Header.layout),
  ("rsn_key", RsnKey.Header.layout),
  ("dot11", Wireless.Frame.Header.layout)]

end PacketStack
