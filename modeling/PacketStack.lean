import PacketStack.Address.Hardware
import PacketStack.Address.Internet
import PacketStack.Application.Dhcp
import PacketStack.Application.Dns
import PacketStack.Application.DnsName
import PacketStack.Assembly
import PacketStack.Bytes
import PacketStack.Capture.Error
import PacketStack.Capture.File
import PacketStack.Capture.Instant
import PacketStack.Capture.Reader
import PacketStack.Capture.Sink
import PacketStack.Capture.Source
import PacketStack.Capture.Writer
import PacketStack.Checked.Access
import PacketStack.Checked.Flow
import PacketStack.Checked.Headers
import PacketStack.Checked.Messages
import PacketStack.Checked.Packet
import PacketStack.Checked.Wep
import PacketStack.Checked.Wireless
import PacketStack.Checksum
import PacketStack.Crc32
import PacketStack.Crypto.Aes
import PacketStack.Crypto.Digest
import PacketStack.Crypto.Hmac
import PacketStack.Crypto.Md5
import PacketStack.Crypto.Rc4
import PacketStack.Crypto.Sha1
import PacketStack.Error
import PacketStack.Exchange.Application
import PacketStack.Exchange.Capture
import PacketStack.Exchange.Header
import PacketStack.Exchange.Options
import PacketStack.Exchange.Packet
import PacketStack.Exchange.Protection
import PacketStack.Exchange.Reassembly
import PacketStack.Exchange.Value
import PacketStack.Exchange.Wireless
import PacketStack.Frame
import PacketStack.Header
import PacketStack.Internet.Arp
import PacketStack.Internet.Icmp
import PacketStack.Internet.Ipv4
import PacketStack.Internet.Ipv6
import PacketStack.Kind
import PacketStack.Layer
import PacketStack.Link.CookedCapture
import PacketStack.Link.Ethernet
import PacketStack.Link.Loopback
import PacketStack.Link.RadioTap
import PacketStack.Link.Snap
import PacketStack.Options
import PacketStack.Packet
import PacketStack.Proofs.Address.Hardware
import PacketStack.Proofs.Application.Dhcp
import PacketStack.Proofs.Application.DhcpViews
import PacketStack.Proofs.Application.Dns
import PacketStack.Proofs.Application.DnsName
import PacketStack.Proofs.Application.DnsReading
import PacketStack.Proofs.Application.DnsRewriting
import PacketStack.Proofs.Application.DnsWalk
import PacketStack.Proofs.Application.Hostnames
import PacketStack.Proofs.Application.OptionLists
import PacketStack.Proofs.Application.OptionViews
import PacketStack.Proofs.Application.TaggedOptions
import PacketStack.Proofs.Capture.Parsing
import PacketStack.Proofs.Capture.Reading
import PacketStack.Proofs.Capture.Rereading
import PacketStack.Proofs.Capture.Sniffing
import PacketStack.Proofs.Capture.Writing
import PacketStack.Proofs.Checked.Access
import PacketStack.Proofs.Checked.Flow
import PacketStack.Proofs.Checked.Headers
import PacketStack.Proofs.Checked.Messages
import PacketStack.Proofs.Checked.Packet
import PacketStack.Proofs.Checked.Wireless
import PacketStack.Proofs.Crypto.Keystream
import PacketStack.Proofs.Crypto.Rc4
import PacketStack.Proofs.Header.Bits
import PacketStack.Proofs.Header.Bounds
import PacketStack.Proofs.Header.Checksums
import PacketStack.Proofs.Header.Fields
import PacketStack.Proofs.Header.Folding
import PacketStack.Proofs.Header.OnesComplement
import PacketStack.Proofs.Header.Span
import PacketStack.Proofs.Header.Tiling
import PacketStack.Proofs.Header.Values
import PacketStack.Proofs.Header.Views
import PacketStack.Proofs.Header.Writing
import PacketStack.Proofs.Internet.Ipv4
import PacketStack.Proofs.Internet.Ipv6
import PacketStack.Proofs.Internet.Messages
import PacketStack.Proofs.Link.Announced
import PacketStack.Proofs.Link.RadioTap
import PacketStack.Proofs.Link.RadioTapFields
import PacketStack.Proofs.Packet.Accepting
import PacketStack.Proofs.Packet.Assembly
import PacketStack.Proofs.Packet.Building
import PacketStack.Proofs.Packet.Canonical
import PacketStack.Proofs.Packet.Chains
import PacketStack.Proofs.Packet.Declared
import PacketStack.Proofs.Packet.Extents
import PacketStack.Proofs.Packet.Framing
import PacketStack.Proofs.Packet.HeaderLengths
import PacketStack.Proofs.Packet.Layers
import PacketStack.Proofs.Packet.Places
import PacketStack.Proofs.Packet.Reading
import PacketStack.Proofs.Packet.Reinterpreting
import PacketStack.Proofs.Packet.Rewriting
import PacketStack.Proofs.Packet.Settling
import PacketStack.Proofs.Packet.Stacks
import PacketStack.Proofs.Packet.TypedOptions
import PacketStack.Proofs.Packet.Unchecked
import PacketStack.Proofs.Protection.Capturing
import PacketStack.Proofs.Protection.Carried
import PacketStack.Proofs.Protection.Ccmp
import PacketStack.Proofs.Protection.Codes
import PacketStack.Proofs.Protection.Encapsulation
import PacketStack.Proofs.Protection.Learning
import PacketStack.Proofs.Protection.Opening
import PacketStack.Proofs.Protection.StationKeys
import PacketStack.Proofs.Protection.Tkip
import PacketStack.Proofs.Protection.Wep
import PacketStack.Proofs.Reassembly.Clearing
import PacketStack.Proofs.Reassembly.Closing
import PacketStack.Proofs.Reassembly.Delivery
import PacketStack.Proofs.Reassembly.Following
import PacketStack.Proofs.Reassembly.Gathering
import PacketStack.Proofs.Reassembly.Held
import PacketStack.Proofs.Reassembly.Holding
import PacketStack.Proofs.Reassembly.Parts
import PacketStack.Proofs.Reassembly.Position
import PacketStack.Proofs.Reassembly.Progress
import PacketStack.Proofs.Reassembly.Reopening
import PacketStack.Proofs.Reassembly.Retaining
import PacketStack.Proofs.Reassembly.Rewritten
import PacketStack.Proofs.Reassembly.Separation
import PacketStack.Proofs.Reassembly.SerialOrder
import PacketStack.Proofs.Reassembly.Slice
import PacketStack.Proofs.Text.Utf8
import PacketStack.Proofs.Transport.Tcp
import PacketStack.Proofs.Transport.Udp
import PacketStack.Proofs.Wireless.Authentication
import PacketStack.Proofs.Wireless.Bodies
import PacketStack.Proofs.Wireless.Eapol
import PacketStack.Proofs.Wireless.ElementViews
import PacketStack.Proofs.Wireless.Encoding
import PacketStack.Proofs.Wireless.Frame
import PacketStack.Proofs.Wireless.Keys
import PacketStack.Proofs.Wireless.Management
import PacketStack.Proofs.Wireless.Security
import PacketStack.Protection.Ccmp
import PacketStack.Protection.Description
import PacketStack.Protection.Error
import PacketStack.Protection.Handshake
import PacketStack.Protection.ProtectedFrame
import PacketStack.Protection.Relay
import PacketStack.Protection.SessionKeys
import PacketStack.Protection.Tkip
import PacketStack.Protection.Wep
import PacketStack.Protection.Wpa2
import PacketStack.Reassembly.Connection
import PacketStack.Reassembly.Datagram
import PacketStack.Reassembly.Flow
import PacketStack.Reassembly.Serial
import PacketStack.Reassembly.Tracker
import PacketStack.Registry
import PacketStack.Sizes
import PacketStack.Table
import PacketStack.Text.Hex
import PacketStack.Text.Quoted
import PacketStack.Text.Record
import PacketStack.Text.Utf8
import PacketStack.Text.Visible
import PacketStack.Transport.Tcp
import PacketStack.Transport.Udp
import PacketStack.Wireless.Control
import PacketStack.Wireless.Eapol
import PacketStack.Wireless.Element
import PacketStack.Wireless.Frame
import PacketStack.Wireless.Management
import PacketStack.Wireless.Security
import PacketStack.Wireless.Sequence
