import PacketStack.Kind
import PacketStack.Text.Hex

/-!
Why a packet is refused, and the wording of each cause.

A `PacketError` is an answer of the library about the bytes or values it was given. A `Fault` is a
use of the library outside what it promises, such as a range past the end of a buffer: nothing
recovers from it.
-/

namespace PacketStack

/-- The parts of a packet whose size is checked before they are read or written. -/
inductive Part where
  | ethernet
  | arp
  | ipv4
  | ipv6
  | tcp
  | udp
  | icmp
  | sll
  | snap
  | loopback
  | radioTap
  | dot11
  | sequenceHeader
  | dot11Data
  | dot11Control
  | managementFixed
  | dns
  | bootp
  | eapol
  | eap
  | rc4Key
  | rsnKey
  | optionList
  | hwAddress
  deriving DecidableEq, Repr

def Part.text : Part → String
  | .ethernet => "EthernetPacket"
  | .arp => "ArpPacket"
  | .ipv4 => "Ipv4Packet"
  | .ipv6 => "Ipv6Packet"
  | .tcp => "TcpPacket"
  | .udp => "UdpPacket"
  | .icmp => "IcmpPacket"
  | .sll => "SllPacket"
  | .snap => "SnapPacket"
  | .loopback => "Loopback"
  | .radioTap => "RadioTap"
  | .dot11 => "Dot11Packet"
  | .sequenceHeader => "SequenceHeader"
  | .dot11Data => "Dot11Data"
  | .dot11Control => "Dot11Control"
  | .managementFixed => "ManagementFixed"
  | .dns => "Dns"
  | .bootp => "BootpPacket"
  | .eapol => "EapolPacket"
  | .eap => "Eap"
  | .rc4Key => "Rc4Key"
  | .rsnKey => "RsnKeyPacket"
  | .optionList => "OptionList"
  | .hwAddress => "HwAddress"

inductive DnsSection where
  | queries
  | answers
  | authority
  | additional
  deriving DecidableEq, Repr

def DnsSection.text : DnsSection → String
  | .queries => "queries"
  | .answers => "answers"
  | .authority => "authority records"
  | .additional => "additional records"

/-- Why the bytes of an encoded DNS name cannot be read. -/
inductive DnsNameFlaw where
  | truncated
  | labelTruncated
  | tooLong
  | pointerTruncated
  | compressionLoop
  | pointerOutOfRange
  | unsupportedLabel
  deriving DecidableEq, Repr

def DnsNameFlaw.text : DnsNameFlaw → String
  | .truncated => "truncated"
  | .labelTruncated => "label truncated"
  | .tooLong => "too long"
  | .pointerTruncated => "pointer truncated"
  | .compressionLoop => "compression loop"
  | .pointerOutOfRange => "pointer out of range"
  | .unsupportedLabel => "with unsupported label type"

/-- Why bytes do not form a packet, or a layer cannot be written. -/
inductive Malformation where
  | tooShort (part : Part) (minimum available : Nat)
  | headerExceedsBuffer (kind : Kind) (size available : Nat)
  | arpAddressLengths (hardware protocol : Nat)
  | ipv4Header (version words : Nat)
  | ipv4TotalLength (length header : Nat)
  | ipv4Size (size : Nat)
  | ipv6Version (version : Nat)
  | ipv6Size (size : Nat)
  | tcpOptionLength (kind length : Nat)
  | tcpDataOffset (words : Nat)
  | tcpHeaderSize (size : Nat)
  | udpSize (size : Nat)
  | radioTapLength (length available : Nat)
  | radioTapPresentWords
  | radioTapWithoutFcs
  | radioTapFailedFcs
  | radioTapHeaderSize (size : Nat)
  | dnsNameTooLong (name : String)
  | dnsLabel (name : String)
  | dnsEntries (entries : DnsSection)
  | dnsDataTooLong
  | dnsTruncated (offset : Nat)
  | dnsRecord (offset : Nat)
  | dnsName (flaw : DnsNameFlaw)
  | dhcpCookie (magic : UInt32)
  | eapolFrameTooLong
  | eapolKeyDataTooLong
  | eapolKeyData (length available : Nat)
  | eapolWithoutDescriptor
  deriving DecidableEq, Repr

def Malformation.text : Malformation → String
  | .tooShort part minimum available =>
      s!"{part.text} requires {minimum} bytes, {available} available"
  | .headerExceedsBuffer kind size available =>
      s!"{kind.text} header of {size} bytes exceeds buffer of {available} bytes"
  | .arpAddressLengths hardware protocol =>
      s!"unsupported ARP address lengths hw={hardware} proto={protocol}"
  | .ipv4Header version words => s!"invalid IPv4 header version={version} ihl={words}"
  | .ipv4TotalLength length header => s!"IPv4 total length {length} shorter than header {header}"
  | .ipv4Size size => s!"IPv4 datagram of {size} bytes"
  | .ipv6Version version => s!"invalid IPv6 version {version}"
  | .ipv6Size size => s!"IPv6 payload of {size} bytes"
  | .tcpOptionLength kind length => s!"TCP option {kind} with length {length}"
  | .tcpDataOffset words => s!"invalid TCP data offset {words}"
  | .tcpHeaderSize size => s!"TCP header of {size} bytes"
  | .udpSize size => s!"UDP datagram of {size} bytes"
  | .radioTapLength length available =>
      s!"RadioTap length {length} with {available} bytes available"
  | .radioTapPresentWords => "RadioTap present words exceed the header"
  | .radioTapWithoutFcs => "RadioTap frame too short for its FCS"
  | .radioTapFailedFcs => "RadioTap frame with a failed FCS"
  | .radioTapHeaderSize size => s!"RadioTap header of {size} bytes"
  | .dnsNameTooLong name => s!"DNS name too long: {name}"
  | .dnsLabel name => s!"invalid DNS label in {name}"
  | .dnsEntries entries => s!"too many DNS {entries.text}"
  | .dnsDataTooLong => "too many DNS record data bytes"
  | .dnsTruncated offset => s!"DNS truncated message at offset {offset}"
  | .dnsRecord offset => s!"DNS address record of unexpected length at offset {offset}"
  | .dnsName flaw => s!"DNS name {flaw.text}"
  | .dhcpCookie magic => s!"invalid DHCP magic cookie {Text.hexWord magic}"
  | .eapolFrameTooLong => "EAPOL frame too long"
  | .eapolKeyDataTooLong => "EAPOL key data too long"
  | .eapolKeyData length available =>
      s!"EAPOL key data of {length} bytes with {available} available"
  | .eapolWithoutDescriptor => "EAPOL key frame without a descriptor type"

inductive PacketError where
  | shortBuffer (part : Part) (minimum available : Nat)
  | malformed (cause : Malformation)
  | optionNotFound (tag : UInt8)
  | malformedOption (tag : UInt8)
  | invalidAddress (text : String)
  deriving DecidableEq, Repr

def PacketError.message : PacketError → String
  | .shortBuffer part minimum available =>
      s!"insufficient buffer for {part.text} packet, minimum={minimum}, provided={available}"
  | .malformed cause => s!"malformed packet: {cause.text}"
  | .optionNotFound tag => s!"option {tag} not found"
  | .malformedOption tag => s!"malformed option {tag}"
  | .invalidAddress text => s!"invalid address: {text}"

/-- A use of the library outside what it promises. -/
inductive Fault where
  | outOfBounds
  | readOnly
  | emptyKey
  | noSuchHandshake
  deriving DecidableEq, Repr

/-- What ends an operation early. -/
inductive Failure where
  | refused (cause : PacketError)
  | fault (fault : Fault)
  deriving DecidableEq, Repr

abbrev Outcome (α : Type) := Except Failure α

namespace Outcome

def refuse {α : Type} (cause : PacketError) : Outcome α := .error (.refused cause)

def malformed {α : Type} (cause : Malformation) : Outcome α := refuse (.malformed cause)

def outOfBounds {α : Type} : Outcome α := .error (.fault .outOfBounds)

def demand (condition : Prop) [Decidable condition] (cause : Malformation) : Outcome Unit :=
  if condition then .ok () else malformed cause

def value? {α : Type} : Outcome α → Option α
  | .ok value => some value
  | .error _ => none

theorem value?_eq_some_iff {α : Type} {outcome : Outcome α} {value : α} :
    outcome.value? = some value ↔ outcome = .ok value := by
  cases outcome <;> simp [value?]

theorem bind_eq_ok {α β : Type} {first : Outcome α} {next : α → Outcome β} {result : β} :
    first >>= next = .ok result ↔ ∃ value, first = .ok value ∧ next value = .ok result := by
  cases first <;> simp [bind, Except.bind]

theorem isOk_iff {α : Type} {outcome : Outcome α} :
    outcome.isOk = true ↔ ∃ value, outcome = .ok value := by
  cases outcome <;> simp [Except.isOk, Except.toBool]

@[simp] theorem malformed_ne_ok {α : Type} (cause : Malformation) (value : α) :
    malformed cause ≠ .ok value := nofun

@[simp] theorem demand_eq_ok {condition : Prop} [Decidable condition] {cause : Malformation}
    {done : Unit} : demand condition cause = .ok done ↔ condition := by
  unfold demand
  split <;> simp_all

theorem demand_bind_eq_ok {α : Type} {condition : Prop} [Decidable condition]
    {cause : Malformation} {next : Unit → Outcome α} {result : α} :
    (demand condition cause >>= next) = .ok result ↔ condition ∧ next () = .ok result := by
  simp only [bind_eq_ok, demand_eq_ok]
  exact ⟨fun ⟨_, holds, rest⟩ => ⟨holds, rest⟩, fun ⟨holds, rest⟩ => ⟨(), holds, rest⟩⟩

theorem pure_eq_ok {α : Type} {value result : α} :
    (pure value : Outcome α) = .ok result ↔ result = value :=
  ⟨fun same => (Except.ok.inj same).symm, fun same => same ▸ rfl⟩

@[simp] theorem outOfBounds_ne_ok {α : Type} (value : α) : outOfBounds ≠ .ok value := nofun

end Outcome

end PacketStack
