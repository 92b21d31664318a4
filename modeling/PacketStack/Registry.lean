import PacketStack.Kind
import PacketStack.Text.Record

/-!
Assigned numbers and the names that some of them have.

A number without a name stands for itself. `ofId` gives a number its name, so of the two values of
a named number, by name and as another number, it gives the first. Layers inside an IP datagram or
a link layer frame have the kinds which `kind?` and `ofKind?` tell.
-/

namespace PacketStack

/-- The protocol inside an IP datagram. -/
inductive IpProtocol where
  | icmp
  | tcp
  | udp
  | icmpV6
  | other (id : UInt8)
  deriving DecidableEq, Repr

namespace IpProtocol

def id : IpProtocol → UInt8
  | icmp => 1
  | tcp => 6
  | udp => 17
  | icmpV6 => 58
  | other id => id

def ofId : UInt8 → IpProtocol
  | 1 => icmp
  | 6 => tcp
  | 17 => udp
  | 58 => icmpV6
  | id => other id

instance : Inhabited IpProtocol := ⟨ofId 0⟩

@[simp] theorem id_ofId (number : UInt8) : (ofId number).id = number := by
  unfold ofId
  split <;> rfl

def canonical (protocol : IpProtocol) : IpProtocol := ofId protocol.id

theorem canonical_ofId (number : UInt8) : (ofId number).canonical = ofId number := by
  rw [canonical, id_ofId]

def isOther : IpProtocol → Bool
  | other _ => true
  | _ => false

def text : IpProtocol → String
  | icmp => "Icmp"
  | tcp => "Tcp"
  | udp => "Udp"
  | icmpV6 => "IcmpV6"
  | other id => Text.other id.toNat

def ofKind? : Kind → Option IpProtocol
  | .icmp => some icmp
  | .tcp => some tcp
  | .udp => some udp
  | _ => none

def kind? : IpProtocol → Option Kind
  | icmp => some .icmp
  | tcp => some .tcp
  | udp => some .udp
  | _ => none

theorem kind?_eq_some_iff {protocol : IpProtocol} {kind : Kind} :
    protocol.kind? = some kind ↔ ofKind? kind = some protocol := by
  cases protocol <;> cases kind <;> simp [kind?, ofKind?]

def announce (inner : Option Kind) (current : IpProtocol) : IpProtocol :=
  (inner.bind ofKind?).getD current

end IpProtocol

/-- The protocol inside a link layer frame. -/
inductive EtherType where
  | ipv4
  | arp
  | ipv6
  | eapol
  | other (id : UInt16)
  deriving DecidableEq, Repr

namespace EtherType

def id : EtherType → UInt16
  | ipv4 => 0x0800
  | arp => 0x0806
  | ipv6 => 0x86dd
  | eapol => 0x888e
  | other id => id

def ofId : UInt16 → EtherType
  | 0x0800 => ipv4
  | 0x0806 => arp
  | 0x86dd => ipv6
  | 0x888e => eapol
  | id => other id

@[simp] theorem id_ofId (number : UInt16) : (ofId number).id = number := by
  unfold ofId
  split <;> rfl

def canonical (type : EtherType) : EtherType := ofId type.id

theorem canonical_ofId (number : UInt16) : (ofId number).canonical = ofId number := by
  rw [canonical, id_ofId]

def isOther : EtherType → Bool
  | other _ => true
  | _ => false

def text : EtherType → String
  | ipv4 => "Ipv4"
  | arp => "Arp"
  | ipv6 => "Ipv6"
  | eapol => "Eapol"
  | other id => Text.other id.toNat

def ofKind? : Kind → Option EtherType
  | .ipv4 => some ipv4
  | .arp => some arp
  | .ipv6 => some ipv6
  | .eapol => some eapol
  | _ => none

def kind? : EtherType → Option Kind
  | ipv4 => some .ipv4
  | arp => some .arp
  | ipv6 => some .ipv6
  | eapol => some .eapol
  | other _ => none

theorem kind?_eq_some_iff {type : EtherType} {kind : Kind} :
    type.kind? = some kind ↔ ofKind? kind = some type := by
  cases type <;> cases kind <;> simp [kind?, ofKind?]

def announce (inner : Option Kind) (current : UInt16) : UInt16 :=
  ((inner.bind ofKind?).map id).getD current

end EtherType

/-- The link layer of a captured frame. -/
inductive LinkType where
  | null
  | ethernet
  /-- Datagrams of either IP version without a link layer. -/
  | raw
  | ieee80211
  | linuxSll
  | radioTap
  | other (id : UInt32)
  deriving DecidableEq, Repr, Inhabited

namespace LinkType

def id : LinkType → UInt32
  | null => 0
  | ethernet => 1
  | raw => 101
  | ieee80211 => 105
  | linuxSll => 113
  | radioTap => 127
  | other id => id

def ofId : UInt32 → LinkType
  | 0 => null
  | 1 => ethernet
  | 101 => raw
  | 105 => ieee80211
  | 113 => linuxSll
  | 127 => radioTap
  | id => other id

def canonical (link : LinkType) : LinkType := ofId link.id

def kind? : LinkType → Option Kind
  | null => some .loopback
  | ethernet => some .ethernet
  | ieee80211 => some .dot11
  | linuxSll => some .sll
  | radioTap => some .radioTap
  | raw | other _ => none

def text : LinkType → String
  | null => "null"
  | ethernet => "ethernet"
  | raw => "raw"
  | ieee80211 => "ieee802.11"
  | linuxSll => "linux-sll"
  | radioTap => "radiotap"
  | other id => s!"dlt-{id}"

def describe : LinkType → String
  | null => "Null"
  | ethernet => "Ethernet"
  | raw => "Raw"
  | ieee80211 => "Ieee80211"
  | linuxSll => "LinuxSll"
  | radioTap => "Radiotap"
  | other id => Text.other id.toNat

end LinkType

inductive ArpOperation where
  | request
  | reply
  | other (id : UInt16)
  deriving DecidableEq, Repr

namespace ArpOperation

def id : ArpOperation → UInt16
  | request => 1
  | reply => 2
  | other id => id

def ofId : UInt16 → ArpOperation
  | 1 => request
  | 2 => reply
  | id => other id

@[simp] theorem id_ofId (number : UInt16) : (ofId number).id = number := by
  unfold ofId
  split <;> rfl

def canonical (operation : ArpOperation) : ArpOperation := ofId operation.id

theorem canonical_ofId (number : UInt16) : (ofId number).canonical = ofId number := by
  rw [canonical, id_ofId]

def isOther : ArpOperation → Bool
  | other _ => true
  | _ => false

def text : ArpOperation → String
  | request => "Request"
  | reply => "Reply"
  | other id => Text.other id.toNat

end ArpOperation

/-- The type of a control message. -/
inductive IcmpType where
  | echoReply
  | destinationUnreachable
  | echoRequest
  | timeExceeded
  | other (id : UInt8)
  deriving DecidableEq, Repr

namespace IcmpType

def id : IcmpType → UInt8
  | echoReply => 0
  | destinationUnreachable => 3
  | echoRequest => 8
  | timeExceeded => 11
  | other id => id

def ofId : UInt8 → IcmpType
  | 0 => echoReply
  | 3 => destinationUnreachable
  | 8 => echoRequest
  | 11 => timeExceeded
  | id => other id

@[simp] theorem id_ofId (number : UInt8) : (ofId number).id = number := by
  unfold ofId
  split <;> rfl

def canonical (type : IcmpType) : IcmpType := ofId type.id

theorem canonical_ofId (number : UInt8) : (ofId number).canonical = ofId number := by
  rw [canonical, id_ofId]

def isOther : IcmpType → Bool
  | other _ => true
  | _ => false

def text : IcmpType → String
  | echoReply => "EchoReply"
  | destinationUnreachable => "DestinationUnreachable"
  | echoRequest => "EchoRequest"
  | timeExceeded => "TimeExceeded"
  | other id => Text.other id.toNat

end IcmpType

end PacketStack
