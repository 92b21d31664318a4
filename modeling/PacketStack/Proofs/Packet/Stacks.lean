import PacketStack.Proofs.Packet.Framing

/-!
Stacks of a link layer, a datagram, a message and what it carries.

`Stack.settled` is the packet which is read from a stack that was written. The lemmas here tie its
layers to what is announced and summed when the layers of the stack are written.
-/

namespace PacketStack

namespace Stack

/-- A link layer around a datagram. The organization behind an access header has three bytes. -/
inductive Link where
  | ethernet (layer : Ethernet)
  | sll (layer : CookedCapture)
  | snap (layer : Snap) (short : layer.organization.toNat < 2 ^ 24)
  | loopback (layer : Loopback)

/-- A datagram that is whole and has room for its options, or one whose label fits its field. -/
inductive Datagram where
  | ipv4 (layer : Ipv4) (whole : layer.isFragmented = false) (short : layer.options.length ≤ 40)
  | ipv6 (layer : Ipv6) (short : layer.flowLabel.toNat < 2 ^ 20)

/-- A message inside of a datagram. The options of a segment do not end before the last one, and
those without an operation have no data. -/
inductive Message where
  | tcp (layer : Tcp) (options : ∀ option ∈ layer.options, option.kind ≠ TcpOption.endOfList ∧
      (option.kind = TcpOption.noOperation → option.data = []))
  | udp (layer : Udp)
  | icmp (layer : Icmp)

namespace Link

def layer : Link → Layer
  | .ethernet layer => .ethernet layer
  | .sll layer => .sll layer
  | .snap layer _ => .snap layer
  | .loopback layer => .loopback layer

end Link

namespace Datagram

def layer : Datagram → Layer
  | .ipv4 layer _ _ => .ipv4 layer
  | .ipv6 layer _ => .ipv6 layer

def addresses : Datagram → IpAddress × IpAddress
  | .ipv4 layer _ _ => (.v4 layer.source, .v4 layer.destination)
  | .ipv6 layer _ => (.v6 layer.source, .v6 layer.destination)

def etherType : Datagram → UInt16
  | .ipv4 _ _ _ => 0x0800
  | .ipv6 _ _ => 0x86dd

def family (datagram : Datagram) (current : UInt32) : UInt32 :=
  match datagram with
  | .ipv4 _ _ _ => 2
  | .ipv6 _ _ => if current = 24 ∨ current = 28 ∨ current = 30 then current else 24

end Datagram

namespace Message

def layer : Message → Layer
  | .tcp layer _ => .tcp layer
  | .udp layer => .udp layer
  | .icmp layer => .icmp layer

def protocol : Message → IpProtocol
  | .tcp _ _ => .tcp
  | .udp _ => .udp
  | .icmp _ => .icmp

/-- The checksum of the bytes of a message between two addresses. -/
def checksum? (message : Message) (addresses : IpAddress × IpAddress) (bytes : Bytes) :
    Option UInt16 :=
  match message with
  | .tcp _ _ => Checksum.transport? bytes .tcp addresses.1 addresses.2
  | .udp _ => Checksum.transport? bytes .udp addresses.1 addresses.2
  | .icmp _ => some (Checksum.icmp bytes)

/-- The message with the checksum which it is written with, and its type by the name it has. -/
def settled (message : Message) (checksum : UInt16) : Layer :=
  match message with
  | .tcp layer _ => .tcp { layer with checksum }
  | .udp layer => .udp { layer with checksum }
  | .icmp layer => .icmp { layer with type := layer.type.canonical, checksum }

end Message

/-- The datagram with the number of its message, the checksum which it is written with and options
that fill whole words. -/
def Datagram.settled (datagram : Datagram) (message : Message) (checksum : UInt16) : Layer :=
  match datagram with
  | .ipv4 layer _ _ => .ipv4 { layer with
      protocol := message.protocol
      options := layer.options ++ List.replicate ((4 - layer.options.length % 4) % 4) 0
      checksum }
  | .ipv6 layer _ => .ipv6 { layer with nextHeader := message.protocol }

/-- The link layer with the number of its datagram. -/
def Link.settled (link : Link) (datagram : Datagram) : Layer :=
  match link with
  | .ethernet layer => .ethernet { layer with payloadType := datagram.etherType }
  | .sll layer => .sll { layer with protocol := datagram.etherType }
  | .snap layer _ => .snap { layer with payloadType := datagram.etherType }
  | .loopback layer => .loopback ⟨datagram.family layer.family⟩

end Stack

/-- A message in a datagram, with or without a link layer around it and bytes inside of it. -/
structure Stack where
  link : Option Stack.Link
  datagram : Stack.Datagram
  message : Stack.Message
  payload : Option Bytes
  filled : payload ≠ some []

namespace Stack

/-- The message with what it carries. -/
def inside (stack : Stack) : Packet :=
  .ofLayer stack.message.layer (stack.payload.map Packet.raw)

/-- The datagram with its message. -/
def carried (stack : Stack) : Packet := .over stack.datagram.layer stack.inside

def packet (stack : Stack) : Packet :=
  match stack.link with
  | none => stack.carried
  | some link => .over link.layer stack.carried

/-- The stack as it is read after it was written with checksums of its datagram and its message. -/
def settled (stack : Stack) (header message : UInt16) : Packet :=
  let inside := Packet.ofLayer (stack.message.settled message) (stack.payload.map Packet.raw)
  let carried := Packet.over (stack.datagram.settled stack.message header) inside
  match stack.link with
  | none => carried
  | some link => .over (link.settled stack.datagram) carried

theorem Datagram.version_eq (datagram : Datagram) :
    datagram.addresses.1.isV4 = datagram.addresses.2.isV4 := by
  cases datagram <;> rfl

theorem Datagram.addresses?_layer (datagram : Datagram) :
    datagram.layer.addresses? = some datagram.addresses := by
  cases datagram <;> rfl

theorem Message.regular {message : Message} {inner : Option Kind}
    {addresses : Option (IpAddress × IpAddress)} {body bytes : Bytes}
    (framed : Packet.frame message.layer inner addresses body = .ok bytes) :
    message.layer.Regular inner := by
  cases message with
  | tcp layer options =>
      have turned : (layer.write addresses).Turns
          (headed layer.headerSize [] (body ++ List.replicate 0 0)) () bytes :=
        (Packet.frame_eq_ok.mp framed).2
      rw [List.replicate_zero, List.append_nil] at turned
      exact Tcp.plain_of_headerSize_le (Tcp.turns_write.mp turned).1 options
  | udp layer => trivial
  | icmp layer => trivial

theorem Message.checksum?_written (message : Message) {addresses : IpAddress × IpAddress}
    (version : addresses.1.isV4 = addresses.2.isV4) (inner : Option Kind) (body : Bytes) :
    message.checksum? addresses (message.layer.written inner
        (message.layer.checksum inner (some addresses) body) body) =
      some (message.layer.checksum inner (some addresses) body) := by
  cases message with
  | tcp layer options =>
      change Checksum.transport? (layer.written _ body) .tcp _ _ = _
      rw [layer.transport?_written _ 0]
      exact Checksum.within_eq_transport? version _
  | udp layer =>
      change Checksum.transport? (layer.written _ body) .udp _ _ = _
      rw [layer.transport?_written _ 0]
      exact Checksum.within_eq_transport? version _
  | icmp layer => exact congrArg some (layer.checksum_written _ 0 body)

theorem Message.withChecksum_announced (message : Message) (inner : Option Kind)
    (checksum : UInt16) :
    (message.layer.announced inner).withChecksum checksum = message.settled checksum := by
  cases message <;> rfl

theorem kind_inside (stack : Stack) : stack.inside.kind = stack.message.layer.kind := by
  unfold inside
  cases stack.payload <;> rfl

theorem Datagram.regular (datagram : Datagram) (inner : Option Kind) :
    datagram.layer.Regular inner := by
  cases datagram with
  | ipv4 layer whole short => exact short
  | ipv6 layer short => exact short

theorem Datagram.bounded (datagram : Datagram) : datagram.layer.Bounded := by
  cases datagram with
  | ipv4 layer whole short => exact Or.inl rfl
  | ipv6 layer short => exact Or.inr (Or.inl rfl)

theorem Datagram.next?_announced (datagram : Datagram) (message : Message) :
    (datagram.layer.announced (some message.layer.kind)).next? = some message.layer.kind := by
  cases datagram with
  | ipv4 layer whole short =>
      change (if layer.isFragmented then none else _) = _
      rw [whole]
      cases message <;> rfl
  | ipv6 layer short => cases message <;> rfl

theorem Datagram.withChecksum_announced (datagram : Datagram) (message : Message)
    (checksum : UInt16) :
    (datagram.layer.announced (some message.layer.kind)).withChecksum checksum =
      datagram.settled message checksum := by
  cases datagram <;> cases message <;> rfl

theorem Datagram.settled_written (datagram : Datagram) (message : Message)
    (addresses : Option (IpAddress × IpAddress)) (body : Bytes) :
    datagram.settled message (datagram.layer.checksum (some message.layer.kind) addresses body) =
      datagram.settled message (Checksum.ipv4Header
        ((datagram.layer.written (some message.layer.kind)
          (datagram.layer.checksum (some message.layer.kind) addresses body) body).take
            datagram.layer.headerSize)) := by
  cases datagram with
  | ipv4 layer whole short =>
      exact congrArg ((ipv4 layer whole short).settled message)
        ((layer.announced (some message.layer.kind)).ipv4Header_written 0 _ body)
  | ipv6 layer short => rfl

theorem Link.announced_eq (link : Link) (datagram : Datagram) :
    link.layer.announced (some datagram.layer.kind) = link.settled datagram := by
  cases link with
  | loopback layer =>
      cases datagram with
      | ipv4 ip whole short => rfl
      | ipv6 ip short =>
          change Layer.loopback ⟨if layer.family ∈ Loopback.internet6 then layer.family else 24⟩ = _
          simp only [Loopback.internet6, List.mem_cons, List.not_mem_nil, or_false]
          rfl
  | _ => cases datagram <;> rfl

theorem Datagram.family_eq (datagram : Datagram) (current : UInt32) :
    datagram.family current = 2 ∧ datagram.layer.kind = .ipv4 ∨
      (datagram.family current = 24 ∨ datagram.family current = 28 ∨
        datagram.family current = 30) ∧ datagram.layer.kind = .ipv6 := by
  cases datagram with
  | ipv4 layer whole short => exact Or.inl ⟨rfl, rfl⟩
  | ipv6 layer short =>
      refine Or.inr ⟨?_, rfl⟩
      by_cases kept : current = 24 ∨ current = 28 ∨ current = 30
      · rw [show (ipv6 layer short).family current = current from if_pos kept]
        exact kept
      · exact Or.inl (if_neg kept)

theorem Link.next?_settled (link : Link) (datagram : Datagram) :
    (link.settled datagram).next? = some datagram.layer.kind := by
  cases link with
  | loopback layer =>
      change Loopback.kind? (datagram.family layer.family) = _
      rcases datagram.family_eq layer.family with ⟨family, kind⟩ | ⟨family | family | family, kind⟩
        <;> rw [family, kind] <;> rfl
  | _ => cases datagram <;> rfl

theorem Link.regular (link : Link) (datagram : Datagram) :
    link.layer.Regular (some datagram.layer.kind) := by
  cases link with
  | ethernet layer => trivial
  | sll layer => trivial
  | snap layer short => exact short
  | loopback layer =>
      have settled := Link.announced_eq (.loopback layer) datagram
      injection settled with same
      change (layer.settled (some datagram.layer.kind)).family.toNat ≤ 0xffff
      rw [same]
      change (datagram.family layer.family).toNat ≤ 0xffff
      rcases datagram.family_eq layer.family with ⟨family, kind⟩ | ⟨family | family | family, kind⟩
        <;> rw [family] <;> decide

theorem kinds_settled (stack : Stack) (header message : UInt16) :
    (stack.settled header message).toList.map Layer.kind =
      stack.packet.toList.map Layer.kind := by
  have inside : (Packet.ofLayer (stack.message.settled message)
      (stack.payload.map Packet.raw)).toList.map Layer.kind =
        stack.inside.toList.map Layer.kind := by
    unfold Stack.inside
    cases stack.payload <;> cases stack.message <;> rfl
  have datagram : (stack.datagram.settled stack.message header).kind =
      stack.datagram.layer.kind := by
    cases stack.datagram <;> rfl
  unfold settled packet
  cases stack.link with
  | none =>
      simp only [carried, Packet.toList, List.map_cons, inside, datagram]
  | some link =>
      have outer : (link.settled stack.datagram).kind = link.layer.kind := by cases link <;> rfl
      simp only [carried, Packet.toList, List.map_cons, inside, datagram, outer]

end Stack

end PacketStack
