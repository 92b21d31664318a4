import PacketStack.Proofs.Application.Dhcp
import PacketStack.Proofs.Internet.Ipv4
import PacketStack.Proofs.Internet.Ipv6
import PacketStack.Proofs.Internet.Messages
import PacketStack.Proofs.Link.Announced
import PacketStack.Proofs.Link.RadioTap
import PacketStack.Proofs.Transport.Tcp
import PacketStack.Proofs.Transport.Udp
import PacketStack.Proofs.Wireless.Eapol
import PacketStack.Proofs.Wireless.Frame

/-!
Layers of any kind but names that are resolved, written around a body and read again.

Main statements: `frame_eq_ok` says what a layer leaves in its frame, `decode_written` that it is
read back with what it announces.
-/

namespace PacketStack.Layer

def next? : Layer → Option Kind
  | .ethernet layer => (EtherType.ofId layer.payloadType).kind?
  | .dot11 layer => layer.next?
  | .radioTap _ => some .dot11
  | .snap layer => (EtherType.ofId layer.payloadType).kind?
  | .sll layer => (EtherType.ofId layer.protocol).kind?
  | .loopback layer => Loopback.kind? layer.family
  | .ipv4 layer => layer.next?
  | .ipv6 layer => layer.nextHeader.kind?
  | _ => none

def announced (layer : Layer) (inner : Option Kind) : Layer :=
  match layer with
  | .ethernet layer => .ethernet (layer.settled inner)
  | .snap layer => .snap (layer.settled inner)
  | .sll layer => .sll (layer.settled inner)
  | .loopback layer => .loopback (layer.settled inner)
  | .arp layer => .arp layer.settled
  | .ipv4 layer => .ipv4 ((layer.announced inner).padded layer.checksum)
  | .ipv6 layer => .ipv6 (layer.announced inner).settled
  | .icmp layer => .icmp (layer.settled layer.checksum)
  | layer => layer

def withChecksum (checksum : UInt16) : Layer → Layer
  | .ipv4 layer => .ipv4 { layer with checksum }
  | .tcp layer => .tcp { layer with checksum }
  | .udp layer => .udp { layer with checksum }
  | .icmp layer => .icmp { layer with checksum }
  | layer => layer

@[simp] theorem headerSize_withChecksum (layer : Layer) (checksum : UInt16) :
    (layer.withChecksum checksum).headerSize = layer.headerSize := by
  cases layer <;> rfl

theorem headerSize_announced (layer : Layer) (inner : Option Kind) :
    (layer.announced inner).headerSize = layer.headerSize := by
  cases layer with
  | ipv4 layer => exact (layer.announced inner).headerSize_padded layer.checksum
  | _ => rfl

def Regular (layer : Layer) (inner : Option Kind) : Prop :=
  match layer with
  | .ethernet _ | .sll _ | .arp _ | .udp _ | .icmp _ | .raw _ => True
  | .dot11 layer => layer.Complete
  | .radioTap layer => layer.Complete
  | .snap layer => layer.organization.toNat < 2 ^ 24
  | .loopback layer => (layer.settled inner).family.toNat ≤ 0xffff
  | .ipv4 layer => layer.options.length ≤ 40
  | .ipv6 layer => layer.flowLabel.toNat < 2 ^ 20
  | .tcp layer => ∀ option ∈ layer.options, option.Plain
  | .dns _ => False
  | .dhcp layer => OptionList.Readable .dhcp layer.options
  | .eapol layer => layer.body.Complete

def Accepts (layer : Layer) (body : Bytes) : Prop :=
  match layer with
  | .dot11 layer => layer.body.Accepts body
  | .eapol layer => layer.body.Accepts body
  | .dhcp _ | .raw _ => body = []
  | _ => True

def Limit (layer : Layer) (length : Nat) : Prop :=
  match layer with
  | .radioTap layer => layer.headerSize ≤ 0xffff
  | .ipv4 layer => layer.headerSize + length ≤ 0xffff
  | .ipv6 _ => length ≤ 0xffff
  | .tcp layer => layer.headerSize ≤ Tcp.maximumHeader
  | .udp _ => Udp.Header.size + length ≤ 0xffff
  | .eapol layer => layer.headerSize + length ≤ 0xffff + Eapol.Header.size
  | _ => True

def checksum (layer : Layer) (inner : Option Kind) (addresses : Option (IpAddress × IpAddress))
    (body : Bytes) : UInt16 :=
  match layer with
  | .ipv4 layer =>
      Checksum.ipv4Header (((layer.announced inner).written 0 body).take layer.headerSize)
  | .tcp layer => Checksum.within addresses .tcp (layer.written 0 body)
  | .udp layer => Checksum.within addresses .udp (layer.written 0 body)
  | .icmp layer => Checksum.icmp (layer.written 0 body)
  | _ => 0

def written (layer : Layer) (inner : Option Kind) (checksum : UInt16) (body : Bytes) : Bytes :=
  match layer with
  | .ethernet layer => headed Ethernet.Header.size (layer.settled inner).values
      (body ++ List.replicate (Ethernet.trailerSize body.length) 0)
  | .dot11 layer => layer.written body
  | .radioTap layer => layer.labelled ++ (body ++ layer.check body)
  | .snap layer => headed Snap.Header.size (layer.settled inner).values body
  | .sll layer => headed CookedCapture.Header.size (layer.settled inner).values body
  | .loopback layer => Bytes.ofNatLE 4 (layer.settled inner).family.toNat ++ body
  | .arp layer => headed Arp.Header.size layer.values body
  | .ipv4 layer => (layer.announced inner).written checksum body
  | .ipv6 layer => (layer.announced inner).written body
  | .tcp layer => layer.written checksum body
  | .udp layer => layer.written checksum body
  | .icmp layer => layer.written checksum body
  | .dns _ => []
  | .dhcp layer => layer.written body
  | .eapol layer => layer.written body
  | .raw layer => layer.payload ++ body

variable {layer : Layer} {inner : Option Kind} {addresses : Option (IpAddress × IpAddress)}
variable {body bytes : Bytes}

theorem frame_eq_ok (regular : layer.Regular inner) :
    Packet.frame layer inner addresses body = .ok bytes ↔
      (layer.headerSize + body.length + layer.trailerSize body.length < 2 ^ 32 ∧
        layer.Limit body.length) ∧
          bytes = layer.written inner (layer.checksum inner addresses body) body := by
  have whole (nothing : layer.trailerSize body.length = 0) :
      body ++ List.replicate (layer.trailerSize body.length) 0 = body := by
    rw [nothing, List.replicate_zero, List.append_nil]
  rw [Packet.frame_eq_ok, and_assoc]
  apply and_congr_right'
  cases layer with
  | ethernet layer => exact Ethernet.turns_write.trans (and_iff_right trivial).symm
  | dot11 layer =>
      rw [whole rfl]
      exact (Wireless.Frame.turns_write regular).trans (and_iff_right trivial).symm
  | radioTap layer => exact RadioTap.turns_write
  | snap layer =>
      rw [whole rfl]
      exact Snap.turns_write.trans (and_iff_right trivial).symm
  | sll layer =>
      rw [whole rfl]
      exact CookedCapture.turns_write.trans (and_iff_right trivial).symm
  | loopback layer =>
      rw [whole rfl]
      exact Loopback.turns_write.trans (and_iff_right trivial).symm
  | arp layer =>
      rw [whole rfl]
      exact Arp.turns_write.trans (and_iff_right trivial).symm
  | ipv4 layer =>
      rw [whole rfl]
      exact Ipv4.turns_write
  | ipv6 layer =>
      rw [whole rfl]
      exact Ipv6.turns_write
  | tcp layer =>
      rw [whole rfl]
      exact Tcp.turns_write
  | udp layer =>
      rw [whole rfl]
      exact Udp.turns_write
  | icmp layer =>
      rw [whole rfl]
      exact Icmp.turns_write.trans (and_iff_right trivial).symm
  | dns layer => exact absurd regular not_false
  | dhcp layer =>
      rw [whole rfl]
      exact (Dhcp.turns_write regular).trans (and_iff_right trivial).symm
  | eapol layer =>
      rw [whole rfl]
      exact Eapol.turns_write
  | raw layer =>
      have room : 0 + layer.payload.length ≤ (headed layer.payload.length [] body).length := by
        rw [length_headed]
        omega
      have replaced : (headed layer.payload.length [] body).splice 0 layer.payload =
          layer.payload ++ body := by
        rw [Bytes.splice, List.take_zero, List.nil_append, Nat.zero_add, drop_headed]
      rw [whole rfl]
      change (Write.put 0 layer.payload).Turns (headed layer.payload.length [] body) () bytes ↔ _
      rw [Write.turns_put, and_iff_right room, replaced]
      exact (and_iff_right trivial).symm

theorem length_written (regular : layer.Regular inner) (checksum : UInt16) (body : Bytes) :
    (layer.written inner checksum body).length =
      layer.headerSize + body.length + layer.trailerSize body.length := by
  cases layer with
  | ethernet layer =>
      rw [written, length_headed, List.length_append, List.length_replicate, ← Nat.add_assoc]
      rfl
  | dot11 layer => exact layer.length_written body
  | radioTap layer =>
      rw [written, List.length_append, List.length_append, RadioTap.length_labelled,
        RadioTap.length_check, ← Nat.add_assoc]
      rfl
  | snap layer => exact length_headed _ _ _
  | sll layer => exact length_headed _ _ _
  | loopback layer =>
      rw [written, List.length_append, Bytes.length_ofNatLE]
      rfl
  | arp layer => exact length_headed _ _ _
  | ipv4 layer => exact (layer.announced inner).length_written checksum body
  | ipv6 layer => exact length_headed _ _ _
  | tcp layer => exact layer.length_written checksum body
  | udp layer => exact length_headed _ _ _
  | icmp layer => exact length_headed _ _ _
  | dns layer => exact absurd regular not_false
  | dhcp layer =>
      rw [written, Dhcp.written, length_headed, List.length_append,
        OptionList.length_toFlatBytes, ← Nat.add_assoc]
      rfl
  | eapol layer => exact layer.length_written body
  | raw layer => exact List.length_append

def padding (layer : Layer) (length : Nat) : Bytes :=
  match layer with
  | .ethernet _ => List.replicate (Ethernet.trailerSize length) 0
  | _ => []

theorem padding_eq_nil (notLink : layer.kind ≠ .ethernet) (length : Nat) :
    layer.padding length = [] := by
  cases layer with
  | ethernet layer => exact absurd rfl notLink
  | _ => rfl

theorem decode_written (regular : layer.Regular inner) (accepts : layer.Accepts body)
    (limit : layer.Limit body.length) (checksum : UInt16) :
    decode layer.kind (layer.written inner checksum body) =
      .ok ⟨(layer.announced inner).withChecksum checksum, body ++ layer.padding body.length,
        (layer.announced inner).next?⟩ := by
  have whole (nothing : layer.padding body.length = []) :
      body ++ layer.padding body.length = body := by
    rw [nothing, List.append_nil]
  cases layer with
  | ethernet layer =>
      change (Ethernet.decode (headed _ _ _)).map _ = _
      rw [Ethernet.decode_headed]
      rfl
  | dot11 layer =>
      change (Wireless.Frame.decode (layer.written body)).map _ = _
      rw [Wireless.Frame.decode_written regular accepts, whole rfl]
      rfl
  | radioTap layer =>
      have complete : layer.Complete := regular
      change (RadioTap.decode (layer.labelled ++ (body ++ layer.check body))).map _ = _
      rw [complete.labelled_eq, RadioTap.decode_parts complete (layer.length_check body), whole rfl]
      rfl
  | snap layer =>
      change (Snap.decode (headed _ _ _)).map _ = _
      rw [Snap.decode_headed (layer.settled inner) regular, whole rfl]
      rfl
  | sll layer =>
      change (CookedCapture.decode (headed _ _ _)).map _ = _
      rw [CookedCapture.decode_headed, whole rfl]
      rfl
  | loopback layer =>
      change
        (Loopback.decode (Bytes.ofNatLE 4 (layer.settled inner).family.toNat ++ body)).map _ = _
      rw [Loopback.decode_written (layer.settled inner) regular, whole rfl]
      rfl
  | arp layer =>
      change (Arp.decode (headed _ _ _)).map _ = _
      rw [Arp.decode_headed, whole rfl]
      rfl
  | ipv4 layer =>
      have read := Ipv4.decode_written (layer.announced inner) checksum body [] regular limit
      rw [List.append_nil] at read
      change (Ipv4.decode ((layer.announced inner).written checksum body)).map _ = _
      rw [read, whole rfl]
      rfl
  | ipv6 layer =>
      have read := Ipv6.decode_written (layer.announced inner) regular body [] limit
      rw [List.append_nil] at read
      change (Ipv6.decode ((layer.announced inner).written body)).map _ = _
      rw [read, whole rfl]
      rfl
  | tcp layer =>
      change (Tcp.decode (layer.written checksum body)).map _ = _
      rw [Tcp.decode_written layer checksum body regular limit, whole rfl]
      rfl
  | udp layer =>
      change (Udp.decode (layer.written checksum body)).map _ = _
      rw [Udp.decode_written layer checksum body limit, whole rfl]
      rfl
  | icmp layer =>
      change (Icmp.decode (layer.written checksum body)).map _ = _
      rw [Icmp.decode_written, whole rfl]
      rfl
  | dns layer => exact absurd regular not_false
  | dhcp layer =>
      have empty : body = [] := accepts
      subst empty
      change (Dhcp.decode (layer.written [])).map _ = _
      rw [Dhcp.decode_written layer regular]
      rfl
  | eapol layer =>
      have read := Eapol.decode_written regular accepts limit []
      rw [List.append_nil] at read
      change (Eapol.decode (layer.written body)).map _ = _
      rw [read, whole rfl]
      rfl
  | raw layer =>
      have empty : body = [] := accepts
      subst empty
      change (Raw.decode (layer.payload ++ [])).map _ = _
      rw [List.append_nil]
      rfl

def Bounded (layer : Layer) : Prop := layer.kind = .ipv4 ∨ layer.kind = .ipv6 ∨ layer.kind = .eapol

theorem decode_written_append (bounded : layer.Bounded) (regular : layer.Regular inner)
    (accepts : layer.Accepts body) (limit : layer.Limit body.length) (checksum : UInt16)
    (more : Bytes) :
    decode layer.kind (layer.written inner checksum body ++ more) =
      .ok ⟨(layer.announced inner).withChecksum checksum, body, (layer.announced inner).next?⟩ := by
  cases layer with
  | ipv4 layer =>
      change (Ipv4.decode ((layer.announced inner).written checksum body ++ more)).map _ = _
      rw [Ipv4.decode_written (layer.announced inner) checksum body more regular limit]
      rfl
  | ipv6 layer =>
      change (Ipv6.decode ((layer.announced inner).written body ++ more)).map _ = _
      rw [Ipv6.decode_written (layer.announced inner) regular body more limit]
      rfl
  | eapol layer =>
      change (Eapol.decode (layer.written body ++ more)).map _ = _
      rw [Eapol.decode_written regular accepts limit more]
      rfl
  | _ => rcases bounded with known | known | known <;> cases known

end PacketStack.Layer
