import PacketStack.Proofs.Application.Dns
import PacketStack.Proofs.Application.TaggedOptions
import PacketStack.Proofs.Header.Bounds
import PacketStack.Proofs.Wireless.Bodies
import PacketStack.Proofs.Wireless.Eapol

/-!
What the writing of each layer leaves alone: everything behind its header, but for the check
sequence of a radio header, which stands at the end of the frame.

Main statement: `Layer.spares_write` for the layers of all kinds.
-/

namespace PacketStack

open Write

namespace Ethernet

theorem spares_write (ethernet : Ethernet) (inner : Option Kind) :
    (ethernet.write inner).Spares headerSize 0 := by
  apply spares_require_bind
  iterate 2 apply spares_store_bind (by decide)
  exact spares_store (by decide)

end Ethernet

namespace Arp

theorem spares_write (arp : Arp) : arp.write.Spares headerSize 0 := by
  apply spares_require_bind
  iterate 8 apply spares_store_bind (by decide)
  exact spares_store (by decide)

end Arp

namespace Snap

theorem spares_write (snap : Snap) (inner : Option Kind) :
    (snap.write inner).Spares headerSize 0 := by
  apply spares_require_bind
  iterate 4 apply spares_store_bind (by decide)
  exact spares_store (by decide)

end Snap

namespace CookedCapture

theorem spares_write (cooked : CookedCapture) (inner : Option Kind) :
    (cooked.write inner).Spares headerSize 0 := by
  apply spares_require_bind
  iterate 4 apply spares_store_bind (by decide)
  exact spares_store (by decide)

end CookedCapture

namespace Loopback

theorem spares_write (loopback : Loopback) (inner : Option Kind) :
    (loopback.write inner).Spares headerSize 0 := by
  apply spares_require_bind
  apply spares_put
  rw [Bytes.length_ofNatLE]
  exact Nat.le_refl _

end Loopback

namespace Icmp

theorem spares_write (icmp : Icmp) : icmp.write.Spares headerSize 0 := by
  apply spares_require_bind
  iterate 5 apply spares_store_bind (by decide)
  apply spares_frame.bind
  intro frame
  exact spares_store (by decide)

end Icmp

namespace Ipv6

theorem spares_write (ip : Ipv6) (inner : Option Kind) : (ip.write inner).Spares headerSize 0 := by
  apply spares_frame.bind
  intro frame
  apply spares_demand_bind
  apply spares_require_bind
  iterate 7 apply spares_store_bind (by decide)
  exact spares_store (by decide)

end Ipv6

namespace Write

variable {head tail : Nat}

theorem spares_checksum {field : HeaderField} (inside : field.endByte ≤ head)
    (addresses : Option (IpAddress × IpAddress)) (protocol : IpProtocol) :
    Spares head tail (do
      if let some (source, destination) := addresses then
        if let some checksum := Checksum.transport? (← Write.frame) protocol source destination then
          Write.store field checksum.toNat) := by
  rcases addresses with _ | ⟨source, destination⟩
  · exact spares_pure _
  · apply spares_frame.bind
    intro frame
    cases Checksum.transport? frame protocol source destination with
    | none => exact spares_pure _
    | some checksum => exact spares_store inside

end Write

namespace Ipv4

theorem spares_write (ip : Ipv4) (inner : Option Kind) :
    (ip.write inner).Spares ip.headerSize 0 := by
  have fixed {size : Nat} (inside : size ≤ Header.size) : size ≤ ip.headerSize :=
    Nat.le_trans inside (Nat.le_add_right _ _)
  have options : Header.size + ip.options.length ≤ ip.headerSize := by
    simp [headerSize, Bytes.padTo]
  apply spares_frame.bind
  intro frame
  apply spares_demand_bind
  apply spares_reach_bind (Nat.le_refl _)
  iterate 10 apply spares_store_bind (fixed (by decide))
  apply spares_put_bind options
  apply spares_store_bind (fixed (by decide))
  apply spares_frame.bind
  intro written
  exact spares_store (fixed (by decide))

end Ipv4

namespace Udp

theorem spares_write (udp : Udp) (addresses : Option (IpAddress × IpAddress)) :
    (udp.write addresses).Spares headerSize 0 := by
  apply spares_frame.bind
  intro frame
  apply spares_demand_bind
  apply spares_require_bind
  iterate 4 apply spares_store_bind (by decide)
  exact spares_checksum (by decide) addresses .udp

end Udp

namespace Tcp

theorem spares_write (tcp : Tcp) (addresses : Option (IpAddress × IpAddress)) :
    (tcp.write addresses).Spares tcp.headerSize 0 := by
  have fixed {size : Nat} (inside : size ≤ Header.size) : size ≤ tcp.headerSize :=
    Nat.le_trans inside (Nat.le_add_right _ _)
  apply spares_demand_bind
  apply spares_require_bind
  iterate 8 apply spares_store_bind (fixed (by decide))
  apply spares_put_bind (Nat.le_refl _)
  apply spares_store_bind (fixed (by decide))
  exact spares_checksum (fixed (by decide)) addresses .tcp

end Tcp

namespace OptionList

theorem spares_write {head tail : Nat} (format : OptionFormat) {offset : Nat}
    {options : OptionList} (inside : offset + wireSize format options ≤ head) :
    (OptionList.write format offset options).Spares head tail := by
  have sizes : wireSize format (options.takeWhile (TaggedOption.fits format)) +
      wireSize format (options.dropWhile (TaggedOption.fits format)) = wireSize format options := by
    rw [wireSize, wireSize, ← sizeSum_append, List.takeWhile_append_dropWhile, wireSize]
  have fitting := length_toFlatBytes format (options.takeWhile (TaggedOption.fits format))
  rw [toFlatBytes] at fitting
  apply spares_reach_bind (by omega)
  apply spares_frame.bind
  intro frame
  dsimp only
  split
  · intro frame room small
    apply SparesIn.bind (spares_refused _ frame room small)
    intro _ _ thrown
    cases thrown
  · apply spares_put_bind
    · rw [fitting]
      omega
    · split
      · exact spares_pure _
      · rename_i option rest front
        have room : 1 ≤ option.wireSize format := by
          unfold TaggedOption.wireSize
          split <;> omega
        have first : wireSize format (option :: rest) =
            option.wireSize format + wireSize format rest := rfl
        rw [front, first] at sizes
        apply spares_put_bind
        · rw [List.length_singleton]
          omega
        · exact spares_refused _

end OptionList

namespace Dhcp

theorem spares_write (dhcp : Dhcp) : dhcp.write.Spares dhcp.headerSize 0 := by
  have fixed {size : Nat} (inside : size ≤ Header.size) : size ≤ dhcp.headerSize :=
    Nat.le_trans inside (Nat.le_add_right _ _)
  apply spares_require_bind
  iterate 15 apply spares_store_bind (fixed (by decide))
  exact OptionList.spares_write .dhcp (Nat.le_refl _)

end Dhcp

namespace Raw

theorem spares_write (raw : Raw) : raw.write.Spares raw.headerSize 0 := by
  apply spares_put
  rw [Nat.zero_add]
  exact Nat.le_refl _

end Raw

namespace Dns

theorem spares_write (dns : Dns) : dns.write.Spares dns.headerSize 0 := by
  have faultless := dns.faultless_encode
  unfold write
  cases encoded : dns.encode with
  | error failure =>
      rw [encoded] at faultless
      exact spares_lift faultless.error
  | ok bytes =>
      have length := length_of_encode encoded
      intro frame room small
      by_cases fits : dns.size < 2 ^ 32
      · have inside : 0 + bytes.length ≤ dns.headerSize := by
          rw [Nat.zero_add, length, headerSize_of_lt fits]
        exact spares_require_bind (spares_put inside) frame room small
      · have short : frame.length < bytes.length := by omega
        apply SparesIn.bind (spares_require frame room small)
        intro _ _ passed
        rw [run_require_of_lt short] at passed
        cases passed

end Dns

namespace RsnKey

theorem spares_write (key : RsnKey) :
    key.write.Spares (Header.size + key.keyData.length) 0 := by
  have fixed {size : Nat} (inside : size ≤ Header.size) :
      size ≤ Header.size + key.keyData.length := Nat.le_trans inside (Nat.le_add_right _ _)
  apply spares_demand_bind
  apply spares_require_bind
  iterate 10 apply spares_store_bind (fixed (by decide))
  exact spares_put (Nat.le_refl _)

end RsnKey

namespace Rc4Key

theorem spares_write (key : Rc4Key) : key.write.Spares (Header.size + key.key.length) 0 := by
  have fixed {size : Nat} (inside : size ≤ Header.size) :
      size ≤ Header.size + key.key.length := Nat.le_trans inside (Nat.le_add_right _ _)
  iterate 7 apply spares_store_bind (fixed (by decide))
  exact spares_put (Nat.le_refl _)

end Rc4Key

namespace Eapol

theorem spares_writeEap (eap : Eap) (length : Nat) :
    (writeEap eap length).Spares (Header.size + eap.size) 0 := by
  have fixed {size : Nat} (inside : size ≤ Header.size + 4) : size ≤ Header.size + eap.size :=
    Nat.le_trans inside (by rw [Eap.size]; omega)
  apply spares_put_bind (fixed (by rw [List.length_singleton]; decide))
  apply spares_put_bind (fixed (by rw [List.length_singleton]; decide))
  apply spares_put_bind
  · apply fixed
    rw [Bytes.length_ofNatBE]
  · cases method : eap.method with
    | none => exact spares_pure _
    | some id =>
        apply spares_put
        rw [Eap.size, method]
        rfl

theorem spares_write (eapol : Eapol) : eapol.write.Spares eapol.headerSize 0 := by
  have fixed {size : Nat} (inside : size ≤ Header.size) : size ≤ eapol.headerSize :=
    Nat.le_trans inside eapol.size_le_headerSize
  apply spares_reach_bind (fixed (Nat.le_refl _))
  apply spares_frame.bind
  intro frame
  apply spares_demand_bind
  iterate 3 apply spares_store_bind (fixed (by decide))
  unfold headerSize EapolBody.frameSize
  cases eapol.body with
  | start => exact spares_pure _
  | logoff => exact spares_pure _
  | eap message => exact spares_writeEap message _
  | rc4Key key => exact key.spares_write
  | rsnKey key => exact key.spares_write
  | other packetType => exact spares_pure _

end Eapol

namespace Wireless

theorem Management.spares_write {offset : Nat} (management : Management) (flags : Flags) :
    (management.write flags offset).Spares (offset + management.size flags) 0 := by
  have front : (management.header.toBytes flags ++ management.fields.toBytes).length =
      SequenceHeader.size flags + management.fields.toBytes.length := by
    rw [List.length_append, SequenceHeader.length_toBytes]
  apply spares_put_bind
  · rw [front, Management.size]
    omega
  · apply OptionList.spares_write
    rw [front, Management.size]
    omega

theorem Body.spares_write {offset : Nat} (body : Body) (flags : Flags) :
    (body.write flags offset).Spares (offset + body.size flags) 0 := by
  cases body with
  | management content => exact content.spares_write flags
  | control content => exact spares_put (Nat.le_refl _)
  | data content => exact spares_put (Nat.le_refl _)
  | other frameType subtype => exact spares_pure _

theorem Frame.spares_write (frame : Frame) : frame.write.Spares frame.headerSize 0 := by
  have fixed {size : Nat} (inside : size ≤ Header.size) : size ≤ frame.headerSize :=
    Nat.le_trans inside (Nat.le_add_right _ _)
  apply spares_reach_bind (Nat.le_refl _)
  iterate 6 apply spares_store_bind (fixed (by decide))
  exact frame.body.spares_write frame.flags

end Wireless

namespace RadioTap

theorem spares_write (tap : RadioTap) : tap.write.Spares tap.headerSize tap.trailerSize := by
  have label : 2 + (Bytes.ofNatLE 2 tap.headerSize).length ≤ tap.headerSize := by
    have minimum := tap.minimum_le
    rw [Bytes.length_ofNatLE, headerSize]
    omega
  apply spares_demand_bind
  apply spares_put_bind (by rw [Nat.zero_add]; exact Nat.le_refl _)
  apply spares_put_bind label
  split
  · rename_i checked
    have trailer : tap.trailerSize = fcsSize := if_pos checked
    rw [trailer]
    intro frame room small
    apply (sparesIn_reach room).bind
    intro _ after _ same
    have room : tap.headerSize + fcsSize ≤ after.length := by rwa [same]
    apply (spares_frame after room (by rwa [same])).bind
    intro found _ read _
    cases read
    apply sparesIn_put room
    · rw [Crc32.length_bytes]
      simp only [fcsSize] at room ⊢
      omega
    · exact .inr (Nat.le_refl _)
  · exact spares_pure _

end RadioTap

namespace Layer

def checkSize : Layer → Nat
  | .radioTap layer => layer.trailerSize
  | _ => 0

theorem checkSize_le_trailerSize (layer : Layer) (inner : Nat) :
    layer.checkSize ≤ layer.trailerSize inner := by
  cases layer with
  | radioTap layer => exact Nat.le_refl _
  | _ => exact Nat.zero_le _

theorem spares_write (layer : Layer) (inner : Option Kind)
    (addresses : Option (IpAddress × IpAddress)) :
    (layer.write inner addresses).Spares layer.headerSize layer.checkSize := by
  cases layer with
  | ethernet layer => exact layer.spares_write inner
  | dot11 layer => exact layer.spares_write
  | radioTap layer => exact layer.spares_write
  | snap layer => exact layer.spares_write inner
  | sll layer => exact layer.spares_write inner
  | loopback layer => exact layer.spares_write inner
  | arp layer => exact layer.spares_write
  | ipv4 layer => exact layer.spares_write inner
  | ipv6 layer => exact layer.spares_write inner
  | tcp layer => exact layer.spares_write addresses
  | udp layer => exact layer.spares_write addresses
  | icmp layer => exact layer.spares_write
  | dns layer => exact layer.spares_write
  | dhcp layer => exact layer.spares_write
  | eapol layer => exact layer.spares_write
  | raw layer => exact layer.spares_write

end Layer

end PacketStack
