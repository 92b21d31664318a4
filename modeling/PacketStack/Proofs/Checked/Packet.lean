import PacketStack.Checked.Packet
import PacketStack.Proofs.Checked.Headers
import PacketStack.Proofs.Checked.Wireless

/-!
Reading never meets a fault: no access to a buffer lies outside of it, no difference of lengths is
negative, and no layer is read from as many bytes as the one around it.

Main statement: `Packet.reading_answers` joins, for every kind of layer and every kind of link, the
checked reading with the plain one and says that it ends in a packet or in a refusal.
-/

namespace PacketStack

open Outcome (Safe)

theorem Layer.safe_decode (kind : Kind) (bytes : Bytes) :
    Safe (decodeChecked kind bytes) (decode kind bytes) := by
  cases kind with
  | ethernet => exact (Ethernet.safe_decode bytes).map _
  | dot11 => exact (Wireless.Frame.safe_decode bytes).map _
  | radioTap => exact (RadioTap.safe_decode bytes).map _
  | snap => exact (Snap.safe_decode bytes).map _
  | sll => exact (CookedCapture.safe_decode bytes).map _
  | loopback => exact (Loopback.safe_decode bytes).map _
  | arp => exact (Arp.safe_decode bytes).map _
  | ipv4 => exact (Ipv4.safe_decode bytes).map _
  | ipv6 => exact (Ipv6.safe_decode bytes).map _
  | tcp => exact (Tcp.safe_decode bytes).map _
  | udp => exact (Udp.safe_decode bytes).map _
  | icmp => exact (Icmp.safe_decode bytes).map _
  | dns => exact (Dns.safe_decode bytes).map _
  | dhcp => exact (Dhcp.safe_decode bytes).map _
  | eapol => exact (Eapol.safe_decode bytes).map _
  | raw => exact Safe.ok _

namespace Outcome

variable {α : Type}

theorem Faultless.asMalformed {failure : Failure}
    (sound : Faultless (.error failure : Outcome α)) :
    Faultless (.error failure.asMalformed : Outcome α) := by
  cases failure with
  | refused cause => cases cause <;> exact faultless_refused _
  | fault fault => exact absurd rfl (sound fault)

theorem Faultless.answers {outcome : Outcome α} (sound : outcome.Faultless) :
    (∃ value, outcome = .ok value) ∨ ∃ cause, outcome = .error (.refused cause) := by
  cases outcome with
  | ok value => exact .inl ⟨value, rfl⟩
  | error failure =>
      cases failure with
      | refused cause => exact .inr ⟨cause, rfl⟩
      | fault fault => exact absurd rfl (sound fault)

end Outcome

namespace Packet

theorem safe_parse (kind : Kind) (bytes : Bytes) :
    Safe (parseChecked kind bytes) (parse kind bytes) := by
  -- On the layers inside, each read from fewer bytes.
  fun_induction parse kind bytes with
  | case1 kind bytes failure read =>
      have layer := Layer.safe_decode kind bytes
      rw [parseChecked, layer.same, read]
      have sound := layer.faultless
      rw [read] at sound
      change Safe (.error failure.asMalformed) _
      exact Safe.refl sound.asMalformed.error
  | case2 kind bytes layer payload next read exceeds =>
      rw [parseChecked, (Layer.safe_decode kind bytes).same, read]
      simp only [if_pos exceeds]
      exact Safe.refl (Outcome.faultless_malformed _)
  | case3 kind bytes layer payload next read inside nothing =>
      rw [parseChecked, (Layer.safe_decode kind bytes).same, read]
      simp only [if_neg inside, if_pos nothing]
      exact Safe.ok _
  | case4 kind bytes layer payload inside more read =>
      rw [parseChecked, (Layer.safe_decode kind bytes).same, read]
      simp only [if_neg inside, if_neg more]
      exact Safe.ok _
  | case5 kind bytes layer payload inside more inner read _ ih =>
      have fewer : payload.length < bytes.length := Layer.decode_payload_lt read rfl
      rw [parseChecked, (Layer.safe_decode kind bytes).same, read]
      simp only [if_neg inside, if_neg more, if_pos fewer]
      exact ih.map _

theorem safe_ofLinkBytes (link : LinkType) (bytes : Bytes) :
    Safe (ofLinkBytesChecked link bytes) (ofLinkBytes link bytes) := by
  have readers : parseChecked = parse := by
    funext kind bytes
    exact (safe_parse kind bytes).same
  have same : ofLinkBytesChecked link bytes = ofLinkBytes link bytes := by
    unfold ofLinkBytesChecked
    rewrite [readers]
    rfl
  refine ⟨same, ?_⟩
  unfold ofLinkBytes
  simp only
  split
  · exact (safe_parse _ bytes).faultless
  · exact Outcome.faultless_ok _

/-- Reading a layer of any kind, and a frame of any kind of link, ends in a packet or in a refusal,
and it is the reading in which every access to a buffer and every difference is checked. -/
theorem reading_answers :
    (∀ kind bytes, parseChecked kind bytes = parse kind bytes ∧
      ((∃ packet, parseChecked kind bytes = .ok packet) ∨
        ∃ cause, parseChecked kind bytes = .error (.refused cause))) ∧
    ∀ link bytes, ofLinkBytesChecked link bytes = ofLinkBytes link bytes ∧
      ((∃ packet, ofLinkBytesChecked link bytes = .ok packet) ∨
        ∃ cause, ofLinkBytesChecked link bytes = .error (.refused cause)) := by
  constructor
  · intro kind bytes
    have safe := safe_parse kind bytes
    rw [safe.same]
    exact ⟨rfl, safe.faultless.answers⟩
  · intro link bytes
    have safe := safe_ofLinkBytes link bytes
    rw [safe.same]
    exact ⟨rfl, safe.faultless.answers⟩

end Packet

end PacketStack
