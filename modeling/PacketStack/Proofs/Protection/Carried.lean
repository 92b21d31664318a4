import PacketStack.Proofs.Packet.Places
import PacketStack.Proofs.Protection.Ccmp
import PacketStack.Proofs.Protection.Tkip
import PacketStack.Protection.ProtectedFrame
import PacketStack.Protection.SessionKeys

/-!
Frames of one pair of stations in packets, their protected forms under keys and the packets in
which they are opened.
-/

namespace PacketStack

namespace Wireless.Frame

/-- A data frame from a station to its access point or back, over one part of a network. -/
inductive Between (accessPoint station : HwAddress) (frame : Frame) (data : Data) : Prop where
  | toAccessPoint (up : frame.flags.contains .toDs = true)
      (notDown : frame.flags.contains .fromDs = false) (receiver : frame.addr1 = accessPoint)
      (sender : data.header.addr2 = station)
  | toStation (notUp : frame.flags.contains .toDs = false)
      (down : frame.flags.contains .fromDs = true) (receiver : frame.addr1 = station)
      (sender : data.header.addr2 = accessPoint)

end Wireless.Frame

/-- The protected forms of data in a frame under the keys of two stations. -/
inductive SessionKeys.Encapsulates (keys : SessionKeys) (frame : Wireless.Frame)
    (fields : Wireless.Data) (data : Bytes) : Bytes → Prop where
  | ccmp (number : BitVec 48) (keyId : UInt8) (cipher : keys.cipher = .ccmp) :
      Encapsulates keys frame fields data (Protection.Ccmp.encapsulate
        (Aes.ofKey keys.temporalKey).encrypt frame fields number keyId data)
  | tkip (counter : Protection.Tkip.Counter) (keyId : UInt8) (michael : Octets 8)
      (cipher : keys.cipher = .tkip) :
      Encapsulates keys frame fields data (Protection.Tkip.encapsulate keys.temporalKey
        fields.header.addr2 counter keyId (data ++ michael.bytes))

theorem SessionKeys.Encapsulates.decrypt? {keys : SessionKeys} {frame : Wireless.Frame}
    {fields : Wireless.Data} {data payload : Bytes}
    (encapsulated : keys.Encapsulates frame fields data payload)
    (body : frame.body = .data fields) (nonempty : data ≠ []) :
    keys.decrypt? frame payload = some data := by
  cases encapsulated with
  | ccmp number keyId cipher =>
      have carries : frame.data? = some fields := by simp [Wireless.Frame.data?, body]
      simp only [SessionKeys.decrypt?, cipher]
      exact Protection.Ccmp.decrypt?_encapsulate carries number keyId data
  | tkip counter keyId michael cipher =>
      have sender : frame.addr2? = some fields.header.addr2 := by
        simp [Wireless.Frame.addr2?, Wireless.Frame.sequenceHeader?, body]
      simp only [SessionKeys.decrypt?, cipher, sender, Option.bind_eq_bind, Option.bind_some]
      exact Protection.Tkip.decrypt?_encapsulate _ _ counter keyId data michael.bytes nonempty
        michael.length_eq

namespace Packet

theorem modify?_of_find? {kind : Kind} {packet found : Packet} (change : Packet → Packet)
    (search : packet.find? kind = some found) (kept : (change found).kind = kind) :
    ∃ changed, packet.modify? kind change = some changed ∧
      changed.find? kind = some (change found) := by
  rcases exists_front_of_find? search with ⟨front, others, _, changes⟩
  rcases changes change with ⟨changed, result, list⟩
  exact ⟨changed, result, find?_of_front list others kept⟩

end Packet

/-- A packet whose first wireless frame is protected data around bytes. -/
structure Protection.Carries (packet inner : Packet) (frame : Wireless.Frame)
    (fields : Wireless.Data) (payload : Bytes) : Prop where
  found : packet.find? .dot11 = some (.over (.dot11 frame) inner)
  content : inner.layer = .raw ⟨payload⟩
  body : frame.body = .data fields
  isProtected : frame.isProtected = true

namespace Protection

variable {packet inner chain : Packet} {frame : Wireless.Frame} {fields : Wireless.Data}
variable {payload data : Bytes}

theorem Carries.ofPacket? (carries : Carries packet inner frame fields payload) :
    ProtectedFrame.ofPacket? packet = some ⟨frame, payload⟩ := by
  have isData : frame.data?.isSome = true := by simp [Wireless.Frame.data?, carries.body]
  simp [ProtectedFrame.ofPacket?, carries.found, carries.content, carries.isProtected, isData]

theorem ne_nil_of_parse_snap (reads : Packet.parse .snap data = .ok chain) : data ≠ [] := by
  rintro rfl
  rw [Packet.parse] at reads
  split at reads
  · cases reads
  · rename_i read
    cases read

theorem attach?_of_parse (reads : Packet.parse .snap data = .ok chain) :
    attach? packet data =
      packet.modify? .dot11 fun node => .over (unprotect node.layer) chain := by
  simp [attach?, reads, Outcome.value?]

theorem Carries.exists_opened (carries : Carries packet inner frame fields payload)
    (chain : Packet) :
    ∃ opened,
      (packet.modify? .dot11 fun node => .over (unprotect node.layer) chain) = some opened ∧
      opened.find? .dot11 =
        some (.over (unprotect (.dot11 frame)) chain) :=
  Packet.modify?_of_find? _ carries.found rfl

end Protection

end PacketStack
