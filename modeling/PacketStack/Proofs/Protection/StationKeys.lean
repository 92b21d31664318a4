import PacketStack.Proofs.Protection.Carried
import PacketStack.Protection.Wpa2

/-!
Which frames between an access point and a station are decrypted when the keys of both are known,
whatever else is known.

Main statements: `decrypted_iff_no_keys_in_the_way` gives the exact condition, and
`keys_of_another_station_in_the_way` an access point whose frame for one station is not decrypted
because of the keys of another one, the source of the frame.
-/

namespace PacketStack

namespace Wpa2Monitor

open Protection

variable {monitor : Wpa2Monitor} {packet inner chain : Packet} {frame : Wireless.Frame}
variable {fields : Wireless.Data} {accessPoint station : HwAddress} {keys : SessionKeys}
variable {payload data : Bytes}

theorem findSome?_candidates (body : frame.body = .data fields)
    (between : frame.Between accessPoint station fields)
    (known : monitor.keys.get? (.of accessPoint station) = some keys) :
    (candidates frame).findSome? (fun stations => monitor.keys.get? stations) =
      if frame.flags.contains .toDs then some keys
      else some ((monitor.keys.get? (.of accessPoint fields.header.addr3)).getD keys) := by
  have isData : frame.data? = some fields := by simp [Wireless.Frame.data?, body]
  cases between with
  | toAccessPoint up notDown receiver sender =>
      simp [candidates, isData, up, notDown, receiver, sender, known]
  | toStation notUp down receiver sender =>
      have reversed : monitor.keys.get? (.of station accessPoint) = some keys := by
        rw [StationPair.of_comm]
        exact known
      simp only [candidates, isData, notUp, down, receiver, sender]
      cases other : monitor.keys.get? (.of accessPoint fields.header.addr3) with
      | none => simp [other, reversed]
      | some others => simp [other]

@[simp] theorem keys_discover (monitor : Wpa2Monitor) (frame : Wireless.Frame) :
    (monitor.discover frame).1.keys = monitor.keys := by
  unfold discover addAccessPoint
  split
  · rfl
  · split
    · rfl
    · split
      · rename_i added
        split at added
        · cases added
          rfl
        · cases added
      · rfl

theorem process_decrypted? (carries : Carries packet inner frame fields payload) :
    (monitor.process packet).decrypted? =
      if (monitor.capture.process packet).1 then none else monitor.decrypt? packet := by
  have layer : packet.findLayer? .dot11 = some (.dot11 frame) := by
    simp [Packet.findLayer?, carries.found, Packet.layer]
  unfold process
  simp only [layer]
  split
  · rfl
  · simp only [decrypt?, keys_discover]

theorem decrypt?_of_decrypted (carries : Carries packet inner frame fields payload)
    (tried : (candidates frame).findSome? (fun stations => monitor.keys.get? stations) = some keys)
    (opened : (monitor.process packet).decrypted? ≠ none) :
    ∃ read, keys.decrypt? frame payload = some read := by
  rw [process_decrypted? carries, decrypt?, carries.ofPacket?] at opened
  simp only [Option.bind_eq_bind, Option.bind_some, tried] at opened
  cases accepted : keys.decrypt? frame payload with
  | none => simp [accepted] at opened
  | some read => exact ⟨read, rfl⟩

theorem bind_attach?_eq_some_iff (carries : Carries packet inner frame fields payload)
    {opened : Packet}
    (changed : (packet.modify? .dot11 fun node => .over (unprotect node.layer) chain) = some opened)
    (position : opened.find? .dot11 = some (.over (unprotect (.dot11 frame)) chain))
    (used : SessionKeys) :
    (used.decrypt? frame payload).bind (attach? packet) = some opened ↔
      ∃ read, used.decrypt? frame payload = some read ∧ Packet.parse .snap read = .ok chain := by
  rw [Option.bind_eq_some_iff]
  constructor
  · intro holds
    rcases holds with ⟨read, decrypts, attached⟩
    rcases Option.bind_eq_some_iff.mp attached with ⟨found, parsed, modified⟩
    rcases carries.exists_opened found with ⟨other, same, place⟩
    have equal : other = opened := Option.some.inj (same.symm.trans modified)
    rw [equal, position] at place
    have chain_eq : chain = found := by
      injection place with place
      injection place
    refine ⟨read, decrypts, ?_⟩
    rw [chain_eq]
    cases outcome : Packet.parse .snap read with
    | ok value =>
        rw [outcome] at parsed
        exact congrArg Except.ok (Option.some.inj parsed)
    | error failure =>
        rw [outcome] at parsed
        cases parsed
  · intro holds
    rcases holds with ⟨read, decrypts, parsed⟩
    exact ⟨read, decrypts, (attach?_of_parse parsed).trans changed⟩

/-- A frame to the access point is decrypted with the keys of its pair. One from the access point
is, unless there are keys for the pair of the access point and the source of the frame, which give
something else. -/
theorem decrypted_iff_no_keys_in_the_way
    (carries : Carries packet inner frame fields payload)
    (between : frame.Between accessPoint station fields)
    (known : monitor.keys.get? (.of accessPoint station) = some keys)
    (encapsulated : keys.Encapsulates frame fields data payload)
    (reads : Packet.parse .snap data = .ok chain) :
    ∃ opened,
      (packet.modify? .dot11 fun node => .over (unprotect node.layer) chain) = some opened ∧
      opened.find? .dot11 = some (.over (unprotect (.dot11 frame)) chain) ∧
      ((monitor.process packet).decrypted? = some opened ↔
        (monitor.capture.process packet).1 = false ∧
          (frame.flags.contains .toDs = true ∨
            ∀ others, monitor.keys.get? (.of accessPoint fields.header.addr3) = some others →
              ∃ read, others.decrypt? frame payload = some read ∧
                Packet.parse .snap read = .ok chain)) := by
  rcases carries.exists_opened chain with ⟨opened, changed, position⟩
  refine ⟨opened, changed, position, ?_⟩
  have own := encapsulated.decrypt? carries.body (ne_nil_of_parse_snap reads)
  rw [process_decrypted? carries, decrypt?, carries.ofPacket?]
  simp only [Option.bind_eq_bind, Option.bind_some, findSome?_candidates carries.body between known]
  cases completes : (monitor.capture.process packet).1 with
  | true => simp
  | false =>
      simp only [Bool.false_eq_true, if_false, true_and]
      cases up : frame.flags.contains .toDs with
      | true =>
          simp only [if_true, Option.bind_some, true_or, iff_true]
          exact (bind_attach?_eq_some_iff carries changed position keys).mpr ⟨data, own, reads⟩
      | false =>
          simp only [Bool.false_eq_true, if_false, Option.bind_some, false_or]
          rw [bind_attach?_eq_some_iff carries changed position]
          cases others : monitor.keys.get? (.of accessPoint fields.header.addr3) with
          | none =>
              simp only [Option.getD_none, reduceCtorEq, false_implies, implies_true, iff_true]
              exact ⟨data, own, reads⟩
          | some used => simp

/-- A frame from the access point 1 to the station 2, sent by the station 3. -/
def relayedFields : Wireless.Data := ⟨0, ⟨.ofNat 1, .ofNat 3, 0, 0, .zero⟩, 0⟩

def relayedFrame : Wireless.Frame :=
  ⟨0, Wireless.Flags.fromDs.union .protectedFrame, 0, .ofNat 2, .data relayedFields⟩

def relayedPacket (payload : Bytes) : Packet := .over (.dot11 relayedFrame) (.raw payload)

/-- The keys of the access point with the receiver and with the sender of the frame. -/
def receiverKeys : SessionKeys := ⟨.zero 80, .tkip⟩

def senderKeys : SessionKeys := ⟨.zero 80, .ccmp⟩

def quietMonitor : Wpa2Monitor := empty.addKeys (.of (.ofNat 1) (.ofNat 2)) receiverKeys

def crowdedMonitor : Wpa2Monitor := quietMonitor.addKeys (.of (.ofNat 1) (.ofNat 3)) senderKeys

/-- A subnetwork access header without content. -/
def relayedData : Bytes := [0xaa, 0xaa, 3, 0, 0, 0, 0x88, 0xb5]

/-- The frame as the access point protects it, with an integrity code of seven zeros and a byte. -/
def relayedPayload (last : UInt8) : Bytes :=
  Tkip.encapsulate receiverKeys.temporalKey relayedFields.header.addr2 ⟨0, 0⟩ 0
    (relayedData ++ [0, 0, 0, 0, 0, 0, 0, last])

theorem relayedPacket_carries (payload : Bytes) :
    Carries (relayedPacket payload) (.raw payload) relayedFrame relayedFields payload :=
  ⟨rfl, rfl, rfl, rfl⟩

theorem relayedFrame_between : relayedFrame.Between (.ofNat 1) (.ofNat 2) relayedFields :=
  .toStation rfl rfl rfl rfl

/-- The chain of the content. -/
def relayedChain : Packet := .single (.snap ⟨3, 0, ⟨0x88b5⟩⟩)

theorem parse_relayedData : Packet.parse .snap relayedData = .ok relayedChain := by
  rw [Packet.parse]
  rfl

theorem relayedPayload_encapsulates (last : UInt8) :
    receiverKeys.Encapsulates relayedFrame relayedFields relayedData (relayedPayload last) :=
  .tkip ⟨0, 0⟩ 0 ⟨[0, 0, 0, 0, 0, 0, 0, last], rfl⟩ rfl

theorem length_relayedPayload (last : UInt8) : (relayedPayload last).length = 28 := by
  simp [relayedPayload, Tkip.encapsulate, Crc32.attach, relayedData, Tkip.headerSize]

theorem take_relayedPayload (last : UInt8) :
    (relayedPayload last).take 20 =
      Tkip.header ⟨0, 0⟩ 0 ++ (Tkip.crypt receiverKeys.temporalKey relayedFields.header.addr2
        ⟨0, 0⟩ (Crc32.attach (relayedData ++ [0, 0, 0, 0, 0, 0, 0, last]))).take 12 := by
  have front : (Tkip.header ⟨0, 0⟩ 0).length = 8 := Tkip.length_header ⟨0, 0⟩ 0
  rw [relayedPayload, Tkip.encapsulate, List.take_append,
    List.take_of_length_le (by rw [front]; decide), front]

theorem take_relayedPayload_eq (left right : UInt8) :
    (relayedPayload left).take 20 = (relayedPayload right).take 20 := by
  have size (last : UInt8) :
      (Crc32.attach (relayedData ++ [0, 0, 0, 0, 0, 0, 0, last])).length = 20 := by
    simp [Crc32.attach, relayedData]
  have plain (last : UInt8) :
      (Crc32.attach (relayedData ++ [0, 0, 0, 0, 0, 0, 0, last])).take 12 =
        relayedData ++ [0, 0, 0, 0] := by
    simp [Crc32.attach, relayedData]
  rw [take_relayedPayload, take_relayedPayload, Tkip.take_crypt_congr _ _ _
    ((size left).trans (size right).symm) ((plain left).trans (plain right).symm)]

theorem relayedPayload_injective {left right : UInt8}
    (same : relayedPayload left = relayedPayload right) : left = right := by
  have encrypted := List.append_cancel_left same
  have decrypted := congrArg
    (Tkip.crypt receiverKeys.temporalKey relayedFields.header.addr2 ⟨0, 0⟩) encrypted
  rw [Tkip.crypt_crypt, Tkip.crypt_crypt] at decrypted
  have detached := congrArg Crc32.detach? decrypted
  rw [Crc32.detach?_attach, Crc32.detach?_attach, Option.some.injEq] at detached
  have codes := List.append_cancel_left detached
  simpa using codes

theorem eq_of_decrypted {left right : UInt8}
    (first : (crowdedMonitor.process (relayedPacket (relayedPayload left))).decrypted? ≠ none)
    (second : (crowdedMonitor.process (relayedPacket (relayedPayload right))).decrypted? ≠ none) :
    left = right := by
  have carries : relayedFrame.data? = some relayedFields := rfl
  have expected (last : UInt8)
      (opened : (crowdedMonitor.process (relayedPacket (relayedPayload last))).decrypted? ≠ none) :
      relayedPayload last = (relayedPayload last).take 20 ++
        Ccmp.expectedCode (Aes.ofKey senderKeys.temporalKey).encrypt relayedFrame relayedFields
          ((relayedPayload last).take 20) := by
    have tried : (candidates relayedFrame).findSome?
        (fun stations => crowdedMonitor.keys.get? stations) = some senderKeys := by decide
    rcases decrypt?_of_decrypted (relayedPacket_carries _) tried opened with ⟨read, accepted⟩
    have code := Ccmp.eq_of_decrypt?_eq_some carries accepted
    rwa [length_relayedPayload, show 28 - Ccmp.codeSize = 20 from rfl] at code
  apply relayedPayload_injective
  calc relayedPayload left
      _ = _ := expected left first
      _ = _ := by rw [take_relayedPayload_eq left right]
      _ = relayedPayload right := (expected right second).symm

/-- The frame is decrypted where there are no keys of the sender. -/
theorem decrypted_without_keys_of_another_station :
    ∃ opened,
      (quietMonitor.process (relayedPacket (relayedPayload 0))).decrypted? = some opened ∧
      opened.find? .dot11 = some (.over (unprotect (.dot11 relayedFrame)) relayedChain) := by
  have known : quietMonitor.keys.get? (.of (.ofNat 1) (.ofNat 2)) = some receiverKeys := by decide
  have others : quietMonitor.keys.get? (.of (.ofNat 1) (.ofNat 3)) = none := by decide
  obtain ⟨opened, _, position, condition⟩ := decrypted_iff_no_keys_in_the_way
    (relayedPacket_carries (relayedPayload 0)) relayedFrame_between known
    (relayedPayload_encapsulates 0) parse_relayedData
  refine ⟨opened, condition.mpr ⟨rfl, Or.inr fun used found => ?_⟩, position⟩
  rw [show relayedFields.header.addr3 = .ofNat 3 from rfl, others] at found
  cases found

/-- Not every frame is decrypted for which the keys are known. -/
theorem keys_of_another_station_in_the_way :
    ∃ payload,
      Carries (relayedPacket payload) (.raw payload) relayedFrame relayedFields payload ∧
      relayedFrame.Between (.ofNat 1) (.ofNat 2) relayedFields ∧
      crowdedMonitor.keys.get? (.of (.ofNat 1) (.ofNat 2)) = some receiverKeys ∧
      receiverKeys.Encapsulates relayedFrame relayedFields relayedData payload ∧
      Packet.parse .snap relayedData = .ok relayedChain ∧
      (crowdedMonitor.process (relayedPacket payload)).decrypted? = none := by
  have known : crowdedMonitor.keys.get? (.of (.ofNat 1) (.ofNat 2)) = some receiverKeys := by
    decide
  by_cases first : (crowdedMonitor.process (relayedPacket (relayedPayload 0))).decrypted? = none
  · exact ⟨_, relayedPacket_carries _, relayedFrame_between, known, relayedPayload_encapsulates 0,
      parse_relayedData, first⟩
  · by_cases second : (crowdedMonitor.process (relayedPacket (relayedPayload 1))).decrypted? = none
    · exact ⟨_, relayedPacket_carries _, relayedFrame_between, known,
        relayedPayload_encapsulates 1, parse_relayedData, second⟩
    · have equal := eq_of_decrypted first second
      contradiction

end Wpa2Monitor

end PacketStack
