import PacketStack.Proofs.Packet.Places
import PacketStack.Proofs.Protection.Capturing
import PacketStack.Proofs.Protection.StationKeys
import PacketStack.Protection.InPlace

/-!
Decryption where the packet stands: a packet is opened as a whole or stays as it is.

`WepPasswords.decryptInPlace_run` and `Wpa2Monitor.Session.decryptInPlace_eq` say that the steps in
place come to what is computed without any change. Main statement: `decryptInPlace_opens_or_keeps`
says for both kinds of protection that a packet is the same after a decryption that fails, and that
one that succeeds changes the first wireless frame alone, for a plaintext whose check is right and
which can be read.
-/

namespace PacketStack

namespace Wireless.Flags

theorem without_union {flags mark : Flags} (marked : flags.contains mark = true) :
    (flags.without mark).union mark = flags := by
  have included : flags.bits &&& mark.bits = mark.bits := eq_of_beq marked
  have bit (i : Nat) : (flags.bits.toBitVec.getLsbD i && mark.bits.toBitVec.getLsbD i) =
      mark.bits.toBitVec.getLsbD i := by
    rw [← BitVec.getLsbD_and, ← UInt8.toBitVec_and, included]
  apply congrArg Flags.mk
  apply UInt8.toBitVec_inj.mp
  apply BitVec.eq_of_getLsbD_eq
  intro i inside
  have both := bit i
  simp only [without, UInt8.toBitVec_or, UInt8.toBitVec_and, UInt8.toBitVec_not,
    BitVec.getLsbD_or, BitVec.getLsbD_and, BitVec.getLsbD_not, inside, decide_true, Bool.true_and]
  revert both
  cases flags.bits.toBitVec.getLsbD i <;> cases mark.bits.toBitVec.getLsbD i <;> simp

theorem contains_without_protectedFrame (flags : Flags) :
    (flags.without protectedFrame).contains protectedFrame = false := by
  have cleared : flags.bits &&& ~~~ 0x40 &&& 0x40 = 0 := by
    rw [UInt8.and_assoc, show ~~~ (0x40 : UInt8) &&& 0x40 = 0 from rfl, UInt8.and_zero]
  simp only [contains, without, protectedFrame, cleared]
  rfl

end Wireless.Flags

namespace Packet

theorem changeFirst_eq (kind : Kind) (change : StateM Packet Unit) (packet : Packet) :
    packet.changeFirst kind change =
      ((packet.modify? kind fun node => (change.run node).2).isSome,
        (packet.modify? kind fun node => (change.run node).2).getD packet) := by
  -- On the layers before the first one of the kind.
  induction packet with
  | single layer =>
      rw [changeFirst, modify?]
      split <;> rfl
  | «over» layer inner ih =>
      rw [changeFirst, modify?, ih]
      split
      · rfl
      · cases inner.modify? kind fun node => (change.run node).2 <;> rfl

end Packet

namespace Protection

def Wep.vectorOf (payload : Bytes) : InitialVector :=
  ⟨payload.getD 0 0, payload.getD 1 0, payload.getD 2 0⟩

/-- A payload that comes to a plaintext and its CRC-32. -/
structure Wep.Verifies (password payload plaintext : Bytes) : Prop where
  long : 8 < payload.length
  check : crypt (vectorOf payload) password (payload.drop headerSize) =
    plaintext ++ Crc32.bytes plaintext

theorem Wep.decrypt?_eq_some_iff {password payload plaintext : Bytes} :
    decrypt? password payload = some plaintext ↔ Verifies password payload plaintext := by
  constructor
  · intro accepted
    unfold decrypt? at accepted
    split at accepted
    · split at accepted
      · cases accepted
      · rename_i long
        exact ⟨by simp only [List.length_cons]; omega, Crc32.detach?_eq_some_iff.mp accepted⟩
    · cases accepted
  · rintro ⟨long, check⟩
    rcases payload with _ | ⟨first, _ | ⟨second, _ | ⟨third, _ | ⟨keyIndex, body⟩⟩⟩⟩
    case cons.cons.cons.cons =>
      have enough : ¬ body.length ≤ 4 := by simp only [List.length_cons] at long; omega
      rw [decrypt?, if_neg enough]
      exact Crc32.detach?_eq_some_iff.mpr check
    all_goals simp at long

/-- A payload that comes to a plaintext, an integrity code and the CRC-32 of both. -/
structure Tkip.Verifies (key : Octets 16) (sender : HwAddress) (payload plaintext : Bytes) :
    Prop where
  long : headerSize + michaelSize + 4 < payload.length
  check : ∃ michael : Bytes, michael.length = michaelSize ∧
    crypt key sender (counterOf (payload.take headerSize)) (payload.drop headerSize) =
      plaintext ++ michael ++ Crc32.bytes (plaintext ++ michael)

theorem Tkip.decrypt?_eq_some_iff {key : Octets 16} {sender : HwAddress}
    {payload plaintext : Bytes} :
    decrypt? key sender payload = some plaintext ↔ Verifies key sender payload plaintext := by
  constructor
  · intro accepted
    unfold decrypt? at accepted
    split at accepted
    · cases accepted
    · rename_i long
      simp only [Option.bind_eq_bind, Option.bind_eq_some_iff, Option.pure_def, Option.some.injEq,
        Crc32.detach?_eq_some_iff] at accepted
      rcases accepted with ⟨data, check, rfl⟩
      have size := congrArg List.length check
      simp only [length_crypt, List.length_drop, Crc32.attach, List.length_append,
        Crc32.length_bytes] at size
      refine ⟨by omega, data.drop (data.length - michaelSize), ?_, ?_⟩
      · rw [List.length_drop]
        simp only [headerSize, michaelSize] at long size ⊢
        omega
      · rw [List.take_append_drop, check, Crc32.attach]
  · rintro ⟨long, michael, size, check⟩
    have front : (plaintext ++ michael).length - michaelSize = plaintext.length := by
      rw [List.length_append, size, Nat.add_sub_cancel]
    rw [decrypt?, if_neg (Nat.not_le.mpr long), check, ← Crc32.attach, Crc32.detach?_attach,
      Option.bind_eq_bind, Option.bind_some, front, List.take_left' rfl]
    rfl

/-- A payload of a header, encrypted data and a message code, which decrypts to the code of the
decrypted data. -/
def Ccmp.Verifies (cipher : BlockCipher) (frame : Wireless.Frame) (fields : Wireless.Data)
    (payload plaintext : Bytes) : Prop :=
  ∃ header encrypted encryptedCode : Bytes,
    header.length = headerSize ∧ encryptedCode.length = codeSize ∧
      payload = header ++ encrypted ++ encryptedCode ∧
      crypt cipher (.of frame fields (numberOf header)) encrypted = plaintext ∧
      Bytes.xor encryptedCode
        (keystreamBlock cipher (.of frame fields (numberOf header)) 0).bytes =
          code cipher (.of frame fields (numberOf header)) plaintext

theorem Ccmp.xor_eq_code_iff {cipher : BlockCipher} {context : Context} {data received : Bytes}
    (size : received.length = codeSize) :
    Bytes.xor received (keystreamBlock cipher context 0).bytes = code cipher context data ↔
      encryptedCode cipher context data = received := by
  have wide : codeSize ≤ (keystreamBlock cipher context 0).bytes.length := by
    rw [Octets.length_eq]
    decide
  have whole : (code cipher context data).length = codeSize := by
    simp [code, codeSize, Octets.length_eq]
  constructor
  · intro same
    rw [encryptedCode, ← same]
    exact Bytes.xor_xor _ _ (size ▸ wide)
  · intro same
    rw [← same, encryptedCode]
    exact Bytes.xor_xor _ _ (whole ▸ wide)

theorem Ccmp.decrypt?_eq_some_iff {cipher : BlockCipher} {frame : Wireless.Frame}
    {fields : Wireless.Data} {payload plaintext : Bytes} (carries : frame.data? = some fields) :
    decrypt? cipher frame payload = some plaintext ↔
      Verifies cipher frame fields payload plaintext := by
  constructor
  · intro accepted
    unfold decrypt? at accepted
    split at accepted
    · cases accepted
    · rename_i long
      simp only [carries, Option.bind_eq_bind, Option.bind_some, Option.ite_none_right_eq_some,
        Option.some.injEq] at accepted
      rcases accepted with ⟨check, decrypts⟩
      have size := length_encryptedCode cipher
        (.of frame fields (numberOf (payload.take headerSize))) plaintext
      rw [decrypts] at check
      rw [check] at size
      refine ⟨payload.take headerSize, _, _, ?_, size, ?_, decrypts, ?_⟩
      · rw [List.length_take]
        omega
      · rw [List.append_assoc, List.take_append_drop, List.take_append_drop]
      · exact (xor_eq_code_iff size).mpr check
  · rintro ⟨header, encrypted, received, front, back, rfl, decrypts, check⟩
    have long : ¬ (header ++ encrypted ++ received).length < headerSize + codeSize := by
      simp only [List.length_append, front, back]
      omega
    have body : (header ++ encrypted ++ received).drop headerSize = encrypted ++ received := by
      rw [List.append_assoc, List.drop_left' front]
    have start : (header ++ encrypted ++ received).take headerSize = header := by
      rw [List.append_assoc, List.take_left' front]
    have split : (encrypted ++ received).length - codeSize = encrypted.length := by
      rw [List.length_append, back, Nat.add_sub_cancel]
    rw [decrypt?, if_neg long]
    simp only [carries, Option.bind_eq_bind, Option.bind_some, body, start, split,
      List.take_left', List.drop_left', decrypts, (xor_eq_code_iff back).mp check, if_true]

end Protection

/-- A payload whose check is right under keys, by the cipher of these. -/
def SessionKeys.Verifies (keys : SessionKeys) (frame : Wireless.Frame) (fields : Wireless.Data)
    (payload plaintext : Bytes) : Prop :=
  match keys.cipher with
  | .ccmp => Protection.Ccmp.Verifies (Aes.ofKey keys.temporalKey).encrypt frame fields payload
      plaintext
  | .tkip => Protection.Tkip.Verifies keys.temporalKey fields.header.addr2 payload plaintext

theorem SessionKeys.decrypt?_eq_some_iff {keys : SessionKeys} {frame : Wireless.Frame}
    {fields : Wireless.Data} {payload plaintext : Bytes} (body : frame.body = .data fields) :
    keys.decrypt? frame payload = some plaintext ↔
      keys.Verifies frame fields payload plaintext := by
  have isData : frame.data? = some fields := by simp [Wireless.Frame.data?, body]
  have sender : frame.addr2? = some fields.header.addr2 := by
    simp [Wireless.Frame.addr2?, Wireless.Frame.sequenceHeader?, body]
  unfold SessionKeys.decrypt? SessionKeys.Verifies
  cases keys.cipher with
  | ccmp => exact Protection.Ccmp.decrypt?_eq_some_iff isData
  | tkip =>
      simp only [sender, Option.bind_eq_bind, Option.bind_some]
      exact Protection.Tkip.decrypt?_eq_some_iff

namespace Protection

/-- The data protected in the first wireless frame of a packet, and a plaintext that can be read. -/
structure Opening (packet : Packet) where
  frame : Wireless.Frame
  fields : Wireless.Data
  payload : Bytes
  inside : Packet
  plaintext : Bytes
  chain : Packet
  carries : Carries packet inside frame fields payload
  reads : Packet.parse .snap plaintext = .ok chain

namespace Opening

variable {packet : Packet}

def Yields (opening : Opening packet) (after : Packet) : Prop :=
  ∃ (front : List Layer) (cleared : Wireless.Frame),
    (∀ layer ∈ front, layer.kind ≠ .dot11) ∧
    opening.frame = { cleared with flags := cleared.flags.union .protectedFrame } ∧
    cleared.isProtected = false ∧
    packet.toList = front ++ .dot11 opening.frame :: opening.inside.toList ∧
    after.toList = front ++ .dot11 cleared :: opening.chain.toList

theorem exists_attached (opening : Opening packet) :
    ∃ after, attach? packet opening.plaintext = some after ∧ opening.Yields after := by
  rcases Packet.exists_front_of_find? opening.carries.found with ⟨front, others, place, changes⟩
  rcases changes fun node => .over (unprotect node.layer) opening.chain with ⟨after, result, list⟩
  refine ⟨after, ?_, front, _, others, ?_, ?_, place, list⟩
  · rw [attach?_of_parse opening.reads, result]
  · rw [Wireless.Flags.without_union opening.carries.isProtected]
  · exact Wireless.Flags.contains_without_protectedFrame _

end Opening

theorem Carries.of_ofPacket? {packet : Packet} {found : ProtectedFrame}
    (carried : ProtectedFrame.ofPacket? packet = some found) :
    ∃ inside fields, Carries packet inside found.frame fields found.payload := by
  unfold ProtectedFrame.ofPacket? at carried
  split at carried
  · rename_i frame inside search
    split at carried
    · rename_i raw content
      split at carried
      · rename_i accepted
        cases carried
        rw [Bool.and_eq_true] at accepted
        cases body : frame.body with
        | data fields => exact ⟨inside, fields, search, content, body, accepted.1⟩
        | management _ => simp [Wireless.Frame.data?, body] at accepted
        | control _ => simp [Wireless.Frame.data?, body] at accepted
        | other _ _ => simp [Wireless.Frame.data?, body] at accepted
      · cases carried
    · cases carried
  · cases carried

theorem exists_opening {packet after : Packet} {found : ProtectedFrame} {plaintext : Bytes}
    (carried : ProtectedFrame.ofPacket? packet = some found)
    (attached : attach? packet plaintext = some after) :
    ∃ opening : Opening packet, opening.frame = found.frame ∧ opening.payload = found.payload ∧
      opening.plaintext = plaintext := by
  rcases Carries.of_ofPacket? carried with ⟨inside, fields, carries⟩
  simp only [attach?, Option.bind_eq_bind, Option.bind_eq_some_iff,
    Outcome.value?_eq_some_iff] at attached
  rcases attached with ⟨chain, reads, _⟩
  exact ⟨⟨found.frame, fields, found.payload, inside, plaintext, chain, carries, reads⟩,
    rfl, rfl, rfl⟩

def settled (packet : Packet) (opened? : Option Packet) : Bool × Packet :=
  (opened?.isSome, opened?.getD packet)

theorem attachInPlace_run (plaintext : Bytes) (packet : Packet) :
    (attachInPlace plaintext).run packet = settled packet (attach? packet plaintext) := by
  unfold attachInPlace attach?
  cases Packet.parse .snap plaintext with
  | error failure => rfl
  | ok chain => exact Packet.changeFirst_eq .dot11 _ packet

/-- A decryption that leaves a packet as it is, or opens it where that is allowed. -/
structure AllOrNothing (packet : Packet) (allowed : Opening packet → Prop)
    (result : Bool × Packet) : Prop where
  keeps : result.1 = false → result.2 = packet
  opens : result.1 = true → ∃ opening, allowed opening ∧ opening.Yields result.2
  opens_iff : result.1 = true ↔ ∃ opening, allowed opening

theorem allOrNothing_settled {packet : Packet} {allowed : Opening packet → Prop}
    {opened? : Option Packet}
    (sound : ∀ after, opened? = some after →
      ∃ opening, allowed opening ∧ attach? packet opening.plaintext = some after)
    (complete : ∀ opening, allowed opening → opened? = attach? packet opening.plaintext) :
    AllOrNothing packet allowed (settled packet opened?) := by
  cases result : opened? with
  | none =>
      have closed : ¬ ∃ opening, allowed opening := by
        rintro ⟨opening, allows⟩
        rcases opening.exists_attached with ⟨after, attached, _⟩
        have none_eq := complete opening allows
        rw [result, attached] at none_eq
        cases none_eq
      exact ⟨fun _ => rfl, nofun, iff_of_false nofun closed⟩
  | some after =>
      rcases sound after result with ⟨opening, allows, attached⟩
      rcases opening.exists_attached with ⟨other, same, yields⟩
      have equal : other = after := Option.some.inj (same.symm.trans attached)
      rw [equal] at yields
      exact ⟨nofun, fun _ => ⟨opening, allows, yields⟩, iff_of_true rfl ⟨opening, allows⟩⟩

end Protection

namespace WepPasswords

open Protection

/-- The password of the network of a frame accepts its payload. -/
def Allows (keys : WepPasswords) {packet : Packet} (opening : Opening packet) : Prop :=
  ∃ bssid password, opening.frame.bssid? = some bssid ∧
    keys.passwords.get? bssid = some password ∧
    Wep.Verifies password opening.payload opening.plaintext

theorem decryptInPlace_run (keys : WepPasswords) (packet : Packet) :
    keys.decryptInPlace.run packet = settled packet (keys.decrypt? packet) := by
  simp only [decryptInPlace, decrypt?, StateT.run_bind, StateT.run_get, pure_bind]
  cases ProtectedFrame.ofPacket? packet with
  | none => rfl
  | some found =>
      simp only [Option.bind_eq_bind, Option.bind_some, ← Option.bind_assoc]
      cases found.frame.bssid?.bind fun bssid => keys.passwords.get? bssid with
      | none => rfl
      | some password =>
          simp only [Option.bind_some]
          cases Wep.decrypt? password found.payload with
          | none => rfl
          | some plaintext => exact attachInPlace_run plaintext packet

theorem allOrNothing (keys : WepPasswords) (packet : Packet) :
    AllOrNothing packet keys.Allows (keys.decryptInPlace.run packet) := by
  rw [decryptInPlace_run]
  apply allOrNothing_settled
  · intro after opened
    simp only [decrypt?, Option.bind_eq_bind, Option.bind_eq_some_iff] at opened
    rcases opened with ⟨found, carried, bssid, network, password, known, plaintext, accepted,
      attached⟩
    rcases exists_opening carried attached with ⟨opening, frame, payload, rfl⟩
    refine ⟨opening, ⟨bssid, password, ?_, known, ?_⟩, attached⟩
    · rw [frame, network]
    · rw [payload]
      exact Wep.decrypt?_eq_some_iff.mp accepted
  · intro opening allows
    rcases allows with ⟨bssid, password, network, known, verifies⟩
    simp only [decrypt?, opening.carries.ofPacket?, network, known, Option.bind_eq_bind,
      Option.bind_some, Wep.decrypt?_eq_some_iff.mpr verifies]

end WepPasswords

namespace Wpa2Monitor

open Protection

/-- The packet does not complete a handshake, and the keys for its frame accept the payload. -/
def Allows (monitor : Wpa2Monitor) {packet : Packet} (opening : Opening packet) : Prop :=
  (monitor.capture.process packet).1 = false ∧
    ∃ keys, (candidates opening.frame).findSome? (fun stations => monitor.keys.get? stations) =
      some keys ∧
    keys.Verifies opening.frame opening.fields opening.payload opening.plaintext

theorem openInPlace_run (monitor : Wpa2Monitor) (packet : Packet) :
    monitor.openInPlace.run packet = settled packet (monitor.decrypt? packet) := by
  simp only [openInPlace, decrypt?, StateT.run_bind, StateT.run_get, pure_bind]
  cases ProtectedFrame.ofPacket? packet with
  | none => rfl
  | some found =>
      simp only [Option.bind_eq_bind, Option.bind_some]
      cases (candidates found.frame).findSome? fun stations => monitor.keys.get? stations with
      | none => rfl
      | some keys =>
          simp only [Option.bind_some]
          cases keys.decrypt? found.frame found.payload with
          | none => rfl
          | some plaintext => exact attachInPlace_run plaintext packet

theorem exists_frame_of_completes {capture : Handshake.Capture} {packet : Packet}
    (completes : (capture.process packet).1 = true) :
    ∃ frame, packet.findLayer? .dot11 = some (.dot11 frame) := by
  unfold Handshake.Capture.process at completes
  split at completes
  · cases completes
  · rename_i message carried
    rcases (Handshake.Message.ofPacket?_eq_some_iff.mp carried).stations with
      ⟨frame, _, _, found, _⟩
    exact ⟨frame, found⟩

theorem decrypt?_eq_none {monitor : Wpa2Monitor} {packet : Packet}
    (useless : ∀ frame, packet.findLayer? .dot11 = some (.dot11 frame) →
      frame.management?.isSome = true) : monitor.decrypt? packet = none := by
  have uncarried : ProtectedFrame.ofPacket? packet = none := by
    cases carried : ProtectedFrame.ofPacket? packet with
    | none => rfl
    | some found =>
        rcases Carries.of_ofPacket? carried with ⟨inside, fields, carries⟩
        have layer : packet.findLayer? .dot11 = some (.dot11 found.frame) := by
          rw [Packet.findLayer?, carries.found]
          rfl
        have management := useless found.frame layer
        simp [Wireless.Frame.management?, carries.body] at management
  simp [decrypt?, uncarried]

theorem Session.openPacket_eq (session : Session) :
    session.openPacket =
      let opened := session.monitor.decrypt? session.packet
      (opened.isSome, { session with packet := opened.getD session.packet }) := by
  rw [openPacket, openInPlace_run]
  rfl

theorem decrypt?_discover (monitor : Wpa2Monitor) (frame : Wireless.Frame) (packet : Packet) :
    (monitor.discover frame).1.decrypt? packet = monitor.decrypt? packet := by
  simp only [decrypt?, keys_discover]

theorem discover_eq_self {monitor : Wpa2Monitor} {frame : Wireless.Frame}
    (other : frame.management? = none) : monitor.discover frame = (monitor, []) := by
  simp [discover, announcement?, other]

theorem process_of_missing {monitor : Wpa2Monitor} {packet : Packet}
    (missing : ∀ frame, packet.findLayer? .dot11 ≠ some (.dot11 frame)) :
    monitor.process packet =
      ⟨{ monitor with capture := (monitor.capture.process packet).2 }, [], none⟩ := by
  simp only [process]

theorem Session.decryptInPlace_eq (session : Session) :
    session.decryptInPlace =
      ((session.monitor.process session.packet).decrypted?.isSome,
        ⟨(session.monitor.process session.packet).monitor,
          session.events ++ (session.monitor.process session.packet).events,
          (session.monitor.process session.packet).decrypted?.getD session.packet⟩) := by
  rcases session with ⟨monitor, events, packet⟩
  by_cases there : ∃ frame, packet.findLayer? .dot11 = some (.dot11 frame)
  · rcases there with ⟨frame, found⟩
    simp only [decryptInPlace, process, found]
    cases step : monitor.capture.process packet with
    | mk completes capture =>
        cases completes with
        | true =>
            simp only [if_true]
            rfl
        | false =>
            simp only [Bool.false_eq_true, if_false, openPacket_eq, decrypt?_discover]
            cases announced : frame.management? with
            | none => simp [discover_eq_self announced]
            | some management =>
                have useless : ({ monitor with capture } : Wpa2Monitor).decrypt? packet = none := by
                  apply decrypt?_eq_none
                  intro other same
                  rw [found] at same
                  cases same
                  rw [announced]
                  rfl
                simp [useless, learn]
  · have missing (frame : Wireless.Frame) : packet.findLayer? .dot11 ≠ some (.dot11 frame) :=
      fun found => there ⟨frame, found⟩
    have useless (capture : Handshake.Capture) :
        ({ monitor with capture } : Wpa2Monitor).decrypt? packet = none :=
      decrypt?_eq_none fun frame found => absurd found (missing frame)
    rw [process_of_missing missing]
    simp only [decryptInPlace]
    split
    · rename_i completes
      exact absurd (exists_frame_of_completes completes) there
    · simp [openPacket_eq, useless]

theorem decrypted?_eq (monitor : Wpa2Monitor) (packet : Packet) :
    (monitor.process packet).decrypted? =
      if (monitor.capture.process packet).1 then none else monitor.decrypt? packet := by
  simp only [process]
  split
  · split
    · rfl
    · simp only [decrypt?_discover]
      rfl
  · rename_i missing
    have useless : monitor.decrypt? packet = none := by
      apply decrypt?_eq_none
      intro frame found
      exact absurd found (missing frame)
    simp [useless]

theorem allOrNothing (session : Session) :
    AllOrNothing session.packet session.monitor.Allows
      (session.decryptInPlace.1, session.decryptInPlace.2.packet) := by
  rcases session with ⟨monitor, events, packet⟩
  rw [Session.decryptInPlace_eq]
  apply allOrNothing_settled
  · intro after opened
    rw [decrypted?_eq, Option.ite_none_left_eq_some] at opened
    rcases opened with ⟨incomplete, opened⟩
    simp only [decrypt?, Option.bind_eq_bind, Option.bind_eq_some_iff] at opened
    rcases opened with ⟨found, carried, keys, known, plaintext, accepted, attached⟩
    rcases exists_opening carried attached with ⟨opening, frame, payload, rfl⟩
    rw [← frame] at known
    rw [← frame, ← payload, SessionKeys.decrypt?_eq_some_iff opening.carries.body] at accepted
    exact ⟨opening, ⟨Bool.eq_false_iff.mpr incomplete, keys, known, accepted⟩, attached⟩
  · intro opening allows
    rcases allows with ⟨incomplete, keys, known, verifies⟩
    have accepted := (SessionKeys.decrypt?_eq_some_iff opening.carries.body).mpr verifies
    simp only [decrypted?_eq, incomplete, Bool.false_eq_true, if_false, decrypt?,
      opening.carries.ofPacket?, known, accepted, Option.bind_eq_bind, Option.bind_some]

end Wpa2Monitor

/-- A packet is opened as a whole, by a plaintext whose check is right, or it stays as it is. -/
theorem Protection.decryptInPlace_opens_or_keeps :
    (∀ (keys : WepPasswords) (packet : Packet),
      AllOrNothing packet keys.Allows (keys.decryptInPlace.run packet)) ∧
    (∀ session : Wpa2Monitor.Session,
      AllOrNothing session.packet session.monitor.Allows
        (session.decryptInPlace.1, session.decryptInPlace.2.packet)) :=
  ⟨WepPasswords.allOrNothing, Wpa2Monitor.allOrNothing⟩

end PacketStack
