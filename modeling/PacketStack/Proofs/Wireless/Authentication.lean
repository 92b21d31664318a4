import PacketStack.Proofs.Packet.Reinterpreting

/-!
Frames of 802.1X authentication around any payload, read again in front of any padding.

What an optional part of a body is has to be inferred when it is read, so `EapolBody.Sound` names
the bodies of which no part is mistaken for what follows. Main statement:
`Eapol.decode_serialize_padded`.
-/

namespace PacketStack

/-- The most bytes that a frame takes, whose length is a number of 16 bits. -/
def Eapol.maximumFrame : Nat := 0xffff + Header.size

/-- A body that ends in the same place whatever follows it. A request or a response has a method and
no other message has one, and a key is as long as its descriptor says. -/
def EapolBody.Sound : EapolBody → Prop
  | .start | .logoff => True
  | .other packetType => 3 < packetType
  | .eap message => message.method.isSome = true ↔ message.code = 1 ∨ message.code = 2
  | .rc4Key key => key.keyLength.toNat = key.key.length ∧ key.index < 128
  | .rsnKey key =>
      key.descriptorType = RsnKey.robustDescriptor ∨ key.descriptorType = RsnKey.draftDescriptor

namespace EapolBody

variable {body : EapolBody}

theorem sound_eap_iff {message : Eap} :
    (eap message).Sound ↔ message.Complete ∧ ∀ rest, message.Accepts rest := by
  have absent : message.method = none ↔ ¬ message.method.isSome = true := by
    rw [Option.not_isSome_iff_eq_none]
  simp only [Sound, Eap.Complete, Eap.Accepts, absent]
  constructor
  · intro sound
    exact ⟨sound.mp, fun rest missing kind => absurd (sound.mpr kind) missing⟩
  · rintro ⟨complete, accepts⟩
    refine ⟨complete, fun kind => ?_⟩
    by_contra missing
    cases accepts [0] missing kind

theorem sound_rc4Key_iff {key : Rc4Key} :
    (rc4Key key).Sound ↔ key.Complete ∧ ∀ rest, key.Accepts rest := by
  constructor
  · rintro ⟨length, index⟩
    refine ⟨⟨fun _ => length, UInt8.lt_iff_toNat_lt.mp index⟩, fun rest missing => .inl ?_⟩
    rw [length, missing, List.length_nil]
  · rintro ⟨complete, accepts⟩
    refine ⟨?_, UInt8.lt_iff_toNat_lt.mpr complete.index⟩
    by_cases missing : key.key = []
    · rcases accepts (List.replicate key.keyLength.toNat 0) missing with none | short
      · rw [none, missing, List.length_nil]
      · rw [List.length_replicate] at short
        exact absurd short (Nat.lt_irrefl _)
    · exact complete.length missing

theorem sound_other_iff {packetType : UInt8} :
    (other packetType).Sound ↔
      (other packetType).Complete ∧ ∀ rest, (other packetType).Accepts rest := by
  simp only [Sound, Complete, Accepts, UInt8.lt_iff_toNat_lt, UInt8.reduceToNat]
  constructor
  · intro undecoded
    exact ⟨by omega, fun rest key => by omega⟩
  · rintro ⟨least, accepts⟩
    by_contra known
    rcases accepts [] (by omega) with ⟨_, _, empty, _⟩
    cases empty

theorem sound_iff (small : body.frameSize ≤ Eapol.maximumFrame) :
    body.Sound ↔ body.Complete ∧ ∀ rest, body.Accepts rest := by
  cases body with
  | start | logoff => exact iff_of_true trivial ⟨trivial, fun _ => trivial⟩
  | eap message => exact sound_eap_iff
  | rc4Key key => exact sound_rc4Key_iff
  | other packetType => exact sound_other_iff
  | rsnKey key =>
      have short : key.keyData.length ≤ 0xffff := by
        simp only [frameSize, RsnKey.Header.size, Eapol.maximumFrame, Eapol.Header.size] at small
        omega
      constructor
      · intro known
        exact ⟨⟨known, short⟩, fun _ => trivial⟩
      · rintro ⟨complete, _⟩
        exact complete.known

end EapolBody

namespace Eapol

variable {eapol : Eapol} {payload : Bytes}

theorem serialize_over_raw_eq_ok (complete : eapol.body.Complete) {bytes : Bytes} :
    (Packet.over (.eapol eapol) (.raw payload)).serialize = .ok bytes ↔
      eapol.headerSize + payload.length ≤ maximumFrame ∧ bytes = eapol.written payload := by
  have regular : (Layer.eapol eapol).Regular (some .raw) := complete
  rw [Packet.serialize, Packet.serializeWithin_over]
  constructor
  · rintro ⟨body, inner, framed⟩
    cases Packet.eq_of_serializeWithin_raw inner
    exact ((Layer.frame_eq_ok regular).mp framed).imp_left And.right
  · rintro ⟨limit, rfl⟩
    have small : eapol.headerSize + payload.length < 2 ^ 32 :=
      Nat.lt_of_le_of_lt limit (by decide)
    exact ⟨payload, Packet.serializeWithin_raw _ (Nat.lt_of_le_of_lt (Nat.le_add_left _ _) small),
      (Layer.frame_eq_ok regular).mpr ⟨⟨small, limit⟩, rfl⟩⟩

/-- A sound frame takes the room that is planned for it, and it is read again with its payload,
whatever bytes a link has put behind it. -/
theorem decode_serialize_padded (sound : eapol.body.Sound)
    (small : eapol.headerSize + payload.length ≤ maximumFrame) :
    ∃ bytes, (Packet.over (.eapol eapol) (.raw payload)).serialize = .ok bytes ∧
      bytes.length = eapol.headerSize + payload.length ∧
      ∀ padding, decode (bytes ++ padding) = .ok ⟨eapol, payload, none⟩ ∧
        Packet.parse .eapol (bytes ++ padding) = .ok (Packet.carrying (.eapol eapol) payload) := by
  have alone : eapol.body.frameSize ≤ maximumFrame := Nat.le_trans (Nat.le_add_right _ _) small
  rcases (EapolBody.sound_iff alone).mp sound with ⟨complete, accepts⟩
  have length := eapol.length_written payload
  refine ⟨eapol.written payload, (serialize_over_raw_eq_ok complete).mpr ⟨small, rfl⟩, length,
    fun padding => ?_⟩
  have read := decode_written complete (accepts payload) small padding
  have layer : Layer.decode .eapol (eapol.written payload ++ padding) =
      .ok ⟨.eapol eapol, payload, none⟩ := by
    rw [Layer.decode, read]
    rfl
  have inside : (Layer.eapol eapol).headerSize ≤ (eapol.written payload ++ padding).length := by
    rw [List.length_append, length, Layer.headerSize]
    omega
  exact ⟨read, Packet.parse_of_last layer (.inr rfl) inside⟩

/-- The older descriptor with a key of five bytes. -/
def groupKey : Eapol where
  version := 2
  body := .rc4Key {
    keyLength := 5
    replayCounter := 0x0102030405060708
    iv := .ofNat 16 0xf0
    index := 127
    isUnicast := true
    signature := .ofNat 16 0xff
    key := [1, 2, 3, 4, 5] }

theorem groupKey_read : groupKey.body.Sound ∧ groupKey.headerSize + 2 ≤ maximumFrame ∧
    ∃ bytes, (Packet.over (.eapol groupKey) (.raw [6, 7])).serialize = .ok bytes ∧
      bytes.length = 55 ∧ decode (bytes ++ [0, 0, 0]) = .ok ⟨groupKey, [6, 7], none⟩ := by
  have sound : groupKey.body.Sound := ⟨rfl, by decide⟩
  have small : groupKey.headerSize + ([6, 7] : Bytes).length ≤ maximumFrame := by decide
  rcases decode_serialize_padded sound small with ⟨bytes, written, length, read⟩
  exact ⟨sound, small, bytes, written, length, (read [0, 0, 0]).1⟩

end Eapol

end PacketStack
