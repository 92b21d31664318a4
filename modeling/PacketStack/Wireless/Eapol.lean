import PacketStack.Frame

/-!
Frames of 802.1X authentication and the key descriptors they carry.
-/

namespace PacketStack

/-- The flags and numbers of a key descriptor. -/
structure KeyInformation where
  bits : UInt16
  deriving DecidableEq, Repr, Inhabited

namespace KeyInformation

def pairwise : KeyInformation := ⟨0x0008⟩

def install : KeyInformation := ⟨0x0040⟩

def acknowledge : KeyInformation := ⟨0x0080⟩

def mic : KeyInformation := ⟨0x0100⟩

def secure : KeyInformation := ⟨0x0200⟩

def contains (info wanted : KeyInformation) : Bool := info.bits &&& wanted.bits == wanted.bits

def descriptorVersion (info : KeyInformation) : UInt16 := info.bits &&& 0x0007

def keyIndex (info : KeyInformation) : UInt8 := ((info.bits >>> 4) &&& 0x03).toUInt8

def withDescriptorVersion (info : KeyInformation) (version : UInt16) : KeyInformation :=
  ⟨(info.bits &&& ~~~ (0x0007 : UInt16)) ||| (version &&& 0x0007)⟩

def names : List (String × Nat) :=
  [("PAIRWISE", 0x0008), ("INSTALL", 0x0040), ("KEY_ACK", 0x0080), ("KEY_MIC", 0x0100),
    ("SECURE", 0x0200), ("ERROR", 0x0400), ("REQUEST", 0x0800), ("ENCRYPTED", 0x1000)]

def text (info : KeyInformation) : String := Text.flags "KeyInformation" names info.bits.toNat

end KeyInformation

/-- The header of an authentication message, with a method only in requests and responses. -/
structure Eap where
  code : UInt8
  id : UInt8
  method : Option UInt8
  deriving DecidableEq, Repr, Inhabited

def Eap.size (eap : Eap) : Nat := 4 + if eap.method.isSome then 1 else 0

/-- The older descriptor of a key encrypted by RC4. -/
structure Rc4Key where
  keyLength : UInt16
  replayCounter : UInt64
  iv : Octets 16
  index : UInt8
  isUnicast : Bool
  signature : Octets 16
  key : Bytes
  deriving DecidableEq, Inhabited

/-- The descriptor of a key of a robust security network, or of the older draft of it. -/
structure RsnKey where
  descriptorType : UInt8
  info : KeyInformation
  keyLength : UInt16
  replayCounter : UInt64
  nonce : Octets 32
  iv : Octets 16
  sequenceCounter : Octets 8
  id : Octets 8
  mic : Octets 16
  keyData : Bytes
  deriving DecidableEq

inductive EapolBody where
  | start
  | logoff
  | eap (eap : Eap)
  | rc4Key (key : Rc4Key)
  | rsnKey (key : RsnKey)
  /-- A packet type or a key descriptor of which nothing more is read. -/
  | other (packetType : UInt8)
  deriving DecidableEq

structure Eapol where
  version : UInt8
  body : EapolBody
  deriving DecidableEq

namespace Eapol

namespace Header

def version : HeaderField := .byte "version" 0

def packetType : HeaderField := .byte "packet_type" 1

def length : HeaderField := .word16 "length" 2

def size : Nat := 4

def layout : HeaderLayout where
  part := .eapol
  minimum := size
  fields := [version, packetType, length]
  regions := [("packet", id), ("payload", List.drop size)]
  blocks := []
  describe bytes := Text.record "EapolPacket" [
    ("version", version.describe bytes),
    ("packet_type", packetType.describe bytes),
    ("length", length.describe bytes),
    ("payload", Text.quotedBytes (bytes.drop size))]

end Header

end Eapol

namespace RsnKey

namespace Header

def descriptorType : HeaderField := .byte "descriptor_type" 4

def info : HeaderField := .word16 "key_info" 5

def keyLength : HeaderField := .word16 "key_length" 7

def replayCounter : HeaderField := .word64 "replay_counter" 9

def nonce : HeaderField := .octets "nonce" 17 32

def iv : HeaderField := .octets "key_iv" 49 16

def sequenceCounter : HeaderField := .octets "rsc" 65 8

def id : HeaderField := .octets "id" 73 8

def mic : HeaderField := .octets "mic" 81 16

def keyDataLength : HeaderField := .word16 "key_data_length" 97

def size : Nat := 99

def layout : HeaderLayout where
  part := .rsnKey
  minimum := size
  fields := [descriptorType, info, keyLength, replayCounter, nonce, iv, sequenceCounter, id, mic,
    keyDataLength]
  regions := [("key_data", List.drop size)]
  blocks := []
  describe bytes := Text.record "RsnKeyPacket" [
    ("descriptor_type", descriptorType.describe bytes),
    ("key_info", (KeyInformation.mk (info.get bytes).toUInt16).text),
    ("key_length", keyLength.describe bytes),
    ("replay_counter", replayCounter.describe bytes),
    ("nonce", nonce.describe bytes),
    ("mic", mic.describe bytes),
    ("key_data_length", keyDataLength.describe bytes)]

end Header

def robustDescriptor : UInt8 := 2

def draftDescriptor : UInt8 := 254

instance : Inhabited RsnKey :=
  ⟨⟨robustDescriptor, ⟨0⟩, 0, 0, .zero 32, .zero 16, .zero 8, .zero 8, .zero 16, []⟩⟩

def write (key : RsnKey) : Write Unit := do
  Write.demand (key.keyData.length ≤ 0xffff) .eapolKeyDataTooLong
  Write.require .rsnKey Header.size
  Write.store Header.descriptorType key.descriptorType.toNat
  Write.store Header.info key.info.bits.toNat
  Write.store Header.keyLength key.keyLength.toNat
  Write.store Header.replayCounter key.replayCounter.toNat
  Write.store Header.nonce key.nonce.toNat
  Write.store Header.iv key.iv.toNat
  Write.store Header.sequenceCounter key.sequenceCounter.toNat
  Write.store Header.id key.id.toNat
  Write.store Header.mic key.mic.toNat
  Write.store Header.keyDataLength key.keyData.length
  Write.put Header.size key.keyData

def decode (bytes : Bytes) : Outcome RsnKey := do
  requireSize .rsnKey Header.size bytes
  let length := Header.keyDataLength.get bytes
  let available := bytes.length - Header.size
  .demand (length ≤ available) (.eapolKeyData length available)
  return {
    descriptorType := (Header.descriptorType.get bytes).toUInt8
    info := ⟨(Header.info.get bytes).toUInt16⟩
    keyLength := (Header.keyLength.get bytes).toUInt16
    replayCounter := (Header.replayCounter.get bytes).toUInt64
    nonce := .ofNat 32 (Header.nonce.get bytes)
    iv := .ofNat 16 (Header.iv.get bytes)
    sequenceCounter := .ofNat 8 (Header.sequenceCounter.get bytes)
    id := .ofNat 8 (Header.id.get bytes)
    mic := .ofNat 16 (Header.mic.get bytes)
    keyData := bytes.window Header.size length }

end RsnKey

namespace Rc4Key

namespace Header

def descriptorType : HeaderField := .byte "descriptor_type" 4

def keyLength : HeaderField := .word16 "key_length" 5

def replayCounter : HeaderField := .word64 "replay_counter" 7

def iv : HeaderField := .octets "key_iv" 15 16

def isUnicast : HeaderField where
  start := 248
  width := 1
  name := "key_flag"
  type := .byte
  getter := .byte 31 7 0x01
  setter := none

def index : HeaderField where
  start := 249
  width := 7
  name := "key_index"
  type := .byte
  getter := .byte 31 0 0x7f
  setter := none

def signature : HeaderField := .octets "key_sign" 32 16

def size : Nat := 48

end Header

def descriptor : UInt8 := 1

/-- The length of a key that is there counts, not the one set on the descriptor. -/
def write (key : Rc4Key) : Write Unit := do
  Write.store Header.descriptorType descriptor.toNat
  Write.store Header.keyLength (if key.key.isEmpty then key.keyLength.toNat else key.key.length)
  Write.store Header.replayCounter key.replayCounter.toNat
  Write.store Header.iv key.iv.toNat
  Write.store Header.isUnicast key.isUnicast.toNat
  Write.store Header.index key.index.toNat
  Write.store Header.signature key.signature.toNat
  Write.put Header.size key.key

/-- A key of which bytes are missing is not read at all. -/
def decode (bytes : Bytes) : Outcome Rc4Key := do
  requireSize .rc4Key Header.size bytes
  let length := Header.keyLength.get bytes
  return {
    keyLength := length.toUInt16
    replayCounter := (Header.replayCounter.get bytes).toUInt64
    iv := .ofNat 16 (Header.iv.get bytes)
    index := (Header.index.get bytes).toUInt8
    isUnicast := Header.isUnicast.get bytes = 1
    signature := .ofNat 16 (Header.signature.get bytes)
    key := (bytes.range? Header.size (Header.size + length)).getD [] }

end Rc4Key

namespace EapolBody

def packetType : EapolBody → UInt8
  | .eap _ => 0
  | .start => 1
  | .logoff => 2
  | .rc4Key _ | .rsnKey _ => 3
  | .other packetType => packetType

def frameSize : EapolBody → Nat
  | .start | .logoff | .other _ => Eapol.Header.size
  | .eap message => Eapol.Header.size + message.size
  | .rc4Key key => Rc4Key.Header.size + key.key.length
  | .rsnKey key => RsnKey.Header.size + key.keyData.length

end EapolBody

namespace Eapol

def new (body : EapolBody) : Eapol := ⟨1, body⟩

instance : Inhabited Eapol := ⟨new .start⟩

def rsnKey? (eapol : Eapol) : Option RsnKey :=
  match eapol.body with
  | .rsnKey key => some key
  | _ => none

def headerSize (eapol : Eapol) : Nat := eapol.body.frameSize

def writeEap (eap : Eap) (length : Nat) : Write Unit := do
  Write.put Header.size [eap.code]
  Write.put (Header.size + 1) [eap.id]
  Write.put (Header.size + 2) (Bytes.ofNatBE 2 length)
  if let some method := eap.method then
    Write.put (Header.size + 4) [method]

def write (eapol : Eapol) : Write Unit := do
  Write.reach Header.size
  let length := (← Write.frame).length - Header.size
  Write.demand (length ≤ 0xffff) .eapolFrameTooLong
  Write.store Header.version eapol.version.toNat
  Write.store Header.packetType eapol.body.packetType.toNat
  Write.store Header.length length
  match eapol.body with
  | .eap eap => writeEap eap length
  | .rc4Key key => key.write
  | .rsnKey key => key.write
  | .start | .logoff | .other _ => return

def decodeEap (bytes : Bytes) : Outcome Eap := do
  requireSize .eap (Header.size + 4) bytes
  let code := (Bytes.toNatBE (bytes.window Header.size 1)).toUInt8
  return {
    code := code
    id := (Bytes.toNatBE (bytes.window (Header.size + 1) 1)).toUInt8
    method := if code = 1 ∨ code = 2 then bytes[Header.size + 4]? else none }

def decodeKey (bytes : Bytes) : Outcome EapolBody :=
  match bytes[Header.size]? with
  | none => .malformed .eapolWithoutDescriptor
  | some descriptor =>
      if descriptor = RsnKey.robustDescriptor ∨ descriptor = RsnKey.draftDescriptor then
        EapolBody.rsnKey <$> RsnKey.decode bytes
      else if descriptor = Rc4Key.descriptor then EapolBody.rc4Key <$> Rc4Key.decode bytes
      else .ok (.other 3)

def decodeBody (packetType : UInt8) (frame : Bytes) : Outcome EapolBody :=
  match packetType.toNat with
  | 0 => EapolBody.eap <$> decodeEap frame
  | 1 => .ok .start
  | 2 => .ok .logoff
  | 3 => decodeKey frame
  | _ => .ok (.other packetType)

/-- Bytes after the declared length are left out. -/
def decode (bytes : Bytes) : Outcome (Decoded Eapol) := do
  requireSize .eapol Header.size bytes
  let frame := bytes.take (Header.length.get bytes + Header.size)
  let body ← decodeBody (Header.packetType.get bytes).toUInt8 frame
  let header := ⟨(Header.version.get bytes).toUInt8, body⟩
  return ⟨header, ← Bytes.rest frame body.frameSize, none⟩

theorem next_eq_none {bytes : Bytes} {decoded : Decoded Eapol}
    (read : decode bytes = .ok decoded) : decoded.next = none := by
  simp only [decode, Outcome.bind_eq_ok] at read
  obtain ⟨_, _, _, _, _, _, result⟩ := read
  injection result with result
  rw [← result]

end Eapol

end PacketStack
