import PacketStack.Application.Dhcp
import PacketStack.Application.Dns
import PacketStack.Checked.Access
import PacketStack.Wireless.Eapol

/-!
Checked readings of tagged options and of the messages of applications and of authentication.
-/

namespace PacketStack

/-- Reads options, each value up to the last byte that its length counts. -/
def OptionList.parseChecked (format : OptionFormat) : Bytes → Outcome OptionList
  | [] => .ok []
  | tag :: rest =>
      if !format.hasLength tag then
        if format.isEnd tag then .ok [⟨tag, []⟩]
        else return ⟨tag, []⟩ :: (← parseChecked format rest)
      else match rest with
        | [] => .ok []
        | length :: values =>
            if values.length < length.toNat then .ok []
            else do
              let value ← Bytes.range values 0 length.toNat
              let _ ← Bytes.rest values length.toNat
              return ⟨tag, value⟩ :: (← parseChecked format (values.drop length.toNat))
termination_by bytes => bytes.length
decreasing_by
  all_goals simp only [List.length_drop, List.length_cons]
  all_goals omega

def Dhcp.decodeChecked (bytes : Bytes) : Outcome (Decoded Dhcp) := do
  requireSize .bootp Header.size bytes
  let magic ← Header.magic.fetch bytes
  .demand (magic = cookie) (.dhcpCookie magic.toUInt32)
  let header := {
    opcode := (← Header.opcode.fetch bytes).toUInt8
    hardwareType := (← Header.hardwareType.fetch bytes).toUInt8
    hardwareLength := (← Header.hardwareLength.fetch bytes).toUInt8
    hops := (← Header.hops.fetch bytes).toUInt8
    transaction := (← Header.transaction.fetch bytes).toUInt32
    seconds := (← Header.seconds.fetch bytes).toUInt16
    flags := (← Header.flags.fetch bytes).toUInt16
    clientAddress := .ofNat (← Header.clientAddress.fetch bytes)
    yourAddress := .ofNat (← Header.yourAddress.fetch bytes)
    serverAddress := .ofNat (← Header.serverAddress.fetch bytes)
    gatewayAddress := .ofNat (← Header.gatewayAddress.fetch bytes)
    clientHardware := .ofNat 16 (← Header.clientHardware.fetch bytes)
    serverName := .ofNat 64 (← Header.serverName.fetch bytes)
    file := .ofNat 128 (← Header.file.fetch bytes)
    options := ← OptionList.parseChecked .dhcp (← bytes.rest Header.size) }
  return ⟨header, [], none⟩

namespace DnsReader

def lift {α : Type} (outcome : Outcome α) : DnsReader α := fun _ offset =>
  outcome.map fun value => (value, offset)

def word (index : Nat) : DnsReader Nat := do lift ((← read).big index 2)

def numberChecked (size : Nat) : DnsReader Nat := do
  let bytes ← take size
  lift (bytes.big 0 size)

def queryChecked : DnsReader DnsQuery := do
  let name ← name
  let type := (← numberChecked 2).toUInt16
  return ⟨name, ⟨type⟩, (← numberChecked 2).toUInt16⟩

/-- The data of a record of a type, whose bytes stand at an offset and have been passed. -/
def dataChecked (type : RecordType) (offset : Nat) (bytes : Bytes) : DnsReader RecordData := do
  if type = .a ∧ bytes.length = 4 then return .ipv4 (.ofNat (← lift (bytes.big 0 4)))
  else if type = .aaaa ∧ bytes.length = 16 then
    return .ipv6 (.ofNat (Bytes.toNatBE (← lift (bytes.exactly 16))))
  else if type = .a ∨ type = .aaaa then refuse (.dnsRecord (← get))
  else if type = .ns ∨ type = .cname ∨ type = .ptr then return .name (← nameAt offset).1
  else if type = .mx ∧ 3 ≤ bytes.length then
    let preference ← lift (bytes.big 0 2)
    let (host, _) ← nameAt (offset + 2)
    return .exchange preference.toUInt16 host
  else return .other bytes

def recordChecked : DnsReader DnsRecord := do
  let name ← name
  let type : RecordType := ⟨(← numberChecked 2).toUInt16⟩
  let recordClass := (← numberChecked 2).toUInt16
  let ttl := (← numberChecked 4).toUInt32
  let length ← numberChecked 2
  let offset ← get
  let bytes ← take length
  return ⟨name, type, recordClass, ttl, ← dataChecked type offset bytes⟩

end DnsReader

namespace Dns

def readerChecked : DnsReader Dns := do
  let queries ← DnsReader.many DnsReader.queryChecked (← DnsReader.word 4)
  let answers ← DnsReader.many DnsReader.recordChecked (← DnsReader.word 6)
  let authority ← DnsReader.many DnsReader.recordChecked (← DnsReader.word 8)
  let additional ← DnsReader.many DnsReader.recordChecked (← DnsReader.word 10)
  let id := (← DnsReader.word 0).toUInt16
  let flags := (← DnsReader.word 2).toUInt16
  return ⟨id, ⟨flags⟩, queries, answers, authority, additional⟩

def decodeChecked (bytes : Bytes) : Outcome (Decoded Dns) := do
  requireSize .dns fixedSize bytes
  let (dns, offset) ← (readerChecked.run bytes).run fixedSize
  return ⟨dns, ← bytes.rest offset, none⟩

end Dns

def RsnKey.decodeChecked (bytes : Bytes) : Outcome RsnKey := do
  requireSize .rsnKey Header.size bytes
  let length ← Header.keyDataLength.fetch bytes
  let behind ← bytes.rest Header.size
  match Bytes.range? behind 0 length with
  | none => .malformed (.eapolKeyData length behind.length)
  | some keyData =>
      return {
        descriptorType := (← Header.descriptorType.fetch bytes).toUInt8
        info := ⟨(← Header.info.fetch bytes).toUInt16⟩
        keyLength := (← Header.keyLength.fetch bytes).toUInt16
        replayCounter := (← Header.replayCounter.fetch bytes).toUInt64
        nonce := .ofNat 32 (← Header.nonce.fetch bytes)
        iv := .ofNat 16 (← Header.iv.fetch bytes)
        sequenceCounter := .ofNat 8 (← Header.sequenceCounter.fetch bytes)
        id := .ofNat 8 (← Header.id.fetch bytes)
        mic := .ofNat 16 (← Header.mic.fetch bytes)
        keyData := keyData }

def Rc4Key.decodeChecked (bytes : Bytes) : Outcome Rc4Key := do
  requireSize .rc4Key Header.size bytes
  let length ← Header.keyLength.fetch bytes
  let behind ← bytes.rest Header.size
  return {
    keyLength := length.toUInt16
    replayCounter := (← Header.replayCounter.fetch bytes).toUInt64
    iv := .ofNat 16 (← Header.iv.fetch bytes)
    index := (← Header.index.fetch bytes).toUInt8
    isUnicast := (← Header.isUnicast.fetch bytes) = 1
    signature := .ofNat 16 (← Header.signature.fetch bytes)
    key := (Bytes.range? behind 0 length).getD [] }

namespace Eapol

def decodeEapChecked (bytes : Bytes) : Outcome Eap := do
  let eap ← bytes.require .eap Header.size (Header.size + 4)
  let code ← eap.byteAt 0
  return {
    code := code
    id := ← eap.byteAt 1
    method := if code = 1 ∨ code = 2 then bytes[Header.size + 4]? else none }

def decodeKeyChecked (bytes : Bytes) : Outcome EapolBody :=
  match bytes[Header.size]? with
  | none => .malformed .eapolWithoutDescriptor
  | some descriptor =>
      if descriptor = RsnKey.robustDescriptor ∨ descriptor = RsnKey.draftDescriptor then
        EapolBody.rsnKey <$> RsnKey.decodeChecked bytes
      else if descriptor = Rc4Key.descriptor then EapolBody.rc4Key <$> Rc4Key.decodeChecked bytes
      else .ok (.other 3)

def decodeBodyChecked (packetType : UInt8) (frame : Bytes) : Outcome EapolBody :=
  match packetType.toNat with
  | 0 => EapolBody.eap <$> decodeEapChecked frame
  | 1 => .ok .start
  | 2 => .ok .logoff
  | 3 => decodeKeyChecked frame
  | _ => .ok (.other packetType)

def decodeChecked (bytes : Bytes) : Outcome (Decoded Eapol) := do
  requireSize .eapol Header.size bytes
  let stop := min ((← Header.length.fetch bytes) + Header.size) bytes.length
  let frame ← bytes.range 0 stop
  let packetType ← Header.packetType.fetch bytes
  let body ← decodeBodyChecked packetType.toUInt8 frame
  let header := ⟨(← Header.version.fetch bytes).toUInt8, body⟩
  return ⟨header, ← frame.rest body.frameSize, none⟩

end Eapol

end PacketStack
