import PacketStack.Wireless.Sequence
import PacketStack.Options

/-!
The bodies of 802.11 management frames: fields fixed by the subtype, then tagged options.
-/

namespace PacketStack.Wireless

structure BeaconFields where
  timestamp : UInt64
  interval : UInt16
  capabilities : UInt16
  deriving DecidableEq, Repr, Inhabited

structure AssociationAnswer where
  capabilities : UInt16
  status : UInt16
  associationId : UInt16
  deriving DecidableEq, Repr, Inhabited

inductive ManagementFields where
  | associationRequest (capabilities listenInterval : UInt16)
  | associationResponse (answer : AssociationAnswer)
  | reassociationRequest (capabilities listenInterval : UInt16) (currentAp : HwAddress)
  | reassociationResponse (answer : AssociationAnswer)
  | probeRequest
  | probeResponse (fields : BeaconFields)
  | beacon (fields : BeaconFields)
  | atim
  | disassociation (reason : UInt16)
  | authentication (algorithm sequence status : UInt16)
  | deauthentication (reason : UInt16)
  /-- A subtype whose body is opaque. -/
  | other (subtype : UInt8)
  deriving DecidableEq, Repr

namespace ManagementFields

def newBeacon (capabilities : UInt16) : ManagementFields := .beacon ⟨0, 100, capabilities⟩

def subtype : ManagementFields → UInt8
  | .associationRequest .. => 0
  | .associationResponse _ => 1
  | .reassociationRequest .. => 2
  | .reassociationResponse _ => 3
  | .probeRequest => 4
  | .probeResponse _ => 5
  | .beacon _ => 8
  | .atim => 9
  | .disassociation _ => 10
  | .authentication .. => 11
  | .deauthentication _ => 12
  | .other subtype => subtype

def hasOptions : ManagementFields → Bool
  | .other _ => false
  | _ => true

def words (values : List UInt16) : Bytes := values.flatMap fun value => Bytes.ofNatLE 2 value.toNat

def toBytes : ManagementFields → Bytes
  | .beacon fields | .probeResponse fields =>
      Bytes.ofNatLE 8 fields.timestamp.toNat ++ words [fields.interval, fields.capabilities]
  | .associationRequest capabilities listenInterval => words [capabilities, listenInterval]
  | .associationResponse answer | .reassociationResponse answer =>
      words [answer.capabilities, answer.status, answer.associationId]
  | .reassociationRequest capabilities listenInterval currentAp =>
      words [capabilities, listenInterval] ++ currentAp.octets
  | .disassociation reason | .deauthentication reason => words [reason]
  | .authentication algorithm sequence status => words [algorithm, sequence, status]
  | .probeRequest | .atim | .other _ => []

def take (size : Nat) : Reader Bytes := Reader.take (.shortBuffer .managementFixed size) size

def word16 : Reader UInt16 := return (Bytes.toNatLE (← take 2)).toUInt16

def readBeacon : Reader BeaconFields := do
  let timestamp := (Bytes.toNatLE (← take 8)).toUInt64
  return ⟨timestamp, ← word16, ← word16⟩

def readAnswer : Reader AssociationAnswer := return ⟨← word16, ← word16, ← word16⟩

def read (subtype : UInt8) : Reader ManagementFields :=
  match subtype.toNat with
  | 0 => return .associationRequest (← word16) (← word16)
  | 1 => return .associationResponse (← readAnswer)
  | 2 => return .reassociationRequest (← word16) (← word16) (.ofNat (Bytes.toNatBE (← take 6)))
  | 3 => return .reassociationResponse (← readAnswer)
  | 4 => return .probeRequest
  | 5 => return .probeResponse (← readBeacon)
  | 8 => return .beacon (← readBeacon)
  | 9 => return .atim
  | 10 => return .disassociation (← word16)
  | 11 => return .authentication (← word16) (← word16) (← word16)
  | 12 => return .deauthentication (← word16)
  | _ => return .other subtype

end ManagementFields

structure Management where
  header : SequenceHeader
  fields : ManagementFields
  options : OptionList
  deriving DecidableEq, Repr

namespace Management

def size (management : Management) (flags : Flags) : Nat :=
  SequenceHeader.size flags + management.fields.toBytes.length +
    management.options.wireSize .dot11

def write (management : Management) (flags : Flags) (offset : Nat) : Write Unit := do
  let front := management.header.toBytes flags ++ management.fields.toBytes
  Write.put offset front
  management.options.write .dot11 (offset + front.length)

def parse (subtype : UInt8) (flags : Flags) (bytes : Bytes) : Outcome (Management × Nat) := do
  let header ← SequenceHeader.parse flags bytes
  let (fields, rest) ← (ManagementFields.read subtype).run (bytes.drop (SequenceHeader.size flags))
  if fields.hasOptions then
    return (⟨header, fields, OptionList.parse .dot11 rest⟩, bytes.length)
  else
    return (⟨header, fields, []⟩, bytes.length - rest.length)

end Management

end PacketStack.Wireless
