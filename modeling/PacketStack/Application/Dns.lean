import PacketStack.Application.DnsName

/-!
Messages of the domain name system.
-/

namespace PacketStack

structure DnsFlags where
  bits : UInt16
  deriving DecidableEq, Repr, Inhabited

namespace DnsFlags

def response : DnsFlags := ⟨0x8000⟩

def recursionDesired : DnsFlags := ⟨0x0100⟩

def recursionAvailable : DnsFlags := ⟨0x0080⟩

def contains (flags wanted : DnsFlags) : Bool := flags.bits &&& wanted.bits == wanted.bits

def union (flags more : DnsFlags) : DnsFlags := ⟨flags.bits ||| more.bits⟩

def opcode (flags : DnsFlags) : UInt8 := ((flags.bits >>> 11) &&& 0x0f).toUInt8

def responseCode (flags : DnsFlags) : UInt8 := (flags.bits &&& 0x0f).toUInt8

def withResponseCode (flags : DnsFlags) (code : UInt8) : DnsFlags :=
  ⟨(flags.bits &&& ~~~ (0x0f : UInt16)) ||| (code.toUInt16 &&& (0x0f : UInt16))⟩

end DnsFlags

/-- The number of the type of a record. -/
structure RecordType where
  id : UInt16
  deriving DecidableEq, Repr, Inhabited

namespace RecordType

def a : RecordType := ⟨1⟩

def ns : RecordType := ⟨2⟩

def cname : RecordType := ⟨5⟩

def ptr : RecordType := ⟨12⟩

def mx : RecordType := ⟨15⟩

def txt : RecordType := ⟨16⟩

def aaaa : RecordType := ⟨28⟩

end RecordType

def dnsClassInternet : UInt16 := 1

/-- A question of a message. -/
structure DnsQuery where
  name : DnsName
  type : RecordType
  queryClass : UInt16
  deriving DecidableEq, Repr

inductive RecordData where
  | ipv4 (address : Ipv4Address)
  | ipv6 (address : Ipv6Address)
  | name (target : DnsName)
  | exchange (preference : UInt16) (host : DnsName)
  /-- The data of any other type as it stands in the message. -/
  | other (data : Bytes)
  deriving DecidableEq, Repr

/-- An entry of the sections after the questions. -/
structure DnsRecord where
  name : DnsName
  type : RecordType
  recordClass : UInt16
  ttl : UInt32
  data : RecordData
  deriving DecidableEq, Repr

structure Dns where
  id : UInt16
  flags : DnsFlags
  queries : List DnsQuery
  answers : List DnsRecord
  authority : List DnsRecord
  additional : List DnsRecord
  deriving DecidableEq, Repr, Inhabited

namespace DnsQuery

def new (name : DnsName) (type : RecordType) : DnsQuery := ⟨name, type, dnsClassInternet⟩

def size (query : DnsQuery) : Nat := query.name.size + 4

def encode (query : DnsQuery) : Outcome Bytes := do
  return (← query.name.encode) ++ Bytes.ofNatBE 2 query.type.id.toNat ++
    Bytes.ofNatBE 2 query.queryClass.toNat

end DnsQuery

namespace RecordData

def size : RecordData → Nat
  | .ipv4 _ => 4
  | .ipv6 _ => 16
  | .name target => target.size
  | .exchange _ host => 2 + host.size
  | .other data => data.length

def encode : RecordData → Outcome Bytes
  | .ipv4 address => .ok address.octets
  | .ipv6 address => .ok address.octets
  | .name target => target.encode
  | .exchange preference host => do
      return Bytes.ofNatBE 2 preference.toNat ++ (← host.encode)
  | .other data => .ok data

def usualType : RecordData → RecordType
  | .ipv4 _ => .a
  | .ipv6 _ => .aaaa
  | .name _ => .cname
  | .exchange _ _ => .mx
  | .other _ => .txt

end RecordData

namespace DnsRecord

def new (name : DnsName) (ttl : UInt32) (data : RecordData) : DnsRecord :=
  ⟨name, data.usualType, dnsClassInternet, ttl, data⟩

def size (record : DnsRecord) : Nat := record.name.size + 10 + record.data.size

def encode (record : DnsRecord) : Outcome Bytes := do
  let name ← record.name.encode
  .demand (record.data.size ≤ 0xffff) .dnsDataTooLong
  return name ++ Bytes.ofNatBE 2 record.type.id.toNat ++
    Bytes.ofNatBE 2 record.recordClass.toNat ++ Bytes.ofNatBE 4 record.ttl.toNat ++
    Bytes.ofNatBE 2 record.data.size ++ (← record.data.encode)

end DnsRecord

/-- Reading a message from an offset on. Names need the whole message. -/
abbrev DnsReader := ReaderT Bytes (StateT Nat Outcome)

namespace DnsReader

def refuse {α : Type} (cause : Malformation) : DnsReader α :=
  throw (.refused (.malformed cause))

def take (size : Nat) : DnsReader Bytes := do
  let message ← read
  let offset ← get
  match message.range? offset (offset + size) with
  | none => refuse (.dnsTruncated offset)
  | some bytes =>
      set (offset + size)
      return bytes

def number (size : Nat) : DnsReader Nat := return Bytes.toNatBE (← take size)

def nameAt (offset : Nat) : DnsReader (DnsName × Nat) := do
  let message ← read
  match DnsName.read message offset with
  | .ok result => return result
  | .error failure => throw failure

def name : DnsReader DnsName := do
  let (name, stop) ← nameAt (← get)
  set stop
  return name

def query : DnsReader DnsQuery := do
  let name ← name
  let type := (← number 2).toUInt16
  return ⟨name, ⟨type⟩, (← number 2).toUInt16⟩

/-- The data of a record of a type, whose bytes stand at an offset and have been passed. -/
def data (type : RecordType) (offset : Nat) (bytes : Bytes) : DnsReader RecordData := do
  if type = .a ∧ bytes.length = 4 then return .ipv4 (.ofNat (Bytes.toNatBE bytes))
  else if type = .aaaa ∧ bytes.length = 16 then return .ipv6 (.ofNat (Bytes.toNatBE bytes))
  else if type = .a ∨ type = .aaaa then refuse (.dnsRecord (← get))
  else if type = .ns ∨ type = .cname ∨ type = .ptr then return .name (← nameAt offset).1
  else if type = .mx ∧ 3 ≤ bytes.length then
    let (host, _) ← nameAt (offset + 2)
    return .exchange (Bytes.toNatBE (bytes.take 2)).toUInt16 host
  else return .other bytes

def record : DnsReader DnsRecord := do
  let name ← name
  let type : RecordType := ⟨(← number 2).toUInt16⟩
  let recordClass := (← number 2).toUInt16
  let ttl := (← number 4).toUInt32
  let length ← number 2
  let offset ← get
  let bytes ← take length
  return ⟨name, type, recordClass, ttl, ← data type offset bytes⟩

/-- The given number of items one after the other. -/
def many {α : Type} (item : DnsReader α) : Nat → DnsReader (List α)
  | 0 => return []
  | count + 1 => return (← item) :: (← many item count)

end DnsReader

namespace Dns

def fixedSize : Nat := 12

/-- A question for one name that asks to be passed on. -/
def query (id : UInt16) (name : DnsName) (type : RecordType) : Dns where
  id := id
  flags := .recursionDesired
  queries := [.new name type]
  answers := []
  authority := []
  additional := []

def isResponse (dns : Dns) : Bool := dns.flags.contains .response

def respond (dns : Dns) (answers : List DnsRecord) : Dns :=
  { dns with flags := (dns.flags.union .response).union .recursionAvailable, answers := answers }

def records (dns : Dns) : List DnsRecord := dns.answers ++ dns.authority ++ dns.additional

def size (dns : Dns) : Nat :=
  fixedSize + sizeSum DnsQuery.size dns.queries + sizeSum DnsRecord.size dns.records

def headerSize (dns : Dns) : Nat := dns.size.toUInt32.toNat

theorem headerSize_eq_mod (dns : Dns) : dns.headerSize = dns.size % 0x100000000 := UInt32.toNat_ofNat'

theorem headerSize_of_lt {dns : Dns} (small : dns.size < 0x100000000) : dns.headerSize = dns.size := by
  rw [headerSize_eq_mod, Nat.mod_eq_of_lt small]

theorem headerSize_le (dns : Dns) : dns.headerSize ≤ dns.size := by
  rw [headerSize_eq_mod]
  exact Nat.mod_le _ _

def countBytes (entries : DnsSection) (count : Nat) : Outcome Bytes :=
  if 0xffff < count then .malformed (.dnsEntries entries) else .ok (Bytes.ofNatBE 2 count)

/-- The message without compression of names. -/
def encode (dns : Dns) : Outcome Bytes := do
  let queries ← countBytes .queries dns.queries.length
  let answers ← countBytes .answers dns.answers.length
  let authority ← countBytes .authority dns.authority.length
  let additional ← countBytes .additional dns.additional.length
  let questions ← dns.queries.mapM DnsQuery.encode
  let records ← dns.records.mapM DnsRecord.encode
  return Bytes.ofNatBE 2 dns.id.toNat ++ Bytes.ofNatBE 2 dns.flags.bits.toNat ++ queries ++
    answers ++ authority ++ additional ++ questions.flatten ++ records.flatten

def write (dns : Dns) : Write Unit := do
  match dns.encode with
  | .error failure => throw failure
  | .ok bytes =>
      Write.require .dns bytes.length
      Write.put 0 bytes

def reader : DnsReader Dns := do
  let id := (← DnsReader.number 2).toUInt16
  let flags := (← DnsReader.number 2).toUInt16
  let queryCount ← DnsReader.number 2
  let answerCount ← DnsReader.number 2
  let authorityCount ← DnsReader.number 2
  let additionalCount ← DnsReader.number 2
  let queries ← DnsReader.many DnsReader.query queryCount
  let answers ← DnsReader.many DnsReader.record answerCount
  let authority ← DnsReader.many DnsReader.record authorityCount
  let additional ← DnsReader.many DnsReader.record additionalCount
  return ⟨id, ⟨flags⟩, queries, answers, authority, additional⟩

def decode (bytes : Bytes) : Outcome (Decoded Dns) := do
  requireSize .dns fixedSize bytes
  let (dns, offset) ← (reader.run bytes).run 0
  return ⟨dns, ← bytes.rest offset, none⟩

theorem decode_eq_ok {bytes : Bytes} {decoded : Decoded Dns} :
    decode bytes = .ok decoded ↔
      fixedSize ≤ bytes.length ∧ ∃ stop, stop ≤ bytes.length ∧
        reader bytes 0 = .ok (decoded.header, stop) ∧
          decoded = ⟨decoded.header, bytes.drop stop, none⟩ := by
  have run : (reader.run bytes).run 0 = reader bytes 0 := rfl
  simp only [decode, Outcome.bind_eq_ok, requireSize_eq_ok, Bytes.rest_eq_ok, run]
  constructor
  · intro holds
    rcases holds with ⟨_, large, ⟨dns, stop⟩, read, payload, ⟨inside, rfl⟩, result⟩
    cases result
    exact ⟨large, stop, inside, read, rfl⟩
  · intro holds
    rcases holds with ⟨large, stop, inside, read, same⟩
    exact ⟨(), large, ⟨decoded.header, stop⟩, read, bytes.drop stop, ⟨inside, rfl⟩,
      congrArg Except.ok same.symm⟩

theorem next_eq_none {bytes : Bytes} {decoded : Decoded Dns}
    (read : decode bytes = .ok decoded) : decoded.next = none := by
  rcases decode_eq_ok.mp read with ⟨_, _, _, _, same⟩
  rw [same]

end Dns

end PacketStack
