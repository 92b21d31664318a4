import PacketStack.Proofs.Application.DnsReading
import PacketStack.Proofs.Application.Hostnames

/-!
Messages of the domain name system that are read and written again.

Reading counts the labels of a name, writing counts the zero at its end as well, so a name may be
read that is too long to be written. Main statement: `Dns.rewritten_iff` says that this is all that
keeps a message about hosts from being written, as long as its size fits 32 bits, and that what is
written is read as the same message.
-/

namespace PacketStack

namespace DnsReader

variable {α β : Type} {property : α → Prop}

def Finds (reader : DnsReader α) (property : α → Prop) : Prop :=
  ∀ message offset value stop, reader message offset = .ok (value, stop) → property value

theorem finds_pure {value : α} (holds : property value) : Finds (pure value) property := by
  intro message offset found stop read
  cases read
  exact holds

theorem finds_refuse (cause : Malformation) : Finds (refuse cause) property :=
  fun _ _ _ _ => nofun

theorem finds_any (reader : DnsReader α) : reader.Finds fun _ => True := fun _ _ _ _ _ => trivial

theorem Finds.bind {reader : DnsReader α} {next : α → DnsReader β} {other : β → Prop}
    (first : reader.Finds property) (others : ∀ value, property value → (next value).Finds other) :
    (reader >>= next).Finds other := by
  intro message offset result stop read
  rw [run_bind, Outcome.bind_eq_ok] at read
  rcases read with ⟨⟨value, place⟩, found, read⟩
  exact others value (first message offset value place found) message place result stop read

theorem finds_take (size : Nat) : (take size).Finds fun bytes => bytes.length = size := by
  intro message offset bytes stop read
  rw [take_eq] at read
  split at read
  · cases read
  · rename_i part cut
    cases read
    rw [Bytes.length_of_range? cut, Nat.add_sub_cancel_left]

theorem finds_number (size : Nat) : (number size).Finds fun value =>
    value < Bytes.valueCount size := by
  refine (finds_take size).bind fun bytes length => ?_
  rw [← length]
  exact finds_pure (Bytes.toNatBE_lt bytes)

theorem finds_nameAt (place : Nat) : (nameAt place).Finds fun found => found.1.Readable := by
  intro message offset found stop read
  rw [nameAt_eq] at read
  cases known : DnsName.read message place with
  | error failure =>
      rw [known] at read
      cases read
  | ok result =>
      rw [known] at read
      cases read
      exact DnsName.readable_of_read known

theorem finds_name : name.Finds DnsName.Readable := by
  intro message offset found stop read
  rw [name_eq] at read
  exact DnsName.readable_of_read read

theorem finds_query : query.Finds fun question => question.name.Readable := by
  refine finds_name.bind fun name readable => ?_
  refine (finds_any _).bind fun type _ => ?_
  refine (finds_any _).bind fun queryClass _ => ?_
  exact finds_pure readable

theorem finds_many {item : DnsReader α} (each : item.Finds property) (count : Nat) :
    (many item count).Finds
      fun items => items.length = count ∧ ∀ value ∈ items, property value := by
  induction count with
  | zero => exact finds_pure ⟨rfl, fun _ absent => absurd absent List.not_mem_nil⟩
  | succ count ih =>
      refine each.bind fun first holds => ?_
      refine ih.bind fun items known => ?_
      exact finds_pure ⟨congrArg Nat.succ known.1, List.forall_mem_cons.mpr ⟨holds, known.2⟩⟩

end DnsReader

/-- A record as it is read. -/
structure DnsRecord.Found (entry : DnsRecord) : Prop where
  names : ∀ name ∈ entry.names, name.Readable
  suited : entry.data.Suits entry.type
  short : ∀ bytes, entry.data = .other bytes → bytes.length ≤ 0xffff

namespace DnsReader

theorem finds_data (type : RecordType) (offset : Nat) {bytes : Bytes}
    (short : bytes.length ≤ 0xffff) : (data type offset bytes).Finds fun value =>
      (∀ name ∈ value.names, name.Readable) ∧ value.Suits type ∧
        ∀ other, value = .other other → other.length ≤ 0xffff := by
  have none (value : RecordData) (bare : value.names = []) :
      ∀ name ∈ value.names, name.Readable := by
    rw [bare]
    exact fun _ absent => absurd absent List.not_mem_nil
  unfold data
  split
  · rename_i v4
    exact finds_pure ⟨none _ rfl, v4.1, nofun⟩
  · split
    · rename_i v6
      exact finds_pure ⟨none _ rfl, v6.1, nofun⟩
    · split
      · exact (finds_any _).bind fun _ _ => finds_refuse _
      · rename_i noAddress
        split
        · rename_i points
          refine (finds_nameAt offset).bind fun target readable => ?_
          exact finds_pure ⟨List.forall_mem_singleton.mpr readable, points, nofun⟩
        · rename_i noName
          split
          · rename_i exchange
            refine (finds_nameAt (offset + 2)).bind fun host readable => ?_
            exact finds_pure ⟨List.forall_mem_singleton.mpr readable, exchange.1, nofun⟩
          · rename_i noExchange
            refine finds_pure ⟨none _ rfl, ?_, ?_⟩
            · simp only [not_or] at noAddress noName
              exact ⟨noAddress.1, noAddress.2, noName.1, noName.2.1, noName.2.2,
                fun mail => Nat.lt_of_not_le fun large => noExchange ⟨mail, large⟩⟩
            · rintro other ⟨⟩
              exact short

theorem finds_record : record.Finds DnsRecord.Found := by
  refine finds_name.bind fun name readable => ?_
  refine (finds_any _).bind fun type _ => ?_
  refine (finds_any _).bind fun recordClass _ => ?_
  refine (finds_any _).bind fun ttl _ => ?_
  refine (finds_number 2).bind fun length small => ?_
  refine (finds_any _).bind fun offset _ => ?_
  refine (finds_take length).bind fun bytes size => ?_
  have short : bytes.length ≤ 0xffff := by
    rw [size]
    exact Nat.le_of_lt_succ small
  refine (finds_data _ offset short).bind fun content known => ?_
  exact finds_pure ⟨List.forall_mem_cons.mpr ⟨readable, known.1⟩, known.2.1, known.2.2⟩

end DnsReader

namespace Dns

/-- A message as it is read. -/
structure Found (dns : Dns) : Prop where
  queries : ∀ question ∈ dns.queries, question.name.Readable
  records : ∀ entry ∈ dns.records, entry.Found
  queryCount : dns.queries.length ≤ 0xffff
  answerCount : dns.answers.length ≤ 0xffff
  authorityCount : dns.authority.length ≤ 0xffff
  additionalCount : dns.additional.length ≤ 0xffff

/-- The names of a message in the order in which they are written. -/
def names (dns : Dns) : List DnsName :=
  dns.queries.map (·.name) ++ dns.records.flatMap DnsRecord.names

theorem finds_reader : reader.Finds Found := by
  unfold reader
  refine (DnsReader.finds_any _).bind fun id _ => ?_
  refine (DnsReader.finds_any _).bind fun flags _ => ?_
  refine (DnsReader.finds_number 2).bind fun queryCount fewQueries => ?_
  refine (DnsReader.finds_number 2).bind fun answerCount fewAnswers => ?_
  refine (DnsReader.finds_number 2).bind fun authorityCount fewAuthority => ?_
  refine (DnsReader.finds_number 2).bind fun additionalCount fewAdditional => ?_
  refine (DnsReader.finds_many DnsReader.finds_query queryCount).bind fun queries asked => ?_
  refine (DnsReader.finds_many DnsReader.finds_record answerCount).bind fun answers answered => ?_
  refine (DnsReader.finds_many DnsReader.finds_record authorityCount).bind
    fun authority authorized => ?_
  refine (DnsReader.finds_many DnsReader.finds_record additionalCount).bind
    fun additional added => ?_
  apply DnsReader.finds_pure
  exact {
    queries := asked.2
    records := List.forall_mem_append.mpr
      ⟨List.forall_mem_append.mpr ⟨answered.2, authorized.2⟩, added.2⟩
    queryCount := by rw [asked.1]; exact Nat.le_of_lt_succ fewQueries
    answerCount := by rw [answered.1]; exact Nat.le_of_lt_succ fewAnswers
    authorityCount := by rw [authorized.1]; exact Nat.le_of_lt_succ fewAuthority
    additionalCount := by rw [added.1]; exact Nat.le_of_lt_succ fewAdditional }

theorem finds_of_decode {bytes : Bytes} {decoded : Decoded Dns}
    (read : decode bytes = .ok decoded) : decoded.header.Found := by
  rcases decode_eq_ok.mp read with ⟨_, stop, _, found, _⟩
  exact finds_reader bytes 0 decoded.header stop found

theorem Found.readable {dns : Dns} (found : dns.Found) : ∀ name ∈ dns.names, name.Readable := by
  intro name member
  rcases List.mem_append.mp member with asked | recorded
  · rcases List.mem_map.mp asked with ⟨question, inside, rfl⟩
    exact found.queries question inside
  · rcases List.mem_flatMap.mp recorded with ⟨entry, inside, member⟩
    exact (found.records entry inside).names name member

end Dns

theorem RecordData.size_le {value : RecordData}
    (names : ∀ name ∈ value.names, name.size ≤ DnsName.maximumSize + 1)
    (short : ∀ bytes, value = .other bytes → bytes.length ≤ 0xffff) : value.size ≤ 0xffff := by
  have limit : DnsName.maximumSize = 255 := rfl
  cases value with
  | ipv4 address | ipv6 address => exact Nat.le_of_ble_eq_true rfl
  | name target =>
      have small := names target (List.mem_singleton.mpr rfl)
      rw [size]
      omega
  | exchange preference host =>
      have small := names host (List.mem_singleton.mpr rfl)
      rw [size]
      omega
  | other bytes => exact short bytes rfl

theorem Dns.Found.plain {dns : Dns} (found : dns.Found)
    (plain : ∀ name ∈ dns.names, name.Plain) : dns.Plain where
  queries question member :=
    plain _ (List.mem_append_left _ (List.mem_map_of_mem member))
  records entry member := by
    have inside : ∀ name ∈ entry.names, name.Plain := fun name there =>
      plain name (List.mem_append_right _ (List.mem_flatMap.mpr ⟨entry, member, there⟩))
    have known := found.records entry member
    refine ⟨inside, known.suited, RecordData.size_le (fun name there => ?_) known.short⟩
    exact Nat.le_succ_of_le (inside name (List.mem_cons_of_mem _ there)).size
  queryCount := found.queryCount
  answerCount := found.answerCount
  authorityCount := found.authorityCount
  additionalCount := found.additionalCount

namespace DnsName

def isLong (name : DnsName) : Bool := maximumSize < name.size

def RefusesLong {α : Type} (names : List DnsName) (outcome : Outcome α) : Prop :=
  match names.find? isLong with
  | none => ∃ value, outcome = .ok value
  | some long => outcome = .malformed (.dnsNameTooLong long.text)

section RefusesLong

variable {α β : Type} {names more : List DnsName}

theorem refusesLong_ok (value : α) : RefusesLong [] (.ok value) := ⟨value, rfl⟩

theorem RefusesLong.bind {first : Outcome α} {next : α → Outcome β}
    (front : RefusesLong names first) (rest : ∀ value, RefusesLong more (next value)) :
    RefusesLong (names ++ more) (first >>= next) := by
  unfold RefusesLong at front
  rw [RefusesLong, List.find?_append]
  cases found : names.find? isLong with
  | none =>
      rw [found] at front
      rcases front with ⟨value, rfl⟩
      exact rest value
  | some long =>
      rw [found] at front
      rw [show first = _ from front]
      rfl

theorem RefusesLong.map {first : Outcome α} {next : α → β} (front : RefusesLong names first) :
    RefusesLong names (first >>= fun value => .ok (next value)) := by
  rw [← List.append_nil names]
  exact front.bind fun value => refusesLong_ok (next value)

theorem refusesLong_encode {name : DnsName}
    (limits : ∀ label ∈ name.labels, 1 ≤ label.length ∧ label.length ≤ maximumLabel) :
    RefusesLong [name] name.encode := by
  rw [RefusesLong, List.find?_singleton, encode_of_labels limits]
  by_cases long : maximumSize < name.size
  · rw [if_pos long, if_pos (show name.isLong = true from decide_eq_true long)]
  · rw [if_neg long, if_neg (show ¬ name.isLong = true from fun holds =>
      long (of_decide_eq_true holds))]
    exact ⟨_, rfl⟩

theorem refusesLong_mapM {encode : α → Outcome β} {names : α → List DnsName} {items : List α}
    (each : ∀ item ∈ items, RefusesLong (names item) (encode item)) :
    RefusesLong (items.flatMap names) (items.mapM encode) := by
  induction items with
  | nil => exact refusesLong_ok []
  | cons item items ih =>
      rw [List.mapM_cons, List.flatMap_cons]
      refine (each item List.mem_cons_self).bind fun first => ?_
      exact (ih fun other member => each other (List.mem_cons_of_mem _ member)).map

end RefusesLong

end DnsName

theorem DnsReader.reads_hosts {labels : List Bytes}
    (hosts : ∀ label ∈ labels, DnsName.HostLabel label)
    (short : ∀ label ∈ labels, label.length ≤ DnsName.maximumLabel)
    (room : sizeSum (fun label => label.length + 1) labels ≤ DnsName.maximumSize) :
    name.Reads (labels.flatMap DnsName.labelBytes ++ [0]) (.ofLabels labels) := by
  have texts : ∀ label ∈ labels, DnsName.shown label = label := fun label member =>
    (hosts label member).shown_eq
  intro front rest
  have found := DnsName.readLabels_labelBytes (fun label member =>
    ⟨List.length_pos_iff.mpr (hosts label member).1, short label member⟩) texts
    (show 0 + _ ≤ DnsName.maximumSize by rwa [Nat.zero_add]) 0 front rest
  rw [List.append_assoc, List.singleton_append, name_eq, DnsName.read, found, List.length_append,
    length_flatMap_eq_sizeSum (fun _ => rfl)]
  rfl

open DnsName (RefusesLong)

theorem RecordData.refusesLong_encode {value : RecordData}
    (each : ∀ name ∈ value.names, RefusesLong [name] name.encode) :
    RefusesLong value.names value.encode := by
  cases value with
  | ipv4 address | ipv6 address | other bytes => exact DnsName.refusesLong_ok _
  | name target => exact each target (List.mem_singleton.mpr rfl)
  | exchange preference host => exact (each host (List.mem_singleton.mpr rfl)).map

theorem DnsRecord.refusesLong_encode {entry : DnsRecord}
    (each : ∀ name ∈ entry.names, RefusesLong [name] name.encode)
    (small : entry.data.size ≤ 0xffff) : RefusesLong entry.names entry.encode := by
  have demanded : Outcome.demand (entry.data.size ≤ 0xffff) .dnsDataTooLong = .ok () :=
    if_pos small
  have inside : ∀ name ∈ entry.data.names, RefusesLong [name] name.encode := fun name member =>
    each name (List.mem_cons_of_mem _ member)
  have first : RefusesLong [entry.name] entry.name.encode := each _ List.mem_cons_self
  rw [encode, demanded]
  refine first.bind fun name => ?_
  exact (RecordData.refusesLong_encode inside).map

theorem DnsQuery.refusesLong_encode {question : DnsQuery}
    (each : RefusesLong [question.name] question.name.encode) :
    RefusesLong [question.name] question.encode := each.map

namespace Dns

theorem Found.refusesLong_encode {dns : Dns} (found : dns.Found)
    (each : ∀ name ∈ dns.names, RefusesLong [name] name.encode)
    (limit : ∀ name ∈ dns.names, name.size ≤ DnsName.maximumSize + 1) :
    RefusesLong dns.names dns.encode := by
  have asked : RefusesLong (dns.queries.map (·.name)) (dns.queries.mapM DnsQuery.encode) := by
    rw [List.map_eq_flatMap]
    refine DnsName.refusesLong_mapM fun question member => ?_
    exact DnsQuery.refusesLong_encode
      (each _ (List.mem_append_left _ (List.mem_map_of_mem member)))
  have recorded : RefusesLong (dns.records.flatMap DnsRecord.names)
      (dns.records.mapM DnsRecord.encode) := by
    refine DnsName.refusesLong_mapM fun entry member => ?_
    have inside : ∀ name ∈ entry.names, name ∈ dns.names := fun name there =>
      List.mem_append_right _ (List.mem_flatMap.mpr ⟨entry, member, there⟩)
    refine DnsRecord.refusesLong_encode (fun name there => each name (inside name there)) ?_
    exact RecordData.size_le (fun name there => limit name (inside name
      (List.mem_cons_of_mem _ there))) (found.records entry member).short
  rw [encode, countBytes_eq found.queryCount, countBytes_eq found.answerCount,
    countBytes_eq found.authorityCount, countBytes_eq found.additionalCount]
  exact asked.bind fun questions => recorded.map

theorem decode_of_reads {dns : Dns} {bytes : Bytes} (large : fixedSize ≤ bytes.length)
    (reads : reader.Reads bytes dns) : decode bytes = .ok ⟨dns, [], none⟩ := by
  have alone := decode_append_of_reads large reads []
  rwa [List.append_nil] at alone

theorem serialize_of_long {dns : Dns} (refuses : RefusesLong dns.names dns.encode)
    {long : DnsName} (first : dns.names.find? DnsName.isLong = some long) :
    (Packet.single (.dns dns)).serialize = .malformed (.dnsNameTooLong long.text) := by
  rw [RefusesLong, first] at refuses
  rw [serialize_eq, show dns.encode = _ from refuses]
  rfl

section Hosts

variable {dns : Dns} (found : dns.Found) (hosts : ∀ name ∈ dns.names, name.Hostname)

include found hosts

theorem Found.size_le : ∀ name ∈ dns.names, name.size ≤ DnsName.maximumSize + 1 :=
  fun name member => (hosts name member).size_le (found.readable name member)

theorem Found.refusesLong : RefusesLong dns.names dns.encode :=
  found.refusesLong_encode (fun name member => DnsName.refusesLong_encode
    ((hosts name member).labels_length (found.readable name member))) (found.size_le hosts)

end Hosts

/-- Every message that was read and whose names are those of hosts is written, and read again as
it was, unless a name of it takes 256 bytes or all of it more than 32 bits. No name takes more, and
the first one that takes as many is refused. -/
theorem rewritten_iff {bytes : Bytes} {decoded : Decoded Dns} (read : decode bytes = .ok decoded)
    (hosts : ∀ name ∈ decoded.header.names, name.Hostname) :
    (∀ name ∈ decoded.header.names, name.size ≤ 256) ∧
      ((∃ written, (Packet.single (.dns decoded.header)).serialize = .ok written ∧
          decode written = .ok ⟨decoded.header, [], none⟩) ↔
        (∀ name ∈ decoded.header.names, name.size ≤ 255) ∧ decoded.header.size < 2 ^ 32) ∧
      (∀ long, decoded.header.names.find? (fun name => 255 < name.size) = some long →
        (Packet.single (.dns decoded.header)).serialize =
          .malformed (.dnsNameTooLong long.text)) ∧
      ((∀ name ∈ decoded.header.names, name.size ≤ 255) → 2 ^ 32 ≤ decoded.header.size →
        (Packet.single (.dns decoded.header)).serialize =
          .refuse (.shortBuffer .dns decoded.header.size decoded.header.headerSize)) := by
  have found := finds_of_decode read
  have refused (long : DnsName)
      (first : decoded.header.names.find? (fun name => 255 < name.size) = some long) :
      (Packet.single (.dns decoded.header)).serialize = .malformed (.dnsNameTooLong long.text) :=
    serialize_of_long (found.refusesLong hosts) first
  have encoded (short : ∀ name ∈ decoded.header.names, name.size ≤ 255) :
      ∃ written, decoded.header.encode = .ok written ∧ reader.Reads written decoded.header :=
    reads_encode (found.plain fun name member =>
      (hosts name member).plain (found.readable name member) (short name member))
  have large (short : ∀ name ∈ decoded.header.names, name.size ≤ 255)
      (large : 2 ^ 32 ≤ decoded.header.size) :
      (Packet.single (.dns decoded.header)).serialize =
        .refuse (.shortBuffer .dns decoded.header.size decoded.header.headerSize) := by
    rcases encoded short with ⟨_, written, _⟩
    exact serialize_of_large written large
  refine ⟨found.size_le hosts, ⟨?_, ?_⟩, refused, large⟩
  · rintro ⟨written, serialized, _⟩
    have short : ∀ name ∈ decoded.header.names, name.size ≤ 255 := by
      intro name member
      by_contra exceeds
      have there : (decoded.header.names.find? fun name => 255 < name.size).isSome = true :=
        List.find?_isSome.mpr ⟨name, member, decide_eq_true (Nat.lt_of_not_le exceeds)⟩
      rcases Option.isSome_iff_exists.mp there with ⟨long, first⟩
      rw [refused long first] at serialized
      cases serialized
    refine ⟨short, ?_⟩
    by_contra exceeds
    rw [large short (Nat.le_of_not_lt exceeds)] at serialized
    cases serialized
  · rintro ⟨short, small⟩
    rcases encoded short with ⟨written, encoded, reads⟩
    have filled : fixedSize ≤ written.length := by
      rw [length_of_encode encoded]
      exact fixedSize_le _
    exact ⟨written, serialize_of_encode encoded small, decode_of_reads filled reads⟩

/-- A response whose second and third name end with pointers into the first. -/
def referral : Bytes :=
  [0, 7, 0x81, 0x80, 0, 1, 0, 1, 0, 0, 0, 0, 3, 0x77, 0x2d, 0x32, 2, 0x6e, 0x6c, 0, 0, 1, 0, 1,
    0xc0, 12, 0, 2, 0, 1, 0, 0, 0, 60, 0, 5, 2, 0x6e, 0x73, 0xc0, 16]

def referralRead : Dns where
  id := 7
  flags := ⟨0x8180⟩
  queries := [.new (.ofText "w-2.nl") .a]
  answers := [⟨.ofText "w-2.nl", .ns, dnsClassInternet, 60, .name (.ofText "ns.nl")⟩]
  authority := []
  additional := []

theorem referral_rewritten : decode referral = .ok ⟨referralRead, [], none⟩ ∧
    (∀ name ∈ referralRead.names, name.Hostname) ∧
      ∃ written, (Packet.single (.dns referralRead)).serialize = .ok written ∧
        decode written = .ok ⟨referralRead, [], none⟩ := by
  have read : decode referral = .ok ⟨referralRead, [], none⟩ := by decide +kernel
  have zone : (DnsName.ofText "w-2.nl").Hostname :=
    ⟨[[0x77, 0x2d, 0x32], [0x6e, 0x6c]], by decide, DnsName.hostLabels_of_all (by decide)⟩
  have server : (DnsName.ofText "ns.nl").Hostname :=
    ⟨[[0x6e, 0x73], [0x6e, 0x6c]], by decide, DnsName.hostLabels_of_all (by decide)⟩
  have hosts : ∀ name ∈ referralRead.names, name.Hostname := by
    have named : referralRead.names = [.ofText "w-2.nl", .ofText "w-2.nl", .ofText "ns.nl"] := rfl
    simp only [named, List.forall_mem_cons]
    exact ⟨zone, zone, server, fun _ absent => absurd absent List.not_mem_nil⟩
  exact ⟨read, hosts, (rewritten_iff read hosts).2.1.mpr ⟨by decide, by decide⟩⟩

/-- A question about the host of some labels. -/
def hostQuestion (labels : List Bytes) : Dns where
  id := 7
  flags := .recursionDesired
  queries := [.new (.ofLabels labels) .a]
  answers := []
  authority := []
  additional := []

def hostQuestionBytes (labels : List Bytes) : Bytes :=
  [0, 7, 1, 0, 0, 1, 0, 0, 0, 0, 0, 0] ++ (labels.flatMap DnsName.labelBytes ++ [0] ++ [0, 1, 0, 1])

theorem decode_hostQuestionBytes {labels : List Bytes}
    (hosts : ∀ label ∈ labels, DnsName.HostLabel label)
    (short : ∀ label ∈ labels, label.length ≤ DnsName.maximumLabel)
    (room : sizeSum (fun label => label.length + 1) labels ≤ DnsName.maximumSize) :
    decode (hostQuestionBytes labels) = .ok ⟨hostQuestion labels, [], none⟩ := by
  have named := DnsReader.reads_hosts hosts short room
  unfold hostQuestionBytes
  generalize labels.flatMap DnsName.labelBytes ++ [0] = name at named ⊢
  have asked : DnsReader.query.Reads (name ++ (Bytes.ofNatBE 2 1 ++ Bytes.ofNatBE 2 1))
      (.new (.ofLabels labels) .a) := by
    apply named.bind
    apply (DnsReader.reads_word 1).bind
    exact (DnsReader.reads_word 1).bind_pure rfl
  have queries : (DnsReader.many DnsReader.query 1).Reads
      (name ++ (Bytes.ofNatBE 2 1 ++ Bytes.ofNatBE 2 1) ++ []) [.new (.ofLabels labels) .a] :=
    asked.bind ((DnsReader.reads_pure []).bind_pure rfl)
  have none : (DnsReader.many DnsReader.record 0).Reads [] [] := DnsReader.reads_pure []
  have reads : reader.Reads (Bytes.ofNatBE 2 7 ++ (Bytes.ofNatBE 2 0x100 ++ (Bytes.ofNatBE 2 1 ++
      (Bytes.ofNatBE 2 0 ++ (Bytes.ofNatBE 2 0 ++ (Bytes.ofNatBE 2 0 ++
        (name ++ (Bytes.ofNatBE 2 1 ++ Bytes.ofNatBE 2 1) ++ [] ++ ([] ++ ([] ++ [])))))))))
          (hostQuestion labels) := by
    apply (DnsReader.reads_word 7).bind
    apply (DnsReader.reads_word 0x100).bind
    apply (DnsReader.reads_word 1).bind
    apply (DnsReader.reads_word 0).bind
    apply (DnsReader.reads_word 0).bind
    apply (DnsReader.reads_word 0).bind
    apply queries.bind
    apply none.bind
    apply none.bind
    exact none.bind_pure rfl
  simp only [List.append_nil] at reads
  refine decode_of_reads ?_ reads
  rw [List.length_append]
  exact Nat.le_add_right _ _

/-- The labels of one of the longest names that are read, 255 bytes with their lengths. -/
def longestLabels : List Bytes :=
  [List.replicate 63 0x61, List.replicate 63 0x62, List.replicate 63 0x63, List.replicate 62 0x64]

theorem longestLabels_unwritten :
    (∀ label ∈ longestLabels, DnsName.HostLabel label) ∧
      decode (hostQuestionBytes longestLabels) = .ok ⟨hostQuestion longestLabels, [], none⟩ ∧
        (Packet.single (.dns (hostQuestion longestLabels))).serialize =
          .malformed (.dnsNameTooLong (DnsName.ofLabels longestLabels).text) := by
  have hosts : ∀ label ∈ longestLabels, DnsName.HostLabel label :=
    DnsName.hostLabels_of_all (by decide)
  have read := decode_hostQuestionBytes hosts (by decide) (by decide)
  have named : (hostQuestion longestLabels).names = [.ofLabels longestLabels] := rfl
  have host : ∀ name ∈ (hostQuestion longestLabels).names, name.Hostname := by
    rw [named]
    exact List.forall_mem_singleton.mpr ⟨longestLabels, rfl, hosts⟩
  have long : (DnsName.ofLabels longestLabels).isLong = true := by
    rw [DnsName.isLong, DnsName.size, DnsName.labels_ofLabels hosts]
    decide
  refine ⟨hosts, read, serialize_of_long ((finds_of_decode read).refusesLong host) ?_⟩
  rw [named, List.find?_singleton, if_pos long]

end Dns

end PacketStack
