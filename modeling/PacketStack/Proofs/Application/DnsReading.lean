import PacketStack.Proofs.Application.DnsName
import PacketStack.Proofs.Checked.Messages
import PacketStack.Proofs.Header.Values
import PacketStack.Proofs.Packet.Assembly

/-!
Messages of the domain name system that are written and read again.

Main statement: `Dns.decode_serialize` says that a plain message whose size fits 32 bits takes the
room that is planned for it, and that it is read back from its bytes with whatever follows them left
over.
-/

namespace PacketStack

namespace DnsReader

variable {α β : Type}

def Reads (reader : DnsReader α) (bytes : Bytes) (value : α) : Prop :=
  ∀ front rest, reader (front ++ (bytes ++ rest)) front.length =
    .ok (value, front.length + bytes.length)

theorem reads_pure (value : α) : Reads (pure value) [] value := fun _ _ => rfl

theorem Reads.bind {reader : DnsReader α} {next : α → DnsReader β} {bytes more : Bytes}
    {value : α} {result : β} (first : reader.Reads bytes value)
    (others : (next value).Reads more result) : (reader >>= next).Reads (bytes ++ more) result := by
  intro front rest
  have behind := others (front ++ bytes) rest
  rw [List.append_assoc, List.length_append] at behind
  rw [run_bind, List.append_assoc, first front (more ++ rest), Outcome.ok_bind, behind,
    List.length_append, Nat.add_assoc]

theorem Reads.bind_pure {reader : DnsReader α} {bytes : Bytes} {value : α}
    (read : reader.Reads bytes value) {make : α → β} {result : β} (made : make value = result) :
    (reader >>= fun value => pure (make value)).Reads bytes result := by
  rw [← made, ← List.append_nil bytes]
  exact read.bind (reads_pure (make value))

theorem reads_take (data : Bytes) : (take data.length).Reads data data := by
  intro front rest
  rw [take_eq, Bytes.range?_append]

theorem reads_number (size : Nat) {value : Nat} (small : value < Bytes.valueCount size) :
    (number size).Reads (Bytes.ofNatBE size value) value := by
  have taken := reads_take (Bytes.ofNatBE size value)
  rw [Bytes.length_ofNatBE] at taken
  intro front rest
  rw [number, run_bind, taken front rest, Outcome.ok_bind, Bytes.toNatBE_ofNatBE,
    Nat.mod_eq_of_lt small]
  rfl

theorem reads_word (value : UInt16) : (number 2).Reads (Bytes.ofNatBE 2 value.toNat) value.toNat :=
  reads_number 2 value.toNat_lt

theorem reads_name {target : DnsName} (plain : target.Plain) {bytes : Bytes}
    (written : target.encode = .ok bytes) : name.Reads bytes target := by
  intro front rest
  rw [name_eq, plain.read_encode written]

theorem reads_many {item : DnsReader α} {encode : α → Outcome Bytes} {items : List α}
    (each : ∀ value ∈ items, ∃ bytes, encode value = .ok bytes ∧ item.Reads bytes value) :
    ∃ parts, items.mapM encode = .ok parts ∧
      (many item items.length).Reads parts.flatten items := by
  induction items with
  | nil => exact ⟨[], rfl, reads_pure []⟩
  | cons value items ih =>
      rcases each value List.mem_cons_self with ⟨bytes, first, read⟩
      rcases ih (fun other member => each other (List.mem_cons_of_mem _ member)) with
        ⟨parts, others, reads⟩
      refine ⟨bytes :: parts, ?_, ?_⟩
      · rw [List.mapM_cons, first, others]
        rfl
      · apply read.bind
        exact reads.bind_pure rfl

theorem reads_query {question : DnsQuery} (plain : question.name.Plain) :
    ∃ bytes, question.encode = .ok bytes ∧ query.Reads bytes question := by
  have written := plain.encode_eq
  refine ⟨_, by rw [DnsQuery.encode, written]; rfl, ?_⟩
  rw [List.append_assoc]
  apply (reads_name plain written).bind
  apply (reads_word question.type.id).bind
  exact (reads_word question.queryClass).bind_pure (by simp)

end DnsReader

namespace RecordData

/-- The names in the data of a record. -/
def names : RecordData → List DnsName
  | .name target => [target]
  | .exchange _ host => [host]
  | _ => []

def Suits (type : RecordType) : RecordData → Prop
  | .ipv4 _ => type = .a
  | .ipv6 _ => type = .aaaa
  | .name _ => type = .ns ∨ type = .cname ∨ type = .ptr
  | .exchange _ _ => type = .mx
  | .other data => type ≠ .a ∧ type ≠ .aaaa ∧ type ≠ .ns ∧ type ≠ .cname ∧ type ≠ .ptr ∧
      (type = .mx → data.length < 3)

instance (type : RecordType) : (value : RecordData) → Decidable (value.Suits type)
  | .ipv4 _ => inferInstanceAs (Decidable (type = .a))
  | .ipv6 _ => inferInstanceAs (Decidable (type = .aaaa))
  | .name _ => inferInstanceAs (Decidable (type = .ns ∨ type = .cname ∨ type = .ptr))
  | .exchange _ _ => inferInstanceAs (Decidable (type = .mx))
  | .other data => inferInstanceAs (Decidable (type ≠ .a ∧ type ≠ .aaaa ∧ type ≠ .ns ∧
      type ≠ .cname ∧ type ≠ .ptr ∧ (type = .mx → data.length < 3)))

theorem exists_encode {value : RecordData} (plain : ∀ name ∈ value.names, name.Plain) :
    ∃ content, value.encode = .ok content := by
  cases value with
  | ipv4 address => exact ⟨_, rfl⟩
  | ipv6 address => exact ⟨_, rfl⟩
  | name target => exact ⟨_, (plain target (List.mem_singleton.mpr rfl)).encode_eq⟩
  | exchange preference host =>
      refine ⟨Bytes.ofNatBE 2 preference.toNat ++
        (host.labels.flatMap DnsName.labelBytes ++ [0]), ?_⟩
      rw [encode, (plain host (List.mem_singleton.mpr rfl)).encode_eq]
      rfl
  | other data => exact ⟨_, rfl⟩

end RecordData

namespace DnsReader

theorem data_of_ne {type : RecordType} (v4 : type ≠ .a) (v6 : type ≠ .aaaa) (offset : Nat)
    (bytes : Bytes) : data type offset bytes = (do
      if type = .ns ∨ type = .cname ∨ type = .ptr then return .name (← nameAt offset).1
      else if type = .mx ∧ 3 ≤ bytes.length then
        let (host, _) ← nameAt (offset + 2)
        return .exchange (Bytes.toNatBE (bytes.take 2)).toUInt16 host
      else return .other bytes) := by
  rw [data, if_neg (fun both => v4 both.1), if_neg (fun both => v6 both.1),
    if_neg (not_or.mpr ⟨v4, v6⟩)]

theorem data_exchange {preference : UInt16} {host : DnsName} (plain : host.Plain)
    {content : Bytes} (written : (RecordData.exchange preference host).encode = .ok content)
    (front rest : Bytes) (offset : Nat) :
    data .mx front.length content (front ++ (content ++ rest)) offset =
      .ok (.exchange preference host, offset) := by
  have length := RecordData.length_of_encode written
  simp only [RecordData.encode, Outcome.bind_eq_ok] at written
  rcases written with ⟨name, named, result⟩
  cases result
  have large : 3 ≤ (Bytes.ofNatBE 2 preference.toNat ++ name).length := by
    rw [length, RecordData.size, DnsName.size]
    omega
  -- the preference belongs to what stands in front of the name
  have found := plain.read_encode named (front ++ Bytes.ofNatBE 2 preference.toNat) rest
  rw [List.length_append, Bytes.length_ofNatBE, List.append_assoc,
    ← List.append_assoc _ name] at found
  have number : (Bytes.toNatBE ((Bytes.ofNatBE 2 preference.toNat ++ name).take 2)).toUInt16 =
      preference := by
    rw [List.take_left' (Bytes.length_ofNatBE 2 _), Bytes.toNatBE_ofNatBE, Bytes.valueCount_eq,
      toUInt16_mod]
  rw [data_of_ne (by decide) (by decide), if_neg (by decide), if_pos ⟨rfl, large⟩, run_bind,
    nameAt_eq, found, number]
  rfl

theorem data_eq {type : RecordType} {value : RecordData} (suited : value.Suits type)
    (plain : ∀ name ∈ value.names, name.Plain) {content : Bytes}
    (written : value.encode = .ok content) (front rest : Bytes) (offset : Nat) :
    data type front.length content (front ++ (content ++ rest)) offset = .ok (value, offset) := by
  cases value with
  | ipv4 address =>
      cases written
      have known : type = .a ∧ address.octets.length = 4 := ⟨suited, address.length_octets⟩
      rw [data, if_pos known, Ipv4Address.octets, Bytes.toNatBE_ofNatBE, Bytes.valueCount_eq,
        Ipv4Address.ofNat_mod]
      rfl
  | ipv6 address =>
      cases written
      have known : type = .aaaa ∧ address.octets.length = 16 := ⟨suited, address.length_octets⟩
      have other : ¬ (type = .a ∧ address.octets.length = 4) := by
        rw [show type = .aaaa from suited]
        exact fun both => absurd both.1 (by decide)
      rw [data, if_neg other, if_pos known, Ipv6Address.octets, Bytes.toNatBE_ofNatBE,
        Bytes.valueCount_eq, Ipv6Address.ofNat_mod]
      rfl
  | name target =>
      have known : type = .ns ∨ type = .cname ∨ type = .ptr := suited
      have apart : type ≠ .a ∧ type ≠ .aaaa := by
        rcases known with rfl | rfl | rfl <;> decide
      rw [data_of_ne apart.1 apart.2, if_pos known, run_bind, nameAt_eq,
        (plain target (List.mem_singleton.mpr rfl)).read_encode written]
      rfl
  | exchange preference host =>
      rw [show type = .mx from suited]
      exact data_exchange (plain host (List.mem_singleton.mpr rfl)) written front rest offset
  | other data =>
      cases written
      rcases suited with ⟨v4, v6, ns, cname, ptr, few⟩
      have bare : ¬ (type = .mx ∧ 3 ≤ content.length) := fun both =>
        Nat.not_lt.mpr both.2 (few both.1)
      rw [data_of_ne v4 v6, if_neg (not_or.mpr ⟨ns, not_or.mpr ⟨cname, ptr⟩⟩), if_neg bare]
      rfl

theorem reads_data {type : RecordType} {value : RecordData} (suited : value.Suits type)
    (plain : ∀ name ∈ value.names, name.Plain) {content : Bytes}
    (written : value.encode = .ok content) {make : RecordData → α} {result : α}
    (made : make value = result) :
    Reads (do
      let offset ← get
      let bytes ← take content.length
      return make (← data type offset bytes)) content result := by
  intro front rest
  have place : (get : DnsReader Nat) (front ++ (content ++ rest)) front.length =
      .ok (front.length, front.length) := rfl
  rw [run_bind, place, Outcome.ok_bind, run_bind, reads_take content front rest, Outcome.ok_bind,
    run_bind, data_eq suited plain written, ← made]
  rfl

end DnsReader

namespace DnsRecord

def names (entry : DnsRecord) : List DnsName := entry.name :: entry.data.names

/-- A record that is read as it was written. -/
structure Plain (entry : DnsRecord) : Prop where
  names : ∀ name ∈ entry.names, name.Plain
  suited : entry.data.Suits entry.type
  size : entry.data.size ≤ 0xffff

end DnsRecord

namespace DnsReader

theorem reads_record {entry : DnsRecord} (plain : entry.Plain) :
    ∃ bytes, entry.encode = .ok bytes ∧ record.Reads bytes entry := by
  have named := (plain.names entry.name List.mem_cons_self).encode_eq
  have inside : ∀ name ∈ entry.data.names, name.Plain := fun name member =>
    plain.names name (List.mem_cons_of_mem _ member)
  rcases RecordData.exists_encode inside with ⟨content, written⟩
  have length := RecordData.length_of_encode written
  have small : entry.data.size < Bytes.valueCount 2 := Nat.lt_succ_of_le plain.size
  have made : entry.encode = .ok (entry.name.labels.flatMap DnsName.labelBytes ++ [0] ++
      (Bytes.ofNatBE 2 entry.type.id.toNat ++ (Bytes.ofNatBE 2 entry.recordClass.toNat ++
        (Bytes.ofNatBE 4 entry.ttl.toNat ++ (Bytes.ofNatBE 2 entry.data.size ++ content))))) := by
    have demanded : Outcome.demand (entry.data.size ≤ 0xffff) .dnsDataTooLong = .ok () :=
      if_pos plain.size
    rw [DnsRecord.encode, named, demanded, written]
    simp only [Outcome.ok_bind, List.append_assoc]
    rfl
  refine ⟨_, made, ?_⟩
  apply (reads_name (plain.names entry.name List.mem_cons_self) named).bind
  apply (reads_word entry.type.id).bind
  apply (reads_word entry.recordClass).bind
  apply (reads_number 4 entry.ttl.toNat_lt).bind
  apply (reads_number 2 small).bind
  rw [← length]
  have suited : entry.data.Suits ⟨entry.type.id.toNat.toUInt16⟩ := by
    simpa using plain.suited
  exact reads_data suited inside written (by simp)

end DnsReader

namespace Dns

/-- A message that is read as it was written. -/
structure Plain (dns : Dns) : Prop where
  queries : ∀ question ∈ dns.queries, question.name.Plain
  records : ∀ entry ∈ dns.records, entry.Plain
  queryCount : dns.queries.length ≤ 0xffff
  answerCount : dns.answers.length ≤ 0xffff
  authorityCount : dns.authority.length ≤ 0xffff
  additionalCount : dns.additional.length ≤ 0xffff

theorem countBytes_eq {entries : DnsSection} {count : Nat} (few : count ≤ 0xffff) :
    countBytes entries count = .ok (Bytes.ofNatBE 2 count) := if_neg (Nat.not_lt.mpr few)

theorem reads_count {count : Nat} (few : count ≤ 0xffff) :
    (DnsReader.number 2).Reads (Bytes.ofNatBE 2 count) count :=
  DnsReader.reads_number 2 (Nat.lt_succ_of_le few)

theorem reads_encode {dns : Dns} (plain : dns.Plain) :
    ∃ bytes, dns.encode = .ok bytes ∧ reader.Reads bytes dns := by
  have reads (entries : List DnsRecord) (inside : ∀ entry ∈ entries, entry ∈ dns.records) :
      ∃ parts, entries.mapM DnsRecord.encode = .ok parts ∧
        (DnsReader.many DnsReader.record entries.length).Reads parts.flatten entries :=
    DnsReader.reads_many fun entry member => DnsReader.reads_record
      (plain.records entry (inside entry member))
  have asking : ∃ parts, dns.queries.mapM DnsQuery.encode = .ok parts ∧
      (DnsReader.many DnsReader.query dns.queries.length).Reads parts.flatten dns.queries :=
    DnsReader.reads_many fun question member => DnsReader.reads_query
      (plain.queries question member)
  rcases asking with ⟨questions, asked, readQuestions⟩
  rcases reads dns.answers fun _ member =>
    List.mem_append_left _ (List.mem_append_left _ member) with ⟨answers, answered, readAnswers⟩
  rcases reads dns.authority fun _ member =>
    List.mem_append_left _ (List.mem_append_right _ member) with
    ⟨authority, authorized, readAuthority⟩
  rcases reads dns.additional fun _ member => List.mem_append_right _ member with
    ⟨additional, added, readAdditional⟩
  have recorded : dns.records.mapM DnsRecord.encode =
      .ok (answers ++ authority ++ additional) := by
    rw [records, List.mapM_append, List.mapM_append, answered, authorized, added]
    rfl
  have encoded : dns.encode = .ok (Bytes.ofNatBE 2 dns.id.toNat ++
      (Bytes.ofNatBE 2 dns.flags.bits.toNat ++ (Bytes.ofNatBE 2 dns.queries.length ++
        (Bytes.ofNatBE 2 dns.answers.length ++ (Bytes.ofNatBE 2 dns.authority.length ++
          (Bytes.ofNatBE 2 dns.additional.length ++ (questions.flatten ++ (answers.flatten ++
            (authority.flatten ++ additional.flatten))))))))) := by
    rw [encode, countBytes_eq plain.queryCount, countBytes_eq plain.answerCount,
      countBytes_eq plain.authorityCount, countBytes_eq plain.additionalCount, asked, recorded]
    simp only [Outcome.ok_bind, List.flatten_append, List.append_assoc]
    rfl
  refine ⟨_, encoded, ?_⟩
  apply (DnsReader.reads_word dns.id).bind
  apply (DnsReader.reads_word dns.flags.bits).bind
  apply (reads_count plain.queryCount).bind
  apply (reads_count plain.answerCount).bind
  apply (reads_count plain.authorityCount).bind
  apply (reads_count plain.additionalCount).bind
  apply readQuestions.bind
  apply readAnswers.bind
  apply readAuthority.bind
  exact readAdditional.bind_pure (by simp)

theorem totalSize_lt (dns : Dns) : (Packet.single (.dns dns)).totalSize < 2 ^ 32 :=
  dns.size.toUInt32.toNat_lt

theorem serialize_eq (dns : Dns) : (Packet.single (.dns dns)).serialize =
    dns.encode >>= fun bytes =>
      if dns.headerSize < bytes.length then
        .refuse (.shortBuffer .dns bytes.length dns.headerSize)
      else .ok bytes := by
  have blank : (Packet.blank (.dns dns) []).length = dns.headerSize :=
    Packet.length_blank (.dns dns) []
  have planned : (Layer.dns dns).headerSize + ([] : Bytes).length +
      (Layer.dns dns).trailerSize ([] : Bytes).length < 2 ^ 32 := dns.totalSize_lt
  change Packet.frame (.dns dns) none none [] = _
  rw [Packet.frame_of_lt planned]
  change ((dns.write.run.run (Packet.blank (.dns dns) [])).1.map fun _ =>
    (dns.write.run.run (Packet.blank (.dns dns) [])).2) = _
  cases encoded : dns.encode with
  | error failure =>
      rw [write, encoded]
      rfl
  | ok bytes =>
      rw [Outcome.ok_bind]
      by_cases short : dns.headerSize < bytes.length
      · have refused : dns.write.run.run (Packet.blank (.dns dns) []) =
            (.error (.refused (.shortBuffer .dns bytes.length dns.headerSize)),
              Packet.blank (.dns dns) []) := by
          rw [write, encoded, ← blank]
          exact Write.run_bind_error (Write.run_require_of_lt (by rwa [blank]))
        rw [refused, if_pos short]
        rfl
      · have whole : bytes.length = dns.headerSize := by
          have length := length_of_encode encoded
          have planned := dns.headerSize_le
          omega
        have turned : dns.write.Turns (Packet.blank (.dns dns) []) () bytes := by
          rw [write, encoded]
          apply Write.turns_require_bind.mpr
          rw [Write.turns_put, blank, whole, Nat.zero_add]
          refine ⟨Nat.le_refl _, Nat.le_refl _, ?_⟩
          rw [Bytes.splice, List.take_zero, List.drop_eq_nil_of_le (by omega), List.append_nil]
          rfl
        rw [show dns.write.run.run (Packet.blank (.dns dns) []) = (.ok (), bytes) from turned,
          if_neg short]
        rfl

theorem serialize_of_encode {dns : Dns} {bytes : Bytes} (encoded : dns.encode = .ok bytes)
    (small : dns.size < 2 ^ 32) : (Packet.single (.dns dns)).serialize = .ok bytes := by
  have room : ¬ dns.headerSize < bytes.length := by
    rw [length_of_encode encoded, headerSize_of_lt small]
    exact Nat.lt_irrefl _
  rw [serialize_eq, encoded, Outcome.ok_bind, if_neg room]

theorem serialize_of_large {dns : Dns} {bytes : Bytes} (encoded : dns.encode = .ok bytes)
    (large : 2 ^ 32 ≤ dns.size) : (Packet.single (.dns dns)).serialize =
      .refuse (.shortBuffer .dns dns.size dns.headerSize) := by
  have length := length_of_encode encoded
  have short : dns.headerSize < bytes.length := by
    have planned : dns.headerSize < 2 ^ 32 := dns.totalSize_lt
    omega
  rw [serialize_eq, encoded, Outcome.ok_bind, if_pos short, length]

theorem decode_append_of_reads {dns : Dns} {bytes : Bytes} (large : fixedSize ≤ bytes.length)
    (reads : reader.Reads bytes dns) (rest : Bytes) :
    decode (bytes ++ rest) = .ok ⟨dns, rest, none⟩ := by
  have found : (reader.run (bytes ++ rest)).run 0 = .ok (dns, 0 + bytes.length) := reads [] rest
  have whole : bytes.length ≤ (bytes ++ rest).length := by
    rw [List.length_append]
    exact Nat.le_add_right _ _
  refine decode_eq_ok.mpr ⟨Nat.le_trans large whole, bytes.length, whole, ?_, ?_⟩
  · rw [← Nat.zero_add bytes.length]
    exact found
  · rw [List.drop_left]

theorem fixedSize_le (dns : Dns) : fixedSize ≤ dns.size := by
  rw [size, Nat.add_assoc]
  exact Nat.le_add_right _ _

theorem assemble_eq (dns : Dns) :
    (Packet.single (.dns dns)).assemble = (Packet.single (.dns dns)).serialize :=
  Packet.assembleWithin_eq dns.totalSize_lt none

/-- A plain message takes the room that is planned for it, and it is read back whatever follows.
The room is planned in 32 bits, and a message that takes more of them is refused. -/
theorem decode_serialize {dns : Dns} (plain : dns.Plain) :
    (dns.size < 2 ^ 32 →
      ∃ bytes, (Packet.single (.dns dns)).assemble = .ok bytes ∧ bytes.length = dns.headerSize ∧
        ∀ rest, decode (bytes ++ rest) = .ok ⟨dns, rest, none⟩) ∧
    (2 ^ 32 ≤ dns.size → (Packet.single (.dns dns)).assemble =
      .refuse (.shortBuffer .dns dns.size dns.headerSize)) := by
  rcases reads_encode plain with ⟨bytes, encoded, reads⟩
  have length := length_of_encode encoded
  rw [assemble_eq]
  refine ⟨fun small => ⟨bytes, serialize_of_encode encoded small, ?_, ?_⟩,
    serialize_of_large encoded⟩
  · rw [length, headerSize_of_lt small]
  · exact decode_append_of_reads (by rw [length]; exact dns.fixedSize_le) reads

/-- A message with data of every form in its three sections. -/
def mailResponse : Dns where
  id := 7
  flags := .response
  queries := [.new (.ofText "example.org") .mx]
  answers := [.new (.ofText "example.org") 60 (.exchange 10 (.ofText "mail.example.org")),
    .new (.ofText "example.org") 60 (.other [3, 0x73, 0x70, 0x66])]
  authority := [⟨.ofText "", .ns, dnsClassInternet, 3600, .name (.ofText "mail.example.org")⟩]
  additional := [.new (.ofText "mail.example.org") 60 (.ipv4 (.ofNat 0x5db8d822)),
    .new (.ofText "mail.example.org") 60 (.ipv6 (.ofNat 1))]

theorem mailResponse_read : mailResponse.Plain ∧ mailResponse.size < 2 ^ 32 ∧
    ∃ bytes, (Packet.single (.dns mailResponse)).assemble = .ok bytes ∧
      bytes.length = mailResponse.headerSize ∧
      ∀ rest, decode (bytes ++ rest) = .ok ⟨mailResponse, rest, none⟩ := by
  have domain : (DnsName.ofText "example.org").Plain :=
    ⟨⟨_, rfl⟩, by decide, by decide, by decide⟩
  have host : (DnsName.ofText "mail.example.org").Plain :=
    ⟨⟨_, rfl⟩, by decide, by decide, by decide⟩
  have root : (DnsName.ofText "").Plain := ⟨⟨_, rfl⟩, by decide, by decide, by decide⟩
  have plain : mailResponse.Plain := {
    queries := by
      intro question member
      rw [List.mem_singleton.mp member]
      exact domain
    records := by
      intro entry member
      simp only [mailResponse, records, List.cons_append, List.nil_append, List.mem_cons,
        List.not_mem_nil, or_false] at member
      rcases member with rfl | rfl | rfl | rfl | rfl
      · exact ⟨by simp [DnsRecord.names, DnsRecord.new, RecordData.names, domain, host],
          by decide, by decide⟩
      · exact ⟨by simp [DnsRecord.names, DnsRecord.new, RecordData.names, domain],
          by decide, by decide⟩
      · exact ⟨by simp [DnsRecord.names, RecordData.names, root, host], by decide, by decide⟩
      · exact ⟨by simp [DnsRecord.names, DnsRecord.new, RecordData.names, host],
          by decide, by decide⟩
      · exact ⟨by simp [DnsRecord.names, DnsRecord.new, RecordData.names, host],
          by decide, by decide⟩
    queryCount := by decide
    answerCount := by decide
    authorityCount := by decide
    additionalCount := by decide }
  have small : mailResponse.size < 2 ^ 32 := by decide
  exact ⟨plain, small, (decode_serialize plain).1 small⟩

/-- As many answers as are counted, each with as many bytes of data as a record holds. -/
def crowded : Dns where
  id := 0
  flags := ⟨0⟩
  queries := []
  answers := List.replicate 0xffff (.new (.ofText "") 0 (.other (List.replicate 0xffff 0)))
  authority := []
  additional := []

theorem records_crowded : crowded.records =
    List.replicate 0xffff (.new (.ofText "") 0 (.other (List.replicate 0xffff 0))) :=
  (List.append_nil _).trans (List.append_nil _)

theorem size_crowded : crowded.size = 4295557122 := by
  have root : (DnsName.ofText "").size = 1 := by decide
  have answer (data : Bytes) : (DnsRecord.new (.ofText "") 0 (.other data)).size =
      11 + data.length := by
    rw [DnsRecord.size, DnsRecord.new, RecordData.size, root]
  have questions : sizeSum DnsQuery.size crowded.queries = 0 := rfl
  rw [size, records_crowded, sizeSum_replicate, answer, List.length_replicate, questions, fixedSize]

theorem plain_crowded : crowded.Plain := by
  have root : (DnsName.ofText "").Plain := ⟨⟨_, rfl⟩, by decide, by decide, by decide⟩
  refine ⟨nofun, ?_, Nat.zero_le _, ?_, Nat.zero_le _, Nat.zero_le _⟩
  · intro entry member
    rw [records_crowded] at member
    rw [List.eq_of_mem_replicate member]
    refine ⟨List.forall_mem_singleton.mpr root, ?_, ?_⟩
    · decide
    · exact Nat.le_of_eq List.length_replicate
  · exact Nat.le_of_eq List.length_replicate

/-- A plain message for which less room is planned than it takes. -/
theorem crowded_refused : crowded.Plain ∧ crowded.headerSize = 589826 ∧
    (Packet.single (.dns crowded)).assemble =
      .refuse (.shortBuffer .dns 4295557122 589826) := by
  have planned : crowded.headerSize = 589826 := by rw [headerSize_eq_mod, size_crowded]
  rcases reads_encode plain_crowded with ⟨bytes, encoded, _⟩
  have refused := serialize_of_large encoded (by rw [size_crowded]; decide)
  rw [size_crowded, planned] at refused
  exact ⟨plain_crowded, planned, (assemble_eq crowded).trans refused⟩

end Dns

end PacketStack
