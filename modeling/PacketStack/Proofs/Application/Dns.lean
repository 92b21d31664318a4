import PacketStack.Application.Dns
import PacketStack.Proofs.Outcome

/-!
The sizes of encoded domain messages.

Main statements: `Dns.length_of_encode` says that a message takes the room that is planned for it,
`Dns.faultless_encode` that one which cannot be encoded is refused.
-/

namespace PacketStack

theorem length_flatMap_eq_sizeSum {α : Type} {size : α → Nat} {encode : α → Bytes}
    (each : ∀ item, (encode item).length = size item) (items : List α) :
    (items.flatMap encode).length = sizeSum size items := by
  induction items with
  | nil => rfl
  | cons item rest ih => rw [List.flatMap_cons, List.length_append, each, ih, sizeSum]

section Items

variable {α : Type} {size : α → Nat} {encode : α → Outcome Bytes}

theorem length_flatten_of_mapM
    (each : ∀ item part, encode item = .ok part → part.length = size item) {items : List α}
    {parts : List Bytes} (encoded : items.mapM encode = .ok parts) :
    parts.flatten.length = sizeSum size items := by
  induction items generalizing parts with
  | nil =>
      cases encoded
      rfl
  | cons item rest ih =>
      simp only [List.mapM_cons, Outcome.bind_eq_ok] at encoded
      rcases encoded with ⟨part, first, others, behind, result⟩
      cases result
      rw [List.flatten_cons, List.length_append, each item part first, ih behind, sizeSum]

theorem faultless_mapM (each : ∀ item, (encode item).Faultless) (items : List α) :
    Outcome.Faultless (items.mapM encode) := by
  induction items with
  | nil => exact Outcome.faultless_ok []
  | cons item rest ih =>
      rw [List.mapM_cons]
      apply (each item).bind
      intro part _
      apply ih.bind
      intro parts _
      exact Outcome.faultless_ok _

end Items

namespace DnsName

theorem length_of_encode {name : DnsName} {bytes : Bytes} (encoded : name.encode = .ok bytes) :
    bytes.length = name.size := by
  unfold encode at encoded
  split at encoded
  · cases encoded
  · split at encoded
    · cases encoded
    · cases encoded
      have labels : (name.labels.flatMap labelBytes).length =
          sizeSum (fun label => label.length + 1) name.labels :=
        length_flatMap_eq_sizeSum (fun _ => rfl) name.labels
      rw [List.length_append, labels, size, List.length_singleton]

theorem faultless_encode (name : DnsName) : name.encode.Faultless := by
  unfold encode
  split
  · exact Outcome.faultless_malformed _
  · split
    · exact Outcome.faultless_malformed _
    · exact Outcome.faultless_ok _

end DnsName

namespace DnsQuery

theorem length_of_encode {query : DnsQuery} {bytes : Bytes} (encoded : query.encode = .ok bytes) :
    bytes.length = query.size := by
  simp only [encode, Outcome.bind_eq_ok] at encoded
  rcases encoded with ⟨name, named, result⟩
  cases result
  simp only [List.length_append, Bytes.length_ofNatBE, DnsName.length_of_encode named, size]

theorem faultless_encode (query : DnsQuery) : query.encode.Faultless :=
  query.name.faultless_encode.bind fun _ _ => Outcome.faultless_ok _

end DnsQuery

namespace RecordData

theorem length_of_encode {data : RecordData} {bytes : Bytes} (encoded : data.encode = .ok bytes) :
    bytes.length = data.size := by
  cases data with
  | ipv4 address =>
      cases encoded
      exact address.length_octets
  | ipv6 address =>
      cases encoded
      exact address.length_octets
  | name target => exact DnsName.length_of_encode encoded
  | exchange preference host =>
      simp only [encode, Outcome.bind_eq_ok] at encoded
      rcases encoded with ⟨name, named, result⟩
      cases result
      simp only [List.length_append, Bytes.length_ofNatBE, DnsName.length_of_encode named, size]
  | other data =>
      cases encoded
      rfl

theorem faultless_encode (data : RecordData) : data.encode.Faultless := by
  cases data with
  | ipv4 address => exact Outcome.faultless_ok _
  | ipv6 address => exact Outcome.faultless_ok _
  | name target => exact target.faultless_encode
  | exchange preference host =>
      exact host.faultless_encode.bind fun _ _ => Outcome.faultless_ok _
  | other data => exact Outcome.faultless_ok _

end RecordData

namespace DnsRecord

theorem length_of_encode {record : DnsRecord} {bytes : Bytes}
    (encoded : record.encode = .ok bytes) : bytes.length = record.size := by
  simp only [encode, Outcome.bind_eq_ok] at encoded
  rcases encoded with ⟨name, named, _, _, data, content, result⟩
  cases result
  simp only [List.length_append, Bytes.length_ofNatBE, DnsName.length_of_encode named,
    RecordData.length_of_encode content, size]

theorem faultless_encode (record : DnsRecord) : record.encode.Faultless := by
  apply record.name.faultless_encode.bind
  intro name _
  apply Outcome.faultless_demand.bind
  intro _ _
  apply record.data.faultless_encode.bind
  intro data _
  exact Outcome.faultless_ok _

end DnsRecord

namespace Dns

theorem length_of_countBytes {entries : DnsSection} {count : Nat} {bytes : Bytes}
    (counted : countBytes entries count = .ok bytes) : bytes.length = 2 := by
  unfold countBytes at counted
  split at counted
  · cases counted
  · cases counted
    exact Bytes.length_ofNatBE 2 count

theorem faultless_countBytes (entries : DnsSection) (count : Nat) :
    (countBytes entries count).Faultless := by
  unfold countBytes
  split
  · exact Outcome.faultless_malformed _
  · exact Outcome.faultless_ok _

theorem length_of_encode {dns : Dns} {bytes : Bytes} (encoded : dns.encode = .ok bytes) :
    bytes.length = dns.size := by
  simp only [encode, Outcome.bind_eq_ok] at encoded
  rcases encoded with ⟨queries, queryCount, answers, answerCount, authority, authorityCount,
    additional, additionalCount, questions, asked, records, recorded, result⟩
  cases result
  have questionSize := length_flatten_of_mapM (fun _ _ => DnsQuery.length_of_encode) asked
  have recordSize := length_flatten_of_mapM (fun _ _ => DnsRecord.length_of_encode) recorded
  simp only [List.length_append, Bytes.length_ofNatBE, length_of_countBytes queryCount,
    length_of_countBytes answerCount, length_of_countBytes authorityCount,
    length_of_countBytes additionalCount, questionSize, recordSize, size, fixedSize]

theorem faultless_encode (dns : Dns) : dns.encode.Faultless := by
  apply (faultless_countBytes _ _).bind
  intro queries _
  apply (faultless_countBytes _ _).bind
  intro answers _
  apply (faultless_countBytes _ _).bind
  intro authority _
  apply (faultless_countBytes _ _).bind
  intro additional _
  apply (faultless_mapM DnsQuery.faultless_encode _).bind
  intro questions _
  apply (faultless_mapM DnsRecord.faultless_encode _).bind
  intro records _
  exact Outcome.faultless_ok _

end Dns

end PacketStack
