import PacketStack.Application.Dhcp
import PacketStack.Application.Dns
import PacketStack.Exchange.Options

/-!
The forms of DNS and DHCP messages.
-/

namespace PacketStack.Exchange

instance : Encode DnsName := ⟨fun name => .text name.text⟩

instance : Decode DnsName := ⟨fun value => .ofText value.string⟩

instance : Encode DnsQuery where
  encode query := .record [
    field "name" query.name,
    field "type" query.type.id,
    field "class" query.queryClass]

instance : Decode DnsQuery where
  decode value := ⟨value.read "name", ⟨value.get "type" RecordType.a.id⟩,
    value.get "class" dnsClassInternet⟩

instance : Encode RecordData where
  encode data := .record <| match data with
    | .ipv4 address => [field "a" address]
    | .ipv6 address => [field "aaaa" address]
    | .name target => [field "name" target]
    | .exchange preference host => [field "mx" (preference, host)]
    | .other data => [field "raw" data]

instance : Decode RecordData where
  decode value :=
    if let some address := value.get? "a" then .ipv4 address
    else if let some address := value.get? "aaaa" then .ipv6 address
    else if let some target := value.get? "name" then .name target
    else if let some (preference, host) := value.get? (α := UInt16 × DnsName) "mx" then
      .exchange preference host
    else .other (value.read "raw")

instance : Encode DnsRecord where
  encode record := .record [
    field "name" record.name,
    field "type" record.type.id,
    field "class" record.recordClass,
    field "ttl" record.ttl,
    field "data" record.data]

instance : Decode DnsRecord where
  decode value :=
    let record := DnsRecord.new (value.read "name") (value.read "ttl") (value.read "data")
    { record with
      type := ⟨value.get "type" record.type.id⟩
      recordClass := value.get "class" record.recordClass }

def dnsMembers (dns : Dns) : List (String × Value) := [
  field "id" dns.id,
  field "flags" dns.flags.bits,
  field "queries" dns.queries,
  field "answers" dns.answers,
  field "authority" dns.authority,
  field "additional" dns.additional,
  ("derived", .record [
    field "is_response" dns.isResponse,
    field "opcode" dns.flags.opcode,
    field "rcode" dns.flags.responseCode])]

instance : Decode Dns where
  decode value :=
    let start : Dns := match value.member "query" with
      | .list [id, name, type] => .query (decode id) (decode name) ⟨decode type⟩
      | _ =>
        { (default : Dns) with
          id := value.read "id"
          flags := ⟨value.read "flags"⟩
          queries := value.read "queries"
          answers := value.read "answers" }
    let dns := { start with
      authority := value.read "authority"
      additional := value.read "additional" }
    match value.get? "response" with
    | some answers => dns.respond answers
    | none => dns

instance : Encode DhcpMessageType := ⟨fun type => encode type.id⟩

instance : Decode DhcpMessageType where
  decode value := (DhcpMessageType.ofId (decode value)).value?.getD .discover

def dhcpMembers (dhcp : Dhcp) : List (String × Value) := [
  field "opcode" dhcp.opcode,
  field "htype" dhcp.hardwareType,
  field "hlen" dhcp.hardwareLength,
  field "hops" dhcp.hops,
  field "xid" dhcp.transaction,
  field "secs" dhcp.seconds,
  field "flags" dhcp.flags,
  field "ciaddr" dhcp.clientAddress,
  field "yiaddr" dhcp.yourAddress,
  field "siaddr" dhcp.serverAddress,
  field "giaddr" dhcp.gatewayAddress,
  field "chaddr" dhcp.clientHardware,
  field "sname" dhcp.serverName,
  field "file" dhcp.file,
  field "options" dhcp.options,
  ("derived", .record [field "client_hw_addr" dhcp.clientHwAddress])]

instance : Decode Dhcp where
  decode value :=
    let base : Dhcp := match value.member "request" with
      | .list [type, transaction, client] =>
          .request (decode type) (decode transaction) (decode client)
      | _ => default
    { opcode := value.get "opcode" base.opcode
      hardwareType := value.get "htype" base.hardwareType
      hardwareLength := value.get "hlen" base.hardwareLength
      hops := value.get "hops" base.hops
      transaction := value.get "xid" base.transaction
      seconds := value.get "secs" base.seconds
      flags := value.get "flags" base.flags
      clientAddress := value.get "ciaddr" base.clientAddress
      yourAddress := value.get "yiaddr" base.yourAddress
      serverAddress := value.get "siaddr" base.serverAddress
      gatewayAddress := value.get "giaddr" base.gatewayAddress
      clientHardware := value.get "chaddr" base.clientHardware
      serverName := value.get "sname" base.serverName
      file := value.get "file" base.file
      options := value.get "options" base.options }

structure NamedSetting where
  name : String
  get : Dhcp → Value
  set : Dhcp → Value → Dhcp

def NamedSetting.of {α : Type} [Encode α] [Decode α] (name : String)
    (get : Dhcp → Outcome α) (set : Dhcp → α → Dhcp) : NamedSetting where
  name := name
  get dhcp := encode (get dhcp)
  set dhcp value := set dhcp (decode value)

def settings : List NamedSetting :=
  let address (name : String) (option : Dhcp.AddressOption) :=
    NamedSetting.of name (·.address option) (·.setAddress option)
  let addresses (name : String) (option : Dhcp.AddressListOption) :=
    NamedSetting.of name (·.addresses option) (·.setAddresses option)
  let time (name : String) (option : Dhcp.TimeOption) :=
    NamedSetting.of name (·.time option) (·.setTime option)
  let text (name : String) (option : Dhcp.TextOption) :=
    NamedSetting.of name (·.text option) (·.setText option)
  [.of "message_type" Dhcp.messageType Dhcp.setMessageType,
    address "server_identifier" .serverIdentifier,
    time "lease_time" .leaseTime,
    time "renewal_time" .renewalTime,
    time "rebind_time" .rebindTime,
    address "subnet_mask" .subnetMask,
    addresses "routers" .routers,
    addresses "domain_name_servers" .domainNameServers,
    address "broadcast" .broadcast,
    address "requested_ip" .requestedIp,
    text "domain_name" .domainName,
    text "hostname" .hostname,
    ⟨"client_hw_addr", fun dhcp => encode dhcp.clientHwAddress,
      fun dhcp value => dhcp.setClientHwAddress (decode value)⟩]

end PacketStack.Exchange
