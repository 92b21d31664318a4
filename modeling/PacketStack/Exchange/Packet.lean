import PacketStack.Exchange.Application
import PacketStack.Exchange.Wireless
import PacketStack.Packet

/-!
The forms of layers and packets. A layer is a record whose member `layer` names its kind; what can
be derived from the other members stands under `derived` and is not read.
-/

namespace PacketStack.Exchange

/-- The members of a layer besides its kind. -/
def layerMembers : Layer → List (String × Value)
  | .ethernet layer => [
      field "dst" layer.destination,
      field "src" layer.source,
      field "payload_type" layer.payloadType]
  | .dot11 layer => frameMembers layer
  | .radioTap layer => [
      field "header" layer.header,
      ("derived", .record [
        field "version" layer.version,
        field "present" layer.present,
        field "tsft" layer.timestamp?,
        field "flags" (layer.flags?.map (·.bits)),
        field "rate" layer.rate?,
        field "channel" layer.channel?,
        field "dbm_signal" layer.signal?,
        field "dbm_noise" layer.noise?,
        field "antenna" layer.antenna?,
        field "has_fcs" layer.hasFcs])]
  | .snap layer => [
      field "control" layer.control,
      field "org_code" layer.organization,
      field "eth_type" layer.payloadType]
  | .sll layer => [
      field "packet_type" layer.packetType,
      field "lladdr_type" layer.addressType,
      field "lladdr_len" layer.addressLength,
      field "address" layer.address,
      field "protocol" layer.protocol]
  | .loopback layer => [field "family" layer.family]
  | .arp layer => [
      field "operation" layer.operation.id,
      field "sender_hw_addr" layer.senderHardware,
      field "sender_ip_addr" layer.sender,
      field "target_hw_addr" layer.targetHardware,
      field "target_ip_addr" layer.target]
  | .ipv4 layer => [
      field "src" layer.source,
      field "dst" layer.destination,
      field "tos" layer.tos,
      field "identification" layer.identification,
      field "flags_and_fragment_offset" layer.flagsAndFragmentOffset,
      field "ttl" layer.ttl,
      field "protocol" layer.protocol.id,
      field "options" layer.options,
      field "checksum" layer.checksum,
      ("derived", .record [
        field "dont_fragment" layer.dontFragment,
        field "more_fragments" layer.moreFragments,
        field "fragment_offset" layer.fragmentOffset,
        field "is_fragmented" layer.isFragmented])]
  | .ipv6 layer => [
      field "src" layer.source,
      field "dst" layer.destination,
      field "traffic_class" layer.trafficClass,
      field "flow_label" layer.flowLabel,
      field "next_header" layer.nextHeader.id,
      field "hop_limit" layer.hopLimit]
  | .tcp layer => [
      field "sport" layer.sourcePort,
      field "dport" layer.destinationPort,
      field "seq" layer.sequence,
      field "ack_seq" layer.acknowledgement,
      field "flags" layer.flags.bits,
      field "window" layer.window,
      field "urgent_ptr" layer.urgentPointer,
      field "checksum" layer.checksum,
      field "options" layer.options,
      ("derived", .record [
        field "mss" layer.mss,
        field "window_scale" layer.windowScale,
        field "timestamp" layer.timestamp])]
  | .udp layer => [
      field "sport" layer.sourcePort,
      field "dport" layer.destinationPort,
      field "checksum" layer.checksum]
  | .icmp layer => [
      field "type" layer.type.id,
      field "code" layer.code,
      field "identifier" layer.identifier,
      field "sequence" layer.sequence,
      field "checksum" layer.checksum]
  | .dns layer => dnsMembers layer
  | .dhcp layer => dhcpMembers layer
  | .eapol layer => [
      field "version" layer.version,
      field "body" layer.body,
      ("derived", .record [field "packet_type" layer.body.packetType])]
  | .raw layer => [field "payload" layer.payload]

instance : Encode Layer where
  encode layer := .record (field "layer" layer.kind :: layerMembers layer)

instance : Encode Packet := ⟨fun packet => encode packet.toList⟩

instance : Decode Arp where
  decode value :=
    match value.member "request", value.member "reply" with
    | .list [target, sender, hardware], _ =>
        .request (decode target) (decode sender) (decode hardware)
    | _, .list [target, sender, targetHardware, senderHardware] =>
        .reply (decode target) (decode sender) (decode targetHardware) (decode senderHardware)
    | _, _ =>
      { operation := .ofId (value.get "operation" ArpOperation.request.id)
        senderHardware := value.read "sender_hw_addr"
        sender := value.read "sender_ip_addr"
        targetHardware := value.read "target_hw_addr"
        target := value.read "target_ip_addr" }

instance : Decode Ipv4 where
  decode value :=
    let base := Ipv4.new (value.read "dst") (value.read "src")
    { base with
      tos := value.get "tos" base.tos
      identification := value.get "identification" base.identification
      flagsAndFragmentOffset := value.get "flags_and_fragment_offset" base.flagsAndFragmentOffset
      ttl := value.get "ttl" base.ttl
      protocol := .ofId (value.get "protocol" base.protocol.id)
      options := value.read "options"
      checksum := value.get "checksum" base.checksum }

instance : Decode Ipv6 where
  decode value :=
    let base := Ipv6.new (value.read "dst") (value.read "src")
    { base with
      trafficClass := value.get "traffic_class" base.trafficClass
      flowLabel := value.get "flow_label" base.flowLabel
      nextHeader := .ofId (value.get "next_header" base.nextHeader.id)
      hopLimit := value.get "hop_limit" base.hopLimit }

instance : Decode Tcp where
  decode value :=
    let base := Tcp.new (value.read "dport") (value.read "sport")
    { base with
      sequence := value.get "seq" base.sequence
      acknowledgement := value.get "ack_seq" base.acknowledgement
      flags := ⟨value.get "flags" base.flags.bits⟩
      window := value.get "window" base.window
      urgentPointer := value.get "urgent_ptr" base.urgentPointer
      options := value.read "options"
      checksum := value.get "checksum" base.checksum }

instance : Decode Icmp where
  decode value :=
    let base : Icmp := match value.member "echo_request" with
      | .list [identifier, sequence] => .echoRequest (decode identifier) (decode sequence)
      | _ => default
    { type := .ofId (value.get "type" base.type.id)
      code := value.get "code" base.code
      identifier := value.get "identifier" base.identifier
      sequence := value.get "sequence" base.sequence
      checksum := value.get "checksum" base.checksum }

instance : Decode CookedCapture where
  decode value := {
    packetType := value.read "packet_type"
    addressType := value.read "lladdr_type"
    addressLength := value.read "lladdr_len"
    address := value.read "address"
    protocol := value.read "protocol" }

instance : Decode Snap where
  decode value :=
    let base : Snap := default
    { control := value.get "control" base.control
      organization := value.get "org_code" base.organization
      payloadType := value.get "eth_type" base.payloadType }

def radioTapOf (value : Value) : Outcome RadioTap :=
  if let some flags := value.get? "with_flags" then .ok (.withFlags ⟨flags⟩)
  else if let some bytes := value.get? "header" then
    (RadioTap.decode bytes).map fun decoded => decoded.header
  else .ok default

/-- The layer that a record stands for. -/
def layerOf (value : Value) : Outcome Layer :=
  match (value.read "layer" : Kind) with
  | .ethernet =>
      .ok (.ethernet ⟨value.read "dst", value.read "src", value.read "payload_type"⟩)
  | .dot11 => .ok (.dot11 (decode value))
  | .radioTap => (radioTapOf value).map .radioTap
  | .snap => .ok (.snap (decode value))
  | .sll => .ok (.sll (decode value))
  | .loopback => .ok (.loopback ⟨value.read "family"⟩)
  | .arp => .ok (.arp (decode value))
  | .ipv4 => .ok (.ipv4 (decode value))
  | .ipv6 => .ok (.ipv6 (decode value))
  | .tcp => .ok (.tcp (decode value))
  | .udp => .ok (.udp ⟨value.read "sport", value.read "dport", value.read "checksum"⟩)
  | .icmp => .ok (.icmp (decode value))
  | .dns => .ok (.dns (decode value))
  | .dhcp => .ok (.dhcp (decode value))
  | .eapol => .ok (.eapol (decode value))
  | .raw => .ok (.raw ⟨value.read "payload"⟩)

def packetOf (value : Value) : Outcome Packet := do
  if value.has "layers" then
    match ← (value.member "layers").items.mapM layerOf with
    | [] => return .raw []
    | first :: rest => return .ofList first rest
  else if let some link := value.get? "link" then
    Packet.ofLinkBytes (.ofId link) (value.read "bytes")
  else Packet.parse (value.read "kind") (value.read "bytes")

def sizes (packet : Packet) : Value := .record [
  field "kinds" (packet.toList.map fun layer => layer.kind.text),
  field "header_sizes" (packet.toList.map Layer.headerSize),
  field "trailer_sizes" (packet.nodes.map Packet.trailerSize),
  field "total_size" packet.totalSize]

end PacketStack.Exchange
