import PacketStack.Exchange.Options
import PacketStack.Wireless.Element
import PacketStack.Wireless.Eapol
import PacketStack.Wireless.Frame

/-!
The forms of wireless frames and of the frames of 802.1X authentication.

The bodies of frames are told apart by a member `type`, the fields of management and control frames
by a member `name`.
-/

namespace PacketStack.Exchange

open Wireless

instance : Encode SequenceHeader where
  encode header := .record [
    field "addr2" header.addr2,
    field "addr3" header.addr3,
    field "addr4" header.addr4,
    field "frag_num" header.fragment,
    field "seq_num" header.sequence,
    field "sequence_control" header.sequenceControl]

instance : Decode SequenceHeader where
  decode value := {
    addr2 := value.read "addr2"
    addr3 := value.read "addr3"
    addr4 := value.read "addr4"
    fragment := value.read "frag_num"
    sequence := value.read "seq_num" }

instance : Encode ManagementFields where
  encode fields :=
    let named (name : String) (members : List (String × Value)) :=
      Value.record (field "name" name :: members)
    let beacon (fields : BeaconFields) := [
      field "timestamp" fields.timestamp,
      field "interval" fields.interval,
      field "capabilities" fields.capabilities]
    let answer (answer : AssociationAnswer) := [
      field "capabilities" answer.capabilities,
      field "status_code" answer.status,
      field "aid" answer.associationId]
    match fields with
    | .beacon fields => named "beacon" (beacon fields)
    | .probeResponse fields => named "probe_response" (beacon fields)
    | .probeRequest => named "probe_request" []
    | .associationRequest capabilities listenInterval =>
        named "assoc_request" [
          field "capabilities" capabilities,
          field "listen_interval" listenInterval]
    | .associationResponse fields => named "assoc_response" (answer fields)
    | .reassociationRequest capabilities listenInterval currentAp =>
        named "reassoc_request" [
          field "capabilities" capabilities,
          field "listen_interval" listenInterval,
          field "current_ap" currentAp]
    | .reassociationResponse fields => named "reassoc_response" (answer fields)
    | .disassociation reason => named "disassoc" [field "reason_code" reason]
    | .deauthentication reason => named "deauth" [field "reason_code" reason]
    | .authentication algorithm sequence status =>
        named "auth" [
          field "algorithm" algorithm,
          field "seq" sequence,
          field "status_code" status]
    | .atim => named "atim" []
    | .other subtype => named "other" [field "id" subtype]

instance : Decode ManagementFields where
  decode value :=
    let capabilities := value.read "capabilities"
    let listenInterval := value.read "listen_interval"
    let beacon : BeaconFields :=
      ⟨value.read "timestamp", value.read "interval", capabilities⟩
    let answer : AssociationAnswer :=
      ⟨capabilities, value.read "status_code", value.read "aid"⟩
    match (value.member "name").string with
    | "beacon" => .beacon beacon
    | "default_beacon" => .newBeacon capabilities
    | "probe_response" => .probeResponse beacon
    | "probe_request" => .probeRequest
    | "assoc_request" => .associationRequest capabilities listenInterval
    | "assoc_response" => .associationResponse answer
    | "reassoc_request" =>
        .reassociationRequest capabilities listenInterval (value.read "current_ap")
    | "reassoc_response" => .reassociationResponse answer
    | "disassoc" => .disassociation (value.read "reason_code")
    | "deauth" => .deauthentication (value.read "reason_code")
    | "auth" =>
        .authentication (value.read "algorithm") (value.read "seq") (value.read "status_code")
    | "atim" => .atim
    | _ => .other (value.read "id")

instance : Encode Control where
  encode control :=
    let named (name : String) (members : List (String × Value)) :=
      Value.record (field "name" name :: members)
    let block (fields : BlockAckFields) := [
      field "ta" fields.transmitter,
      field "bar_control" fields.control,
      field "start_sequence" fields.startSequence]
    match control with
    | .rts transmitter => named "rts" [field "ta" transmitter]
    | .psPoll transmitter => named "ps_poll" [field "ta" transmitter]
    | .cfEnd transmitter => named "cf_end" [field "ta" transmitter]
    | .cfEndAck transmitter => named "cf_end_ack" [field "ta" transmitter]
    | .cts => named "cts" []
    | .ack => named "ack" []
    | .blockAckRequest fields => named "block_ack_request" (block fields)
    | .blockAck fields bitmap => named "block_ack" (field "bitmap" bitmap :: block fields)
    | .other subtype => named "other" [field "id" subtype]

instance : Decode Control where
  decode value :=
    let transmitter := value.read "ta"
    let fields : BlockAckFields :=
      ⟨transmitter, value.read "bar_control", value.read "start_sequence"⟩
    match (value.member "name").string with
    | "rts" => .rts transmitter
    | "ps_poll" => .psPoll transmitter
    | "cf_end" => .cfEnd transmitter
    | "cf_end_ack" => .cfEndAck transmitter
    | "cts" => .cts
    | "ack" => .ack
    | "block_ack_request" => .blockAckRequest fields
    | "block_ack" => .blockAck fields (value.read "bitmap")
    | _ => .other (value.read "id")

instance : Encode Body where
  encode body :=
    let typed (name : String) (members : List (String × Value)) :=
      Value.record (field "type" name :: members)
    match body with
    | .management content =>
        typed "management" [
          field "header" content.header,
          field "fixed" content.fields,
          field "options" content.options]
    | .control content => typed "control" [field "control" content]
    | .data content =>
        typed "data" [
          field "subtype" content.subtype,
          field "header" content.header,
          field "qos_control" content.qosControl,
          field "is_qos" content.isQos,
          field "tid" content.trafficId]
    | .other frameType subtype =>
        typed "other" [field "frame_type" frameType, field "subtype" subtype]

instance : Decode Body where
  decode value :=
    match (value.member "type").string with
    | "management" =>
        .management ⟨value.read "header", value.read "fixed", value.read "options"⟩
    | "control" => .control (value.read "control")
    | "data" => .data ⟨value.read "subtype", value.read "header", value.read "qos_control"⟩
    | _ => .other (value.get "frame_type" 3) (value.read "subtype")

/-- The members of a wireless frame with what its body tells about addresses. -/
def frameMembers (frame : Frame) : List (String × Value) := [
  field "protocol" frame.protocol,
  field "flags" frame.flags.bits,
  field "duration_id" frame.duration,
  field "addr1" frame.addr1,
  field "frame" frame.body,
  ("derived", .record [
    field "frame_type" frame.frameType,
    field "subtype" frame.subtype,
    field "protected" frame.isProtected,
    field "addr2" frame.addr2?,
    field "addr3" frame.addr3?,
    field "addr4" frame.addr4?,
    field "bssid" frame.bssid?,
    field "src_addr" frame.source?,
    field "dst_addr" frame.destination?])]

instance : Decode Frame where
  decode value := {
    protocol := value.read "protocol"
    flags := ⟨value.read "flags"⟩
    duration := value.read "duration_id"
    addr1 := value.read "addr1"
    body := value.read "frame" }

instance : Encode EapolBody where
  encode body :=
    let typed (name : String) (members : List (String × Value)) :=
      Value.record (field "type" name :: members)
    match body with
    | .start => typed "start" []
    | .logoff => typed "logoff" []
    | .eap eap =>
        typed "eap" [field "code" eap.code, field "id" eap.id, field "eap_type" eap.method]
    | .rc4Key key =>
        typed "rc4_key" [
          field "key_length" key.keyLength,
          field "replay_counter" key.replayCounter,
          field "key_iv" key.iv,
          field "key_index" key.index,
          field "key_flag" key.isUnicast,
          field "key_sign" key.signature,
          field "key" key.key]
    | .rsnKey key =>
        typed "rsn_key" [
          field "descriptor_type" key.descriptorType,
          field "key_info" key.info.bits,
          field "key_length" key.keyLength,
          field "replay_counter" key.replayCounter,
          field "nonce" key.nonce,
          field "key_iv" key.iv,
          field "rsc" key.sequenceCounter,
          field "id" key.id,
          field "mic" key.mic,
          field "key_data" key.keyData,
          field "descriptor_version" key.info.descriptorVersion,
          field "key_index" key.info.keyIndex]
    | .other packetType => typed "other" [field "packet_type" packetType]

instance : Decode EapolBody where
  decode value :=
    match (value.member "type").string with
    | "logoff" => .logoff
    | "eap" => .eap ⟨value.read "code", value.read "id", value.get? "eap_type"⟩
    | "rc4_key" =>
        .rc4Key {
          keyLength := value.read "key_length"
          replayCounter := value.read "replay_counter"
          iv := value.read "key_iv"
          index := value.read "key_index"
          isUnicast := value.read "key_flag"
          signature := value.read "key_sign"
          key := value.read "key" }
    | "rsn_key" =>
        .rsnKey {
          descriptorType := value.get "descriptor_type" RsnKey.robustDescriptor
          info := ⟨value.read "key_info"⟩
          keyLength := value.read "key_length"
          replayCounter := value.read "replay_counter"
          nonce := value.read "nonce"
          iv := value.read "key_iv"
          sequenceCounter := value.read "rsc"
          id := value.read "id"
          mic := value.read "mic"
          keyData := value.read "key_data" }
    | "other" => .other (value.read "packet_type")
    | _ => .start

instance : Decode Eapol where
  decode value := ⟨value.get "version" (default : Eapol).version, value.read "body"⟩

instance : Encode Rate := ⟨fun rate => .text rate.text⟩

instance : Decode Rate where
  decode
    | .number mbps => .ofMbps (Float.ofInt mbps).toFloat32
    | .decimal mantissa places =>
        let size := (Float.ofScientific mantissa.natAbs true places).toFloat32
        .ofMbps (if mantissa < 0 then -size else size)
    | _ => .ofMbps 0

instance : Encode TrafficMap where
  encode map := .record [
    field "dtim_count" map.count,
    field "dtim_period" map.period,
    field "bitmap_control" map.control,
    field "bitmap" map.bitmap]

instance : Decode TrafficMap where
  decode value := ⟨value.read "dtim_count", value.read "dtim_period",
    value.read "bitmap_control", value.read "bitmap"⟩

instance : Encode CountryTriplet where
  encode triplet := .list [encode triplet.firstChannel, encode triplet.channels,
    encode triplet.maximumPower]

instance : Decode CountryTriplet where
  decode value := ⟨decode (value.item 0), decode (value.item 1), decode (value.item 2)⟩

instance : Encode Country where
  encode country := .record [field "country" country.code, field "triplets" country.triplets]

instance : Decode Country := ⟨fun value => ⟨value.read "country", value.read "triplets"⟩⟩

instance : Encode BssLoad where
  encode load := .record [
    field "station_count" load.stations,
    field "channel_utilization" load.utilization,
    field "available_capacity" load.capacity]

instance : Decode BssLoad where
  decode value := ⟨value.read "station_count", value.read "channel_utilization",
    value.read "available_capacity"⟩

instance : Encode ChannelSwitch where
  encode switch := .record [
    field "switch_mode" switch.mode,
    field "new_channel" switch.channel,
    field "switch_count" switch.count]

instance : Decode ChannelSwitch where
  decode value := ⟨value.read "switch_mode", value.read "new_channel",
    value.read "switch_count"⟩

instance : Encode VendorSpecific where
  encode vendor := .record [field "oui" vendor.organization, field "data" vendor.data]

instance : Decode VendorSpecific := ⟨fun value => ⟨value.read "oui", value.read "data"⟩⟩

instance : Encode RsnInformation where
  encode rsn := .record [
    field "version" rsn.version,
    field "group_suite" rsn.groupSuite.id,
    field "pairwise_ciphers" (rsn.pairwiseSuites.map (·.id)),
    field "akm_ciphers" (rsn.akmSuites.map (·.id)),
    field "capabilities" rsn.capabilities]

instance : Decode RsnInformation where
  decode
    | .text _ => .personal
    | value =>
        let base : RsnInformation := default
        { version := value.get "version" base.version
          groupSuite := ⟨value.get "group_suite" base.groupSuite.id⟩
          pairwiseSuites := (value.read "pairwise_ciphers" : List UInt32).map CipherSuite.mk
          akmSuites := (value.read "akm_ciphers" : List UInt32).map AkmSuite.mk
          capabilities := value.get "capabilities" base.capabilities }

structure NamedElement where
  name : String
  get : OptionList → Value
  set : Value → OptionList → OptionList

def NamedElement.of {α : Type} [Encode α] [Decode α] (name : String)
    (get : OptionList → Outcome α) (set : α → OptionList → OptionList) : NamedElement where
  name := name
  get options := encode (get options)
  set value := set (decode value)

open Element in
def elements : List NamedElement :=
  let byte (name : String) (tag : UInt8) := NamedElement.of name (byteOf tag) (setByte tag)
  let rates (name : String) (tag : UInt8) := NamedElement.of name (ratesOf tag) (setRates tag)
  [.of "ssid" ssid setSsid,
    rates "supported_rates" supportedRatesTag,
    rates "extended_supported_rates" extendedRatesTag,
    byte "ds_parameter_set" channelTag,
    .of "tim" trafficMap setTrafficMap,
    .of "country" country setCountry,
    .of "bss_load" bssLoad setBssLoad,
    .of "challenge_text" challengeText setChallengeText,
    .of "power_capability" powerCapability fun (least, greatest) =>
      setPowerCapability least greatest,
    .of "channel_switch" channelSwitch setChannelSwitch,
    byte "erp_information" erpTag,
    byte "qos_capability" qosTag,
    .of "rsn_information" rsnInformation setRsnInformation,
    .of "vendor_specific" vendorSpecific addVendorSpecific]

end PacketStack.Exchange
