import PacketStack.Exchange.Packet
import PacketStack.Protection.Description
import PacketStack.Protection.Relay
import PacketStack.Protection.Wep

/-!
The forms of handshakes, keys and what is learned about networks.
-/

namespace PacketStack.Exchange

instance : Encode StationPair := ⟨fun stations => encode (stations.lower, stations.upper)⟩

instance : Decode StationPair := ⟨fun value => .of (decode (value.item 0)) (decode (value.item 1))⟩

instance : Encode KeyFrame := ⟨fun frame => encode (Layer.eapol frame.eapol)⟩

instance : Encode Handshake where
  encode handshake := .record [
    field "addresses" handshake.stations,
    field "messages" handshake.messages]

instance : Decode Cipher where
  decode value := if value.string = Cipher.tkip.text then .tkip else .ccmp

instance : Encode SessionKeys where
  encode keys := .record [
    field "ptk" keys.material,
    field "cipher" keys.cipher.text,
    field "tk" keys.temporalKey]

instance : Decode SessionKeys := ⟨fun value => ⟨value.read "ptk", value.read "cipher"⟩⟩

instance : Encode ProtectionError where
  encode cause :=
    let kind := match cause with
      | .noMessage _ | .wrongCode _ => "InvalidHandshake"
      | .unknownNetwork _ => "UnknownSsid"
      | .tooLong => "PacketError"
    failure kind cause.message

instance {α : Type} [Encode α] : Encode (Except ProtectionError α) where
  encode
    | .ok value => encode value
    | .error cause => encode cause

instance encodeMonitorEvent : Encode Wpa2Monitor.Event where
  encode
    | .accessPoint ssid bssid => .list [encode "ap", encode ssid, encode bssid]
    | .handshake ssid bssid client =>
        .list [encode "handshake", encode ssid, encode bssid, encode client]

end PacketStack.Exchange
