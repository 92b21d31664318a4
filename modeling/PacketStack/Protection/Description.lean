import PacketStack.Protection.Wpa2
import PacketStack.Text.Quoted

/-!
What is known of the networks on the air, in one line.
-/

namespace PacketStack

def StationPair.describe (stations : StationPair) : String :=
  Text.tuple "AddressPair" (stations.lower.describe ++ ", " ++ stations.upper.describe)

def RsnKey.describe (key : RsnKey) : String :=
  Text.record "RsnKey" [
    ("descriptor_type", toString key.descriptorType),
    ("key_info", key.info.text),
    ("key_length", toString key.keyLength),
    ("replay_counter", toString key.replayCounter),
    ("nonce", Text.numbers key.nonce.bytes),
    ("key_iv", Text.numbers key.iv.bytes),
    ("rsc", Text.numbers key.sequenceCounter.bytes),
    ("id", Text.numbers key.id.bytes),
    ("mic", Text.numbers key.mic.bytes),
    ("key_data", Text.numbers key.keyData)]

def KeyFrame.describe (frame : KeyFrame) : String :=
  Text.record "Eapol" [
    ("version", toString frame.version),
    ("body", Text.tuple "RsnKey" frame.key.describe)]

namespace Handshake

def describe (handshake : Handshake) : String :=
  Text.record "EapolHandshake" [
    ("addresses", handshake.stations.describe),
    ("messages", Text.list (handshake.messages.map KeyFrame.describe))]

def Capture.describe (capture : Capture) : String :=
  Text.record "HandshakeCapturer" [
    ("pending", Text.table (capture.pending.map fun (stations, progress) =>
      (stations.describe, Text.list (progress.messages.map KeyFrame.describe)))),
    ("completed", Text.list (capture.complete.map Handshake.describe))]

end Handshake

def Wpa2Monitor.describe (monitor : Wpa2Monitor) : String :=
  Text.openRecord "Wpa2Decrypter" [
    ("capturer", monitor.capture.describe),
    ("networks", Text.list (monitor.networks.keys.map Text.escaped)),
    ("access_points", Text.table (monitor.accessPoints.map fun (bssid, ssid) =>
      (bssid.describe, Text.escaped ssid))),
    ("keys", Text.table (monitor.keys.map fun (stations, keys) =>
      (stations.describe, keys.describe)))]

end PacketStack
