import PacketStack.Protection.SessionKeys
import PacketStack.Wireless.Element

/-!
Protection by WPA2 with a passphrase: the keys of stations are learned from what they send, and
the frames between stations with known keys are decrypted.

A network is known by its passphrase, its access points by what they announce, and the keys of a
station by its handshake with one of those access points.
-/

namespace PacketStack

structure Wpa2Monitor where
  capture : Handshake.Capture
  networks : Table String MasterKey
  /-- The name of the network of each access point. -/
  accessPoints : Table HwAddress String
  keys : Table StationPair SessionKeys
  deriving DecidableEq

namespace Wpa2Monitor

inductive Event where
  | accessPoint (ssid : String) (bssid : HwAddress)
  /-- A handshake gave the keys of a client. -/
  | handshake (ssid : String) (bssid client : HwAddress)
  deriving DecidableEq, Repr

def empty : Wpa2Monitor := ⟨.empty, [], [], []⟩

def addNetwork (monitor : Wpa2Monitor) (passphrase ssid : String) : Wpa2Monitor :=
  { monitor with networks := monitor.networks.set ssid (.ofPassphrase passphrase ssid) }

def addAccessPoint (monitor : Wpa2Monitor) (ssid : String) (bssid : HwAddress) :
    Except ProtectionError (Wpa2Monitor × List Event) :=
  if monitor.networks.contains ssid then
    .ok ({ monitor with accessPoints := monitor.accessPoints.set bssid ssid },
      [.accessPoint ssid bssid])
  else .error (.unknownNetwork ssid)

def addNetworkAt (monitor : Wpa2Monitor) (passphrase ssid : String) (bssid : HwAddress) :
    Except ProtectionError (Wpa2Monitor × List Event) :=
  (monitor.addNetwork passphrase ssid).addAccessPoint ssid bssid

def addKeys (monitor : Wpa2Monitor) (stations : StationPair) (keys : SessionKeys) : Wpa2Monitor :=
  { monitor with keys := monitor.keys.set stations keys }

def announcement? (frame : Wireless.Frame) : Option (HwAddress × String) := do
  let management ← frame.management?
  if management.fields.subtype = 8 ∨ management.fields.subtype = 5 then
    return (management.header.addr3, ← (Wireless.Element.ssid management.options).value?)
  else none

def discover (monitor : Wpa2Monitor) (frame : Wireless.Frame) : Wpa2Monitor × List Event :=
  match announcement? frame with
  | none => (monitor, [])
  | some (bssid, ssid) =>
      if monitor.accessPoints.contains bssid then (monitor, [])
      else match monitor.addAccessPoint ssid bssid with
        | .ok learned => learned
        | .error _ => (monitor, [])

/-- Takes over the keys of a handshake with a known access point whose last message is in a frame,
if they can be had from it. -/
def learnKeys (monitor : Wpa2Monitor) (frame : Wireless.Frame) (handshake : Handshake) :
    Wpa2Monitor × List Event :=
  let learned := do
    let bssid ← frame.bssid?
    let ssid ← monitor.accessPoints.get? bssid
    let master ← monitor.networks.get? ssid
    let keys ← (SessionKeys.ofHandshake handshake master).toOption
    let client := handshake.stations.other bssid
    return (monitor.addKeys handshake.stations keys, [Event.handshake ssid bssid client])
  learned.getD (monitor, [])

def learnAll (monitor : Wpa2Monitor) (frame : Wireless.Frame) :
    List Handshake → Wpa2Monitor × List Event
  | [] => (monitor, [])
  | handshake :: rest =>
      let (monitor, events) := monitor.learnKeys frame handshake
      let (monitor, later) := monitor.learnAll frame rest
      (monitor, events ++ later)

/-- The pairs of stations of which one has the key of a data frame: the source with the access
point, then the destination with it. -/
def candidates (frame : Wireless.Frame) : List StationPair :=
  match frame.data? with
  | none => []
  | some data =>
      let ⟨addr2, addr3, _, _, _⟩ := data.header
      match frame.flags.contains .toDs, frame.flags.contains .fromDs with
      | true, false => [.of frame.addr1 addr2, .of frame.addr1 addr3]
      | false, true => [.of addr2 addr3, .of frame.addr1 addr2]
      | _, _ => [.of addr2 addr3, .of frame.addr1 addr3]

def decrypt? (monitor : Wpa2Monitor) (packet : Packet) : Option Packet := do
  let found ← Protection.ProtectedFrame.ofPacket? packet
  let keys ← (candidates found.frame).findSome? fun stations => monitor.keys.get? stations
  Protection.attach? packet (← keys.decrypt? found.frame found.payload)

/-- What a packet does to what is known, and its decrypted form. -/
structure Observation where
  monitor : Wpa2Monitor
  events : List Event
  decrypted? : Option Packet
  deriving DecidableEq

/-- Learns from a packet what it tells, and decrypts it unless it completes a handshake. -/
def process (monitor : Wpa2Monitor) (packet : Packet) : Observation :=
  let (completes, capture) := monitor.capture.process packet
  match packet.findLayer? .dot11 with
  | some (.dot11 frame) =>
      if completes then
        let (monitor, events) :=
          { monitor with capture := capture.clear }.learnAll frame capture.complete
        ⟨monitor, events, none⟩
      else
        let (monitor, events) := { monitor with capture }.discover frame
        ⟨monitor, events, monitor.decrypt? packet⟩
  | _ => ⟨{ monitor with capture }, [], none⟩

end Wpa2Monitor

end PacketStack
