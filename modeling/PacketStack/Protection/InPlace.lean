import PacketStack.Protection.Wep
import PacketStack.Protection.Wpa2

/-!
Decryption step by step, of a packet that is changed where it stands.

Each step reads the packet as the steps before it left it, so whether a packet that cannot be
decrypted stays as it is depends on the order of the steps.
-/

namespace PacketStack

def Packet.changeFirst (kind : Kind) (change : StateM Packet Unit) : Packet → Bool × Packet
  | .single layer =>
      if layer.kind = kind then (true, (change.run (.single layer)).2) else (false, .single layer)
  | .over layer inner =>
      if layer.kind = kind then (true, (change.run (.over layer inner)).2)
      else
        let (found, inner) := inner.changeFirst kind change
        (found, .over layer inner)

namespace Protection

def attachInPlace (plaintext : Bytes) : StateM Packet Bool := fun packet =>
  match Packet.parse .snap plaintext with
  | .error _ => (false, packet)
  | .ok chain => packet.changeFirst .dot11 do
      modify fun node => node.setInner chain
      modify fun node => node.setLayer (unprotect node.layer)

end Protection

/-- Decrypts the protected frame of a packet, and tells if that was done. -/
def WepPasswords.decryptInPlace (keys : WepPasswords) : StateM Packet Bool := do
  match Protection.ProtectedFrame.ofPacket? (← get) with
  | none => return false
  | some found =>
      match found.frame.bssid?.bind fun bssid => keys.passwords.get? bssid with
      | none => return false
      | some password =>
          match Protection.Wep.decrypt? password found.payload with
          | none => return false
          | some plaintext => Protection.attachInPlace plaintext

namespace Wpa2Monitor

/-- Decrypts the protected frame of a packet with the keys that are known. -/
def openInPlace (monitor : Wpa2Monitor) : StateM Packet Bool := do
  match Protection.ProtectedFrame.ofPacket? (← get) with
  | none => return false
  | some found =>
      match (candidates found.frame).findSome? fun stations => monitor.keys.get? stations with
      | none => return false
      | some keys =>
          match keys.decrypt? found.frame found.payload with
          | none => return false
          | some plaintext => Protection.attachInPlace plaintext

/-- A monitor with what it has told so far, and the packet in its hands. -/
structure Session where
  monitor : Wpa2Monitor
  events : List Event
  packet : Packet

namespace Session

def learn (session : Session) (learned : Wpa2Monitor × List Event) : Session :=
  { session with monitor := learned.1, events := session.events ++ learned.2 }

def openPacket (session : Session) : Bool × Session :=
  let (opened, packet) := session.monitor.openInPlace.run session.packet
  (opened, { session with packet })

/-- Learns from the packet or decrypts it, and tells if it was decrypted. -/
def decryptInPlace (session : Session) : Bool × Session :=
  let (completes, capture) := session.monitor.capture.process session.packet
  let session := { session with monitor := { session.monitor with capture } }
  if completes then
    let session := { session with monitor := { session.monitor with capture := capture.clear } }
    match session.packet.findLayer? .dot11 with
    | some (.dot11 frame) =>
        (false, session.learn (session.monitor.learnAll frame capture.complete))
    | _ => (false, session)
  else
    match session.packet.findLayer? .dot11 with
    | some (.dot11 frame) =>
        if frame.management?.isSome then (false, session.learn (session.monitor.discover frame))
        else session.openPacket
    | _ => session.openPacket

end Session

end Wpa2Monitor

end PacketStack
