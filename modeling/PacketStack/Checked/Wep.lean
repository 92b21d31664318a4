import PacketStack.Checked.Packet
import PacketStack.Protection.InPlace

/-!
Checked decryption of WEP frames: each part of a payload is cut out by its bounds, and the key of a
frame must have some bytes.
-/

namespace PacketStack

namespace Protection

/-- The data of a protected payload whose check is right. -/
def Wep.decryptChecked (password payload : Bytes) : Outcome (Option Bytes) := do
  if payload.length ≤ headerSize + 4 then return none
  let cipher ← Rc4.new ((← payload.range 0 3) ++ password)
  let checked := (cipher.apply (← payload.rest headerSize)).1
  let size ← Outcome.minus checked.length 4
  let data ← checked.range 0 size
  let check ← checked.rest size
  return if Crc32.bytes data = check then some data else none

def attachChecked (plaintext : Bytes) (packet : Packet) : Outcome (Bool × Packet) :=
  match Packet.parseChecked .snap plaintext with
  | .error (.fault fault) => .error (.fault fault)
  | .error (.refused _) => .ok (false, packet)
  | .ok chain => .ok <| packet.changeFirst .dot11 do
      modify fun node => node.setInner chain
      modify fun node => node.setLayer (unprotect node.layer)

end Protection

/-- Decrypts the protected frame of a packet, and tells if that was done. -/
def WepPasswords.decryptChecked (keys : WepPasswords) (packet : Packet) :
    Outcome (Bool × Packet) := do
  match Protection.ProtectedFrame.ofPacket? packet with
  | none => return (false, packet)
  | some found =>
      match found.frame.bssid?.bind fun bssid => keys.passwords.get? bssid with
      | none => return (false, packet)
      | some password =>
          match ← Protection.Wep.decryptChecked password found.payload with
          | none => return (false, packet)
          | some plaintext => Protection.attachChecked plaintext packet

end PacketStack
