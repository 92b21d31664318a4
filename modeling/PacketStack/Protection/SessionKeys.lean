import PacketStack.Crypto.Aes
import PacketStack.Crypto.Hmac
import PacketStack.Protection.Ccmp
import PacketStack.Protection.Error
import PacketStack.Protection.Handshake
import PacketStack.Protection.Tkip
import PacketStack.Text.Utf8

/-!
The keys of two stations: derived from the passphrase of their network and from their handshake,
whose last message proves them right.
-/

namespace PacketStack

/-- The cipher of the frames between two stations. -/
inductive Cipher where
  | ccmp
  | tkip
  deriving DecidableEq, Repr

namespace Cipher

def text : Cipher → String
  | .ccmp => "ccmp"
  | .tkip => "tkip"

def describe : Cipher → String
  | .ccmp => "Ccmp"
  | .tkip => "Tkip"

end Cipher

/-- The key that all stations of a network share. -/
abbrev MasterKey := Octets 32

def MasterKey.ofPassphrase (passphrase ssid : String) : MasterKey :=
  Hmac.ofPassphrase (Text.Utf8.encode passphrase) (Text.Utf8.encode ssid) 4096 32

namespace KeyFrame

def sha1Version : UInt16 := 2

def withoutCode (frame : KeyFrame) : KeyFrame :=
  { frame with key := { frame.key with mic := .zero 16 } }

/-- The integrity code of a frame under a key, made as if there was no code in the frame. -/
def code? (frame : KeyFrame) (key : Bytes) : Option (Octets 16) := do
  let bytes ← (Packet.single (.eapol frame.withoutCode.eapol)).serialize.value?
  let digest := if frame.key.info.descriptorVersion = sha1Version then Hmac.sha1 else Hmac.md5
  return .ofBytes 16 (digest key bytes)

end KeyFrame

structure SessionKeys where
  material : Octets 80
  cipher : Cipher
  deriving DecidableEq

namespace SessionKeys

def confirmationKey (material : Octets 80) : Bytes := material.bytes.take 16

def temporalKey (keys : SessionKeys) : Octets 16 := .ofBytes 16 (keys.material.bytes.drop 32)

def label : Bytes := Text.Utf8.encode "Pairwise key expansion"

def expand (master : MasterKey) (stations : StationPair) (left right : Octets 32) : Octets 80 :=
  let (low, high) := if left.toNat ≤ right.toNat then (left, right) else (right, left)
  Hmac.expand master.bytes label
    (stations.lower.octets ++ stations.upper.octets ++ low.bytes ++ high.bytes) 80

/-- The keys of a handshake, if the code of its last message is right under them. -/
def ofHandshake (handshake : Handshake) (master : MasterKey) :
    Except ProtectionError SessionKeys :=
  let material :=
    expand master handshake.stations handshake.second.key.nonce handshake.third.key.nonce
  let fourth := handshake.fourth
  match fourth.code? (confirmationKey material) with
  | none => .error .tooLong
  | some code =>
      if code = fourth.key.mic then
        .ok ⟨material, if fourth.key.info.descriptorVersion = KeyFrame.sha1Version then .ccmp
          else .tkip⟩
      else .error (.wrongCode handshake.stations)

/-- The data inside a protected frame between the stations. -/
def decrypt? (keys : SessionKeys) (frame : Wireless.Frame) (payload : Bytes) : Option Bytes :=
  match keys.cipher with
  | .ccmp => Protection.Ccmp.decrypt? (Aes.ofKey keys.temporalKey).encrypt frame payload
  | .tkip => do Protection.Tkip.decrypt? keys.temporalKey (← frame.addr2?) payload

def describe (keys : SessionKeys) : String :=
  Text.openRecord "SessionKeys" [("cipher", keys.cipher.describe)]

end SessionKeys

end PacketStack
