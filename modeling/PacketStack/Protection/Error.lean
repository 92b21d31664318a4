import PacketStack.Protection.ProtectedFrame

/-!
Why keys cannot be had, and the wording of each cause.
-/

namespace PacketStack

inductive ProtectionError where
  /-- A message that the handshake does not have, counted from one. -/
  | noMessage (number : Nat)
  /-- The integrity code of the last message is not one under the key of the handshake. -/
  | wrongCode (stations : StationPair)
  /-- The last message does not fit in a frame, so that it has no integrity code. -/
  | tooLong
  | unknownNetwork (ssid : String)
  deriving DecidableEq, Repr

def ProtectionError.message : ProtectionError → String
  | .noMessage number => s!"invalid handshake: message {number} has no key"
  | .wrongCode stations =>
      s!"invalid handshake: MIC mismatch for {stations.lower.text} and {stations.upper.text}"
  | .tooLong => s!"packet error: {(PacketError.malformed .eapolFrameTooLong).message}"
  | .unknownNetwork ssid => s!"unknown ssid: {ssid}"

end PacketStack
