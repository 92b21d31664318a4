import PacketStack.Capture.Instant
import PacketStack.Error

/-!
Why frames cannot be captured or sent, and the wording of each cause.
-/

namespace PacketStack

inductive CaptureError where
  /-- A medium that is not there or has no room left. -/
  | medium
  /-- Bytes that are no capture file, that end within a record, or a record which the buffer cannot
  hold. -/
  | unreadable
  | timeOutOfRange (time : Instant)
  | frameTooLarge (size : Nat)
  | invalidLink (number : Int)
  | missingHeader
  /-- A file of the format that came later. -/
  | foreignFormat
  /-- A sink that does not take a frame. -/
  | refused (reason : String)
  | packet (cause : PacketError)
  | noSnapLength
  | smallBuffer (capacity minimum : Nat)
  deriving DecidableEq, Repr

/-- The wording of a cause. What a medium or a foreign file is to blame for has none. -/
def CaptureError.message? : CaptureError → Option String
  | .medium | .unreadable => none
  | .timeOutOfRange time => some s!"pcap error: timestamp {time.text} out of range"
  | .frameTooLarge size => some s!"pcap error: frame of {size} bytes too large"
  | .invalidLink number => some s!"pcap error: invalid link type {number}"
  | .missingHeader => some "pcap error: missing pcap header"
  | .foreignFormat => some "pcap error: pcapng is not supported"
  | .refused reason => some s!"pcap error: {reason}"
  | .packet cause => some s!"invalid packet: {cause.message}"
  | .noSnapLength => some "invalid config: snaplen must be positive"
  | .smallBuffer capacity minimum =>
      some s!"invalid config: buffer-capacity ({capacity}) must be at least {minimum}"

end PacketStack
