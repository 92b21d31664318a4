import PacketStack.Capture.Reader
import PacketStack.Capture.Writer
import PacketStack.Exchange.Packet

/-!
The forms of captured frames, and of what configures and ends a capture.
-/

namespace PacketStack.Exchange

instance : Decode Precision where
  decode value := if value.string = Precision.nanosecond.text then .nanosecond else .microsecond

instance : Decode CaptureConfig where
  decode value :=
    let base : CaptureConfig := {}
    { snapLength := value.get "snaplen" base.snapLength
      bufferCapacity := value.get "buffer_capacity" base.bufferCapacity
      precision := value.get "precision" base.precision }

instance : Encode LinkType := ⟨fun link => encode link.id⟩

instance : Decode LinkType := ⟨fun value => .ofId (decode value)⟩

instance : Decode Instant where
  decode value :=
    let seconds := (value.member "secs").integer
    let nanoseconds := (value.member "nanos").integer
    .ofSeconds seconds (if seconds < 0 then -nanoseconds else nanoseconds)

instance : Encode CaptureError where
  encode cause :=
    let kind := match cause with
      | .medium => "Io"
      | .unreadable | .timeOutOfRange _ | .frameTooLarge _ | .invalidLink _ | .missingHeader
      | .foreignFormat | .refused _ => "Pcap"
      | .packet _ => "PacketError"
      | .noSnapLength | .smallBuffer .. => "BadConfig"
    match cause.message? with
    | some message => failure kind message
    | none => .record [field "error" kind]

instance : Encode CapturedFrame where
  encode frame :=
    let layers := match frame.packet with
      | .ok packet => encode packet
      | .error (.refused cause) => encode (CaptureError.packet cause)
      | .error (.fault fault) => encode fault
    .record [
      field "bytes" frame.bytes,
      field "link" frame.link,
      field "secs" frame.time.seconds,
      field "nanos" frame.time.fraction,
      ("layers", layers)]

end PacketStack.Exchange
