import PacketStack.Capture.Sink

/-!
Writing capture files to a medium that may have little room.
-/

namespace PacketStack

/-- What has been written to a medium, and how much it has room for, if there is a limit. -/
structure Medium where
  bytes : Bytes
  room : Option Nat
  deriving DecidableEq, Repr

def Medium.put (medium : Medium) (data : Bytes) : Bool × Medium :=
  match medium.room with
  | none => (true, { medium with bytes := medium.bytes ++ data })
  | some room =>
      let left := room - medium.bytes.length
      (data.length ≤ left, { medium with bytes := medium.bytes ++ data.take left })

structure CaptureWriter where
  precision : Precision
  snapLength : UInt32
  medium : Medium
  deriving DecidableEq, Repr

namespace CaptureWriter

/-- A writer of a file for frames of a link layer, whose header is written at once. -/
def create (config : CaptureConfig) (link : LinkType) (medium : Medium) :
    Except CaptureError CaptureWriter := do
  config.validate
  match medium.put (FileHeader.toBytes config.precision config.snapLength link) with
  | (true, medium) => .ok ⟨config.precision, config.snapLength, medium⟩
  | (false, _) => .error .medium

/-- Writes the record of a frame. A frame that has no record leaves the file as it was. -/
def write (writer : CaptureWriter) (bytes : Bytes) (time : Instant) :
    Except CaptureError Unit × CaptureWriter :=
  if time.seconds < 0x100000000 then
    if bytes.length < 0x100000000 then
      let record := CaptureRecord.ofFrame bytes time writer.precision writer.snapLength
      let (complete, medium) := writer.medium.put record.toBytes
      (if complete then .ok () else .error .medium, { writer with medium })
    else (.error (.frameTooLarge bytes.length), writer)
  else (.error (.timeOutOfRange time), writer)

def sink (time : Instant) : FrameSink CaptureWriter :=
  ⟨fun writer bytes _ => writer.write bytes time⟩

def writePacket (writer : CaptureWriter) (packet : Packet) (time : Instant) :
    Outcome (Except CaptureError Unit × CaptureWriter) :=
  (sink time).send writer packet

end CaptureWriter

end PacketStack
