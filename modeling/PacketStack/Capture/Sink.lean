import PacketStack.Capture.File

/-!
Sinks of frames, and packets sent to them.
-/

namespace PacketStack

structure FrameSink (σ : Type) where
  transmit : σ → Bytes → Option HwAddress → Except CaptureError Unit × σ

def Packet.destination? (packet : Packet) : Option HwAddress :=
  match packet.findLayer? .ethernet, packet.findLayer? .dot11 with
  | some (.ethernet layer), _ => some layer.destination
  | _, some (.dot11 frame) => frame.destination?
  | _, _ => none

namespace FrameSink

variable {σ : Type}

def send (sink : FrameSink σ) (state : σ) (packet : Packet) :
    Outcome (Except CaptureError Unit × σ) :=
  match packet.serialize with
  | .ok bytes => .ok (sink.transmit state bytes packet.destination?)
  | .error (.refused cause) => .ok (.error (.packet cause), state)
  | .error (.fault fault) => .error (.fault fault)

end FrameSink

end PacketStack
