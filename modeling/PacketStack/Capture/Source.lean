import PacketStack.Capture.File

/-!
Sources of frames, and the packets in them.

A source gives frames one at a time until it ends or fails. Frames that are no packet are passed
over.
-/

namespace PacketStack

/-- A source whose state gets smaller with each frame, so that it ends. -/
structure FrameSource (σ : Type) where
  next : σ → Except CaptureError (Option (CapturedFrame × σ))
  size : σ → Nat
  size_lt : ∀ {state state' : σ} {frame : CapturedFrame},
    next state = .ok (some (frame, state')) → size state' < size state

namespace FrameSource

variable {σ τ : Type}

/-- The next packet, and the source after it. A failure ends the packets like the end does. -/
def nextPacket (source : FrameSource σ) (state : σ) : Option Packet × σ :=
  match _read : source.next state with
  | .ok (some (frame, rest)) =>
      match frame.packet with
      | .ok packet => (some packet, rest)
      | .error _ => source.nextPacket rest
  | _ => (none, state)
termination_by source.size state
decreasing_by exact source.size_lt _read

def takePackets (source : FrameSource σ) : Nat → σ → List Packet × σ
  | 0, state => ([], state)
  | limit + 1, state =>
      match source.nextPacket state with
      | (none, state) => ([], state)
      | (some packet, state) =>
          let (packets, state) := source.takePackets limit state
          (packet :: packets, state)

/-- All packets, and the source at its end. -/
def packets (source : FrameSource σ) (state : σ) : List Packet × σ :=
  match _read : source.next state with
  | .ok (some (frame, rest)) =>
      let (packets, last) := source.packets rest
      match frame.packet with
      | .ok packet => (packet :: packets, last)
      | .error _ => (packets, last)
  | _ => ([], state)
termination_by source.size state
decreasing_by exact source.size_lt _read

/-- What became of handing on the packets of a source. -/
structure Sniffed (σ τ : Type) where
  /-- The number of packets handed on, or the failure of the source. -/
  result : Except CaptureError Nat
  source : σ
  handler : τ

/-- Hands the packets of a source on until the handler wants no more or the source ends. The
number of packets handed on before is counted too. -/
def sniff (source : FrameSource σ) (handler : τ → Packet → Bool × τ) (delivered : Nat)
    (state : σ) (seen : τ) : Sniffed σ τ :=
  match _read : source.next state with
  | .error cause => ⟨.error cause, state, seen⟩
  | .ok none => ⟨.ok delivered, state, seen⟩
  | .ok (some (frame, rest)) =>
      match frame.packet with
      | .error _ => source.sniff handler delivered rest seen
      | .ok packet =>
          match handler seen packet with
          | (true, seen) => source.sniff handler (delivered + 1) rest seen
          | (false, seen) => ⟨.ok (delivered + 1), rest, seen⟩
termination_by source.size state
decreasing_by all_goals exact source.size_lt _read

end FrameSource

end PacketStack
