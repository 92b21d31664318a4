import PacketStack.Protection.ProtectedFrame
import PacketStack.Table

/-!
The four messages by which two stations agree on keys, captured from the frames between them.

A capture follows every pair of stations by itself. Each message has to follow the one before it:
the last one may come again, any other message out of order breaks the handshake until its first
message is seen.
-/

namespace PacketStack

/-- A frame of 802.1X authentication that carries the descriptor of a key. -/
structure KeyFrame where
  version : UInt8
  key : RsnKey
  deriving DecidableEq

namespace KeyFrame

def eapol (frame : KeyFrame) : Eapol := ⟨frame.version, .rsnKey frame.key⟩

def ofEapol? (eapol : Eapol) : Option KeyFrame := eapol.rsnKey?.map (⟨eapol.version, ·⟩)

@[simp] theorem ofEapol?_eapol (frame : KeyFrame) : ofEapol? frame.eapol = some frame := rfl

end KeyFrame

/-- The four messages, in the order in which they are sent. -/
structure Handshake where
  stations : StationPair
  first : KeyFrame
  second : KeyFrame
  third : KeyFrame
  fourth : KeyFrame
  deriving DecidableEq

namespace Handshake

def messages (handshake : Handshake) : List KeyFrame :=
  [handshake.first, handshake.second, handshake.third, handshake.fourth]

/-- The place of a message among the four. -/
inductive Place where
  | first
  | second
  | third
  | fourth
  deriving DecidableEq, Repr

def Place.ofInformation? (info : KeyInformation) : Option Place :=
  if info.contains .pairwise then
    match info.contains .acknowledge, info.contains .mic, info.contains .install with
    | true, false, false => some .first
    | false, true, false => if info.contains .secure then some .fourth else some .second
    | true, true, true => some .third
    | _, _, _ => none
  else none

/-- A message between two stations. -/
structure Message where
  stations : StationPair
  place : Place
  frame : KeyFrame
  deriving DecidableEq

/-- The message in a data frame, by the first key frame and the first wireless frame of a packet. -/
def Message.ofPacket? (packet : Packet) : Option Message := do
  let .eapol eapol ← packet.findLayer? .eapol | none
  let frame ← KeyFrame.ofEapol? eapol
  let .dot11 wireless ← packet.findLayer? .dot11 | none
  let _ ← wireless.data?
  let stations := StationPair.of (← wireless.source?) (← wireless.destination?)
  return ⟨stations, ← Place.ofInformation? frame.key.info, frame⟩

/-- The messages that were seen of a handshake. -/
inductive Progress where
  /-- A message came out of order. -/
  | broken
  | one (first : KeyFrame)
  | two (first second : KeyFrame)
  | three (first second third : KeyFrame)
  deriving DecidableEq

namespace Progress

def messages : Progress → List KeyFrame
  | .broken => []
  | .one first => [first]
  | .two first second => [first, second]
  | .three first second third => [first, second, third]

def second (frame : KeyFrame) : Progress → Progress
  | .one first => .two first frame
  | .two first second => .two first second
  | _ => .broken

def third (frame : KeyFrame) : Progress → Progress
  | .two first second => .three first second frame
  | .three first second third => .three first second third
  | _ => .broken

end Progress

/-- The handshakes in progress and those that are complete, in the order of their last messages. -/
structure Capture where
  pending : Table StationPair Progress
  complete : List Handshake
  deriving DecidableEq

namespace Capture

def empty : Capture := ⟨[], []⟩

def progress (capture : Capture) (stations : StationPair) (step : Progress → Progress) : Capture :=
  match capture.pending.get? stations with
  | none => capture
  | some progress => { capture with pending := capture.pending.set stations (step progress) }

def handshake? (capture : Capture) (stations : StationPair) (fourth : KeyFrame) :
    Option Handshake :=
  match capture.pending.get? stations with
  | some (.three first second third) => some ⟨stations, first, second, third, fourth⟩
  | _ => none

/-- Follows the handshake of a message. Tells whether the message completes it. -/
def receive (capture : Capture) (message : Message) : Bool × Capture :=
  let ⟨stations, place, frame⟩ := message
  match place with
  | .first => (false, { capture with pending := capture.pending.set stations (.one frame) })
  | .second => (false, capture.progress stations (.second frame))
  | .third => (false, capture.progress stations (.third frame))
  | .fourth =>
      match capture.handshake? stations frame with
      | none => (false, capture.progress stations fun _ => .broken)
      | some handshake =>
          (true, ⟨capture.pending.erase stations, capture.complete ++ [handshake]⟩)

/-- Follows the handshake of which a packet carries a message. -/
def process (capture : Capture) (packet : Packet) : Bool × Capture :=
  match Message.ofPacket? packet with
  | none => (false, capture)
  | some message => capture.receive message

def clear (capture : Capture) : Capture := { capture with complete := [] }

end Capture

end Handshake

end PacketStack
