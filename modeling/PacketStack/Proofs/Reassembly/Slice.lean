import PacketStack.Proofs.Reassembly.Position
import PacketStack.Reassembly.Connection

/-!
Segments that carry slices of the bytes of their sender, and runs of them.

`Piece.Orderly` is what is asked of a run: every segment is a slice at the sequence number of its
place, less than half of all numbers away from what was delivered when it comes.
-/

namespace PacketStack

def Flow.Drops (limits : Flow.Limits) (start : UInt32) (data : Bytes) (flow : Flow) : Prop :=
  ∃ expected, flow.expected = some expected ∧ data ≠ [] ∧
    Serial.isAfter (Serial.advance start data.length) expected ∧
    Serial.isAfter start expected ∧ flow.heldAt start < data.length ∧
    limits.maximumBuffered < flow.buffered - flow.heldAt start + data.length

/-- A segment that carries a slice of the bytes of its sender. -/
structure Piece where
  tcp : Tcp
  offset : Nat
  length : Nat

namespace Piece

/-- The position after the last byte. -/
def stop (piece : Piece) : Nat := piece.offset + piece.length

def payload (stream : Bytes) (piece : Piece) : Bytes := stream.window piece.offset piece.length

/-- The slice lies inside the bytes of the sender, and its sequence number is that of its place. -/
structure Fits (stream : Bytes) (start : UInt32) (piece : Piece) : Prop where
  inside : piece.stop ≤ stream.length
  placed : piece.tcp.sequence = Serial.advance start piece.offset

/-- The slice starts and ends less than half of all sequence numbers away from a position. -/
structure Close (count : Nat) (piece : Piece) : Prop where
  start : Serial.Near piece.offset count
  stop : Serial.Near piece.stop count

def Covers (piece : Piece) (position : Nat) : Prop :=
  piece.offset ≤ position ∧ position < piece.stop

/-- A direction after a segment, and whether it tells of new bytes. -/
def receive (limits : Flow.Limits) (stream : Bytes) (piece : Piece) (flow : Flow) : Flow × Bool :=
  Connection.receive limits piece.tcp (piece.payload stream) flow

/-- A direction after segments of pieces, one after the other. -/
def receiveAll (limits : Flow.Limits) (stream : Bytes) : List Piece → Flow → Flow
  | [], flow => flow
  | piece :: rest, flow => receiveAll limits stream rest (piece.receive limits stream flow).1

/-- Every piece is a slice of the stream, and close to what was delivered when it comes. -/
def Orderly (limits : Flow.Limits) (stream : Bytes) (start : UInt32) : List Piece → Flow → Prop
  | [], _ => True
  | piece :: rest, flow =>
      piece.Fits stream start ∧ piece.Close flow.delivered ∧
        Orderly limits stream start rest (piece.receive limits stream flow).1

/-- No segment is dropped for want of room. -/
def AllKept (limits : Flow.Limits) (stream : Bytes) : List Piece → Flow → Prop
  | [], _ => True
  | piece :: rest, flow =>
      ¬ flow.Drops limits piece.tcp.sequence (piece.payload stream) ∧
        AllKept limits stream rest (piece.receive limits stream flow).1

/-- Some piece of a list covers a position. -/
def AnyCovers (pieces : List Piece) (position : Nat) : Prop :=
  ∃ piece ∈ pieces, piece.Covers position

theorem length_payload {stream : Bytes} {start : UInt32} {piece : Piece}
    (fits : piece.Fits stream start) : (piece.payload stream).length = piece.length := by
  have inside := fits.inside
  unfold stop at inside
  simp only [payload, Bytes.length_window]
  omega

end Piece

/-- A fragment holds bytes of the stream, from an offset after a position and not far from it. -/
structure Fragment.Early (stream : Bytes) (start : UInt32) (base offset : Nat)
    (fragment : Fragment) : Prop where
  placed : fragment.start = Serial.advance start offset
  bytes : fragment.data = stream.window offset fragment.data.length
  inside : offset + fragment.data.length ≤ stream.length
  nonempty : 0 < fragment.data.length
  ahead : base < offset
  close : offset + fragment.data.length < base + 0x80000000

namespace Fragment.Early

variable {stream : Bytes} {start : UInt32} {base offset other : Nat} {fragment held : Fragment}

theorem unique (left : fragment.Early stream start base offset)
    (right : held.Early stream start base other) (same : fragment.start = held.start) :
    offset = other := by
  have near : Serial.Near offset other := by
    have first := left.ahead
    have second := left.close
    have third := right.ahead
    have fourth := right.close
    unfold Serial.Near
    omega
  rw [left.placed, right.placed] at same
  exact (Serial.advance_eq_iff start near).mp same

theorem rebase {count : Nat} (early : fragment.Early stream start base offset)
    (order : base ≤ count) (ahead : count < offset) :
    fragment.Early stream start count offset where
  placed := early.placed
  bytes := early.bytes
  inside := early.inside
  nonempty := early.nonempty
  ahead := ahead
  close := by
    have close := early.close
    omega

end Fragment.Early

theorem Piece.Fits.early {stream : Bytes} {start : UInt32} {count : Nat} {piece : Piece}
    (fits : piece.Fits stream start) (close : piece.Close count) (nonempty : 0 < piece.length)
    (ahead : count < piece.offset) :
    (Fragment.mk piece.tcp.sequence (piece.payload stream)).Early stream start count
      piece.offset := by
  have length := Piece.length_payload fits
  have inside := fits.inside
  have near := close.stop.1
  unfold Piece.stop at inside near
  refine ⟨fits.placed, ?_, ?_, ?_, ahead, ?_⟩
  · rw [length]
    rfl
  all_goals
    simp only [length]
    omega

end PacketStack
