import PacketStack.Bytes
import PacketStack.Reassembly.Serial
import PacketStack.Sizes

/-!
One direction of a TCP connection: its bytes in order, and segments which arrived early.
-/

namespace PacketStack

/-- Bytes that arrived before those in front of them. -/
structure Fragment where
  /-- The sequence number of the first byte. -/
  start : UInt32
  data : Bytes
  deriving DecidableEq, Repr

structure Flow where
  /-- The sequence number of the next byte to deliver, once the direction has begun. -/
  expected : Option UInt32
  /-- The bytes in order which have not been cleared. -/
  payload : Bytes
  /-- The early segments by the number of their first byte, of which each stands once. -/
  fragments : List Fragment
  /-- How many bytes were delivered in order, with those that were cleared. -/
  delivered : Nat
  /-- The sequence number after the last byte, once the sender has told it. -/
  finish : Option UInt32
  deriving DecidableEq, Repr

namespace Flow

def empty : Flow := ⟨none, [], [], 0, none⟩

instance : Inhabited Flow := ⟨empty⟩

/-- How segments are kept. -/
structure Limits where
  /-- The largest number of bytes that may be held early. -/
  maximumBuffered : Nat
  /-- Whether bytes are kept once they were delivered. -/
  keepsPayload : Bool
  deriving DecidableEq, Repr

def buffered (flow : Flow) : Nat := sizeSum (fun fragment => fragment.data.length) flow.fragments

def isFinished (flow : Flow) : Bool :=
  match flow.finish, flow.expected with
  | some finish, some expected => !Serial.isBefore expected finish
  | _, _ => false

def clear (flow : Flow) : Flow := { flow with payload := [] }

def begin (start : UInt32) (flow : Flow) : Flow := { flow with expected := some start }

def markFinish (start : UInt32) (length : Nat) (flow : Flow) : Flow :=
  { flow with finish := some (Serial.advance start length) }

/-- Delivers bytes at the expected sequence number. -/
def deliver (limits : Limits) (data : Bytes) (flow : Flow) : Flow :=
  { flow with
    payload := if limits.keepsPayload then flow.payload ++ data else flow.payload
    delivered := flow.delivered + data.length
    expected := flow.expected.map (Serial.advance · data.length) }

def insertFragment (fragment : Fragment) : List Fragment → List Fragment
  | [] => [fragment]
  | first :: rest =>
      if fragment.start < first.start then fragment :: first :: rest
      else if fragment.start = first.start then fragment :: rest
      else first :: insertFragment fragment rest

def heldAt (start : UInt32) (flow : Flow) : Nat :=
  ((flow.fragments.find? (·.start == start)).map fun fragment => fragment.data.length).getD 0

def hold (limits : Limits) (fragment : Fragment) (flow : Flow) : Flow :=
  let held := flow.heldAt fragment.start
  if fragment.data.length ≤ held then flow
  else if limits.maximumBuffered < flow.buffered - held + fragment.data.length then flow
  else { flow with fragments := insertFragment fragment flow.fragments }

def overlap (expected start : UInt32) : Nat :=
  if Serial.isBefore start expected then (Serial.distance start expected).toNat else 0

def deliverFragment (limits : Limits) (next : UInt32) (fragment : Fragment) (flow : Flow) : Flow :=
  if Serial.isAfter (Serial.advance fragment.start fragment.data.length) next then
    flow.deliver limits (fragment.data.drop (Serial.distance fragment.start next).toNat)
  else flow

def isDue (next : UInt32) (fragment : Fragment) : Bool := !Serial.isAfter fragment.start next

/-- Delivers held fragments as long as one is due. -/
def drain (limits : Limits) (flow : Flow) : Flow :=
  match flow.expected with
  | none => flow
  | some next =>
      match _found : flow.fragments.find? (isDue next) with
      | none => flow
      | some fragment =>
          let rest := { flow with fragments := flow.fragments.erase fragment }
          drain limits (rest.deliverFragment limits next fragment)
termination_by flow.fragments.length
decreasing_by
  have member : fragment ∈ flow.fragments := List.mem_of_find?_eq_some _found
  have positive : 0 < flow.fragments.length := List.length_pos_of_mem member
  have shorter := List.length_erase_of_mem member
  have same : (rest.deliverFragment limits next fragment).fragments = rest.fragments := by
    unfold deliverFragment deliver
    split <;> rfl
  rw [same]
  change (flow.fragments.erase fragment).length < flow.fragments.length
  omega

def receive (limits : Limits) (start : UInt32) (data : Bytes) (flow : Flow) : Flow × Bool :=
  match flow.expected with
  | none => (flow, false)
  | some expected =>
      if data.isEmpty || !Serial.isAfter (Serial.advance start data.length) expected then
        (flow, false)
      else if Serial.isAfter start expected then (flow.hold limits ⟨start, data⟩, false)
      else ((flow.deliver limits (data.drop (overlap expected start))).drain limits, true)

end Flow

end PacketStack
