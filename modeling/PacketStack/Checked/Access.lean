import PacketStack.Frame

/-!
Reading in which every access is checked.

The readings of the layers take for zero what is not there and cut a negative difference to zero.
Here each of these is a fault, so that a reading without a fault needs none of it.
-/

namespace PacketStack

namespace Bytes

def byteAt (bytes : Bytes) (index : Nat) : Outcome UInt8 :=
  match bytes[index]? with
  | some byte => .ok byte
  | none => .outOfBounds

def big (bytes : Bytes) (start size : Nat) : Outcome Nat :=
  (bytes.range start (start + size)).map toNatBE

def little (bytes : Bytes) (start size : Nat) : Outcome Nat :=
  (bytes.range start (start + size)).map toNatLE

def require (bytes : Bytes) (part : Part) (start stop : Nat) : Outcome Bytes :=
  match bytes.range? start stop with
  | none => .refuse (.shortBuffer part stop bytes.length)
  | some found => .ok found

def exactly (bytes : Bytes) (size : Nat) : Outcome Bytes :=
  if bytes.length = size then .ok bytes else .outOfBounds

theorem stop_le_of_range? {bytes part : Bytes} {start stop : Nat}
    (there : bytes.range? start stop = some part) : stop ≤ bytes.length := by
  unfold range? at there
  split at there
  · rename_i inside
    exact inside.2
  · cases there

end Bytes

namespace HeaderField

def fetch (field : HeaderField) (bytes : Bytes) : Outcome Nat :=
  if field.endByte ≤ bytes.length then .ok (field.get bytes) else .outOfBounds

end HeaderField

namespace Outcome

def minus (left right : Nat) : Outcome Nat :=
  if right ≤ left then .ok (left - right) else .outOfBounds

def clamp (value low high : Nat) : Outcome Nat :=
  if low ≤ high then .ok (max low (min value high)) else .outOfBounds

end Outcome

end PacketStack
