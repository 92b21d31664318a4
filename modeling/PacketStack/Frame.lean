import PacketStack.Header

/-!
Reading parts of a buffer and writing a layer into the frame that holds it.

Every range is checked: one that reaches past the end of the buffer is a fault. A write changes the
frame step by step, so what was written before a failure stays in the frame.
-/

namespace PacketStack

namespace Bytes

def range (bytes : Bytes) (start stop : Nat) : Outcome Bytes :=
  if start ≤ stop ∧ stop ≤ bytes.length then .ok (bytes.window start (stop - start))
  else .outOfBounds

def rest (bytes : Bytes) (start : Nat) : Outcome Bytes := bytes.range start bytes.length

def range? (bytes : Bytes) (start stop : Nat) : Option Bytes :=
  if start ≤ stop ∧ stop ≤ bytes.length then some (bytes.window start (stop - start)) else none

theorem range_eq_ok {bytes part : Bytes} {start stop : Nat} :
    bytes.range start stop = .ok part ↔
      start ≤ stop ∧ stop ≤ bytes.length ∧ part = bytes.window start (stop - start) := by
  unfold range
  split <;> grind [Outcome.outOfBounds_ne_ok]

theorem rest_eq_ok {bytes part : Bytes} {start : Nat} :
    bytes.rest start = .ok part ↔ start ≤ bytes.length ∧ part = bytes.drop start := by
  rw [rest, range_eq_ok]
  constructor
  · rintro ⟨inside, _, rfl⟩
    exact ⟨inside, List.take_of_length_le (by simp)⟩
  · rintro ⟨inside, rfl⟩
    exact ⟨inside, Nat.le_refl _, (List.take_of_length_le (by simp)).symm⟩

end Bytes

def requireSize (part : Part) (minimum : Nat) (bytes : Bytes) : Outcome Unit :=
  if bytes.length < minimum then .refuse (.shortBuffer part minimum bytes.length) else .ok ()

theorem requireSize_eq_ok {part : Part} {minimum : Nat} {bytes : Bytes} {done : Unit} :
    requireSize part minimum bytes = .ok done ↔ minimum ≤ bytes.length := by
  unfold requireSize Outcome.refuse
  split <;> simp <;> omega

theorem requireSize_bind_eq_ok {α : Type} {part : Part} {minimum : Nat} {bytes : Bytes}
    {next : Unit → Outcome α} {result : α} :
    (requireSize part minimum bytes >>= next) = .ok result ↔
      minimum ≤ bytes.length ∧ next () = .ok result := by
  simp only [Outcome.bind_eq_ok, requireSize_eq_ok]
  exact ⟨fun ⟨_, large, rest⟩ => ⟨large, rest⟩, fun ⟨large, rest⟩ => ⟨(), large, rest⟩⟩

abbrev Reader := StateT Bytes Outcome

namespace Reader

def refuse {α : Type} (cause : PacketError) : Reader α := throw (.refused cause)

def take (short : Nat → PacketError) (size : Nat) : Reader Bytes := do
  let bytes ← get
  if bytes.length < size then refuse (short bytes.length)
  set (bytes.drop size)
  return bytes.take size

def little (short : Nat → PacketError) (size : Nat) : Reader Nat :=
  return Bytes.toNatLE (← take short size)

def many {α : Type} (item : Reader α) : Nat → Reader (List α)
  | 0 => return []
  | count + 1 => return (← item) :: (← many item count)

end Reader

/-- A layer read from the front of a buffer, what it carries, and the kind of the layer which that
is known to be. -/
structure Decoded (α : Type) where
  header : α
  payload : Bytes
  next : Option Kind
  deriving DecidableEq

namespace Decoded

variable {α : Type} {part : Part} {size : Nat} {header : Bytes → α} {next : Bytes → Option Kind}
variable {bytes front : Bytes} {decoded : Decoded α}

def fixed (part : Part) (size : Nat) (header : Bytes → α) (next : Bytes → Option Kind)
    (bytes : Bytes) : Outcome (Decoded α) := do
  requireSize part size bytes
  return ⟨header bytes, bytes.drop size, next bytes⟩

theorem fixed_eq_ok : fixed part size header next bytes = .ok decoded ↔
    size ≤ bytes.length ∧ decoded = ⟨header bytes, bytes.drop size, next bytes⟩ := by
  rw [fixed, requireSize_bind_eq_ok, Outcome.pure_eq_ok]

theorem payload_lt_of_fixed (positive : 0 < size)
    (read : fixed part size header next bytes = .ok decoded) :
    decoded.payload.length < bytes.length := by
  rcases fixed_eq_ok.mp read with ⟨large, rfl⟩
  rw [List.length_drop]
  omega

theorem fixed_append (length : front.length = size) {payload : Bytes}
    (same : header (front ++ payload) = header front)
    (known : next (front ++ payload) = next front) :
    fixed part size header next (front ++ payload) = .ok ⟨header front, payload, next front⟩ := by
  rw [fixed_eq_ok, same, known, List.drop_left' length, List.length_append, length]
  exact ⟨Nat.le_add_right _ _, rfl⟩

end Decoded

/-- Writing into a frame, which keeps its bytes when writing fails. -/
abbrev Write := ExceptT Failure (StateM Bytes)

namespace Write

def refuse {α : Type} (cause : Malformation) : Write α := throw (.refused (.malformed cause))

def demand (condition : Prop) [Decidable condition] (cause : Malformation) : Write Unit :=
  if condition then pure () else refuse cause

def require (part : Part) (minimum : Nat) : Write Unit := do
  let available := (← get).length
  if available < minimum then throw (.refused (.shortBuffer part minimum available))

def reach (size : Nat) : Write Unit := do
  if (← get).length < size then throw (.fault .outOfBounds)

def store (field : HeaderField) (value : Nat) : Write Unit := do
  reach field.endByte
  modify (field.put value)

def put (offset : Nat) (data : Bytes) : Write Unit := do
  reach (offset + data.length)
  modify fun frame => frame.splice offset data

def frame : Write Bytes := get

def into (frame : Bytes) (write : Write Unit) : Outcome Unit × Bytes := write.run.run frame

end Write

end PacketStack
