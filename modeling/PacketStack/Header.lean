import PacketStack.Accessor

/-!
The fixed part of a header as a table of bit fields, read and replaced in place.

A `Span` is a run of bits counted from the highest bit of the first byte. Layers are encoded and
decoded by the spans of their fields, views of a header go through getters and setters. Main
statement: `length_put` says that replacing a field keeps the length of the buffer.
-/

namespace PacketStack

/-- A run of bits of a buffer. The number it holds has its highest bit first, or its lowest byte
first where the field is little-endian. -/
structure Span where
  start : Nat
  width : Nat
  littleEndian : Bool := false
  deriving DecidableEq, Repr

namespace Span

def firstByte (span : Span) : Nat := span.start / 8

def endByte (span : Span) : Nat := (span.start + span.width + 7) / 8

def byteCount (span : Span) : Nat := span.endByte - span.firstByte

def spare (span : Span) : Nat := 8 * span.endByte - (span.start + span.width)

def order (span : Span) (value : Nat) : Nat :=
  if span.littleEndian then Bytes.toNatLE (Bytes.ofNatBE (span.width / 8) value) else value

def around (span : Span) (bytes : Bytes) : Nat :=
  Bytes.toNatBE (bytes.window span.firstByte span.byteCount)

def get (span : Span) (bytes : Bytes) : Nat :=
  span.order ((span.around bytes >>> span.spare) % (1 <<< span.width))

def merge (span : Span) (value old : Nat) : Nat :=
  let above := span.width + span.spare
  let ordered := span.order (value % (1 <<< span.width)) % (1 <<< span.width)
  ((old >>> above) <<< above) + (ordered <<< span.spare) + old % (1 <<< span.spare)

/-- The buffer with the span set to a value cut to its width. A span outside of the buffer changes
nothing. -/
def put (span : Span) (value : Nat) (bytes : Bytes) : Bytes :=
  if span.endByte ≤ bytes.length then
    bytes.splice span.firstByte
      (Bytes.ofNatBE span.byteCount (span.merge value (span.around bytes)))
  else bytes

theorem firstByte_le_endByte (span : Span) : span.firstByte ≤ span.endByte := by
  unfold firstByte endByte
  omega

@[simp] theorem length_put (span : Span) (value : Nat) (bytes : Bytes) :
    (span.put value bytes).length = bytes.length := by
  have order := span.firstByte_le_endByte
  unfold put
  split
  · rename_i inside
    apply Bytes.length_splice
    rw [Bytes.length_ofNatBE, byteCount]
    omega
  · rfl

end Span

/-- The bits of a field, its name, what it holds and how it is read. A field without a setter is
written along with others. -/
structure HeaderField extends Span where
  name : String
  type : FieldType
  getter : Getter
  setter : Option Setter
  deriving DecidableEq, Repr

namespace HeaderField

def whole (type : FieldType) (name : String) (offset size : Nat) : HeaderField where
  start := 8 * offset
  width := 8 * size
  name := name
  type := type
  getter := .big offset size
  setter := some (.big offset size)

def byte (name : String) (offset : Nat) : HeaderField := whole .byte name offset 1

def word16 (name : String) (offset : Nat) : HeaderField := whole .word16 name offset 2

def word32 (name : String) (offset : Nat) : HeaderField := whole .word32 name offset 4

def word64 (name : String) (offset : Nat) : HeaderField := whole .word64 name offset 8

def octets (name : String) (offset size : Nat) : HeaderField :=
  whole (.octets size) name offset size

def hardware (name : String) (offset : Nat) : HeaderField := whole .hardware name offset 6

def internet (name : String) (offset : Nat) : HeaderField := whole .internet name offset 4

def internet6 (name : String) (offset : Nat) : HeaderField := whole .internet6 name offset 16

def protocol (name : String) (offset : Nat) : HeaderField := whole .protocol name offset 1

def etherType (name : String) (offset : Nat) : HeaderField := whole .etherType name offset 2

def value (field : HeaderField) (bytes : Bytes) : field.type.Value :=
  field.type.ofNat (field.getter.read bytes)

def describe (field : HeaderField) (bytes : Bytes) : String :=
  field.type.describe (field.value bytes)

def hwAddress (field : HeaderField) (bytes : Bytes) : HwAddress := .ofNat (field.get bytes)

def ipv4Address (field : HeaderField) (bytes : Bytes) : Ipv4Address := .ofNat (field.get bytes)

def ipv6Address (field : HeaderField) (bytes : Bytes) : Ipv6Address := .ofNat (field.get bytes)

end HeaderField

/-- A header: the size and the fields of its fixed part, the parts of the buffer which it delimits,
the offsets from which variable parts may be overwritten, and its description. -/
structure HeaderLayout where
  part : Part
  minimum : Nat
  fields : List HeaderField
  regions : List (String × (Bytes → Bytes))
  blocks : List (String × Nat)
  describe : Bytes → String

/-- A header in a buffer that holds at least its fixed part. Only a writable view may be changed. -/
structure HeaderView where
  layout : HeaderLayout
  bytes : Bytes
  writable : Bool

namespace HeaderView

def ofBytes (layout : HeaderLayout) (writable : Bool) (bytes : Bytes) : Outcome HeaderView :=
  if bytes.length < layout.minimum then
    .refuse (.shortBuffer layout.part layout.minimum bytes.length)
  else .ok ⟨layout, bytes, writable⟩

def get (view : HeaderView) (field : HeaderField) : field.type.Value := field.value view.bytes

/-- The view with a field set by its setter. -/
def set (view : HeaderView) (field : HeaderField) (value : field.type.Value) :
    Outcome HeaderView :=
  match view.writable, field.setter with
  | true, some setter =>
      if setter.stop ≤ view.bytes.length then
        .ok { view with bytes := setter.write view.bytes (field.type.toNat value) }
      else .outOfBounds
  | _, _ => .error (.fault .readOnly)

def setBytes (view : HeaderView) (offset : Nat) (data : Bytes) : Outcome HeaderView :=
  if !view.writable then .error (.fault .readOnly)
  else if offset + data.length ≤ view.bytes.length then
    .ok { view with bytes := view.bytes.splice offset data }
  else .outOfBounds

end HeaderView

end PacketStack
