/-!
Byte strings, the numbers written in them and byte strings of a fixed length.

Main statements: `toNatLE_ofNatLE` and `ofNatLE_toNatLE` make the fixed-width little-endian writing
and reading of a number inverse to each other, `toNatBE_ofNatBE` and `ofNatBE_toNatBE` do the same
for big-endian order.
-/

namespace PacketStack

abbrev Bytes := List UInt8

namespace Bytes

def toNatLE : Bytes → Nat
  | [] => 0
  | byte :: rest => byte.toNat + 256 * toNatLE rest

def ofNatLE : Nat → Nat → Bytes
  | 0, _ => []
  | width + 1, n => UInt8.ofNat n :: ofNatLE width (n / 256)

def valueCount : Nat → Nat
  | 0 => 1
  | width + 1 => 256 * valueCount width

def toNatBE (bytes : Bytes) : Nat := toNatLE bytes.reverse

def ofNatBE (width n : Nat) : Bytes := (ofNatLE width n).reverse

@[simp] theorem length_ofNatLE (width n : Nat) : (ofNatLE width n).length = width := by
  induction width generalizing n with
  | zero => rfl
  | succ width ih => simp [ofNatLE, ih]

@[simp] theorem length_ofNatBE (width n : Nat) : (ofNatBE width n).length = width := by
  simp [ofNatBE]

theorem toNatLE_ofNatLE (width n : Nat) : toNatLE (ofNatLE width n) = n % valueCount width := by
  induction width generalizing n with
  | zero => simp [ofNatLE, toNatLE, valueCount, Nat.mod_one]
  | succ width ih =>
      have low : (UInt8.ofNat n).toNat = n % 256 := UInt8.toNat_ofNat'
      rw [ofNatLE, toNatLE, ih, low, valueCount, Nat.mod_mul]

theorem toNatLE_lt (bytes : Bytes) : toNatLE bytes < valueCount bytes.length := by
  induction bytes with
  | nil => simp [toNatLE, valueCount]
  | cons byte rest ih =>
      have small : byte.toNat < 256 := byte.toNat_lt
      rw [toNatLE, List.length_cons, valueCount]
      omega

theorem ofNatLE_toNatLE (bytes : Bytes) : ofNatLE bytes.length (toNatLE bytes) = bytes := by
  induction bytes with
  | nil => rfl
  | cons byte rest ih =>
      have small : byte.toNat < 256 := byte.toNat_lt
      have low : UInt8.ofNat (byte.toNat + 256 * toNatLE rest) = byte := by
        apply UInt8.toNat.inj
        rw [UInt8.toNat_ofNat']
        omega
      have high : (byte.toNat + 256 * toNatLE rest) / 256 = toNatLE rest := by omega
      rw [List.length_cons, toNatLE, ofNatLE, low, high, ih]

theorem toNatBE_ofNatBE (width n : Nat) : toNatBE (ofNatBE width n) = n % valueCount width := by
  simp [toNatBE, ofNatBE, toNatLE_ofNatLE]

theorem ofNatBE_toNatBE (bytes : Bytes) : ofNatBE bytes.length (toNatBE bytes) = bytes := by
  have inverse := ofNatLE_toNatLE bytes.reverse
  rw [List.length_reverse] at inverse
  rw [ofNatBE, toNatBE, inverse, List.reverse_reverse]

theorem toNatBE_lt (bytes : Bytes) : toNatBE bytes < valueCount bytes.length := by
  simpa [toNatBE] using toNatLE_lt bytes.reverse

def window (bytes : Bytes) (start size : Nat) : Bytes := (bytes.drop start).take size

@[simp] theorem length_window (bytes : Bytes) (start size : Nat) :
    (bytes.window start size).length = min size (bytes.length - start) := by
  simp [window]

theorem window_append_right (front rest : Bytes) (start size : Nat)
    (behind : front.length ≤ start) :
    window (front ++ rest) start size = window rest (start - front.length) size := by
  simp [window, List.drop_append, List.drop_of_length_le behind]

theorem window_append_left (front rest : Bytes) (size : Nat) (whole : front.length = size) :
    window (front ++ rest) 0 size = front := by
  simp [window, ← whole]

theorem window_take (bytes : Bytes) (start size count : Nat) (inside : start + size ≤ count) :
    window (bytes.take count) start size = bytes.window start size := by
  rw [window, window, List.drop_take, List.take_take, Nat.min_eq_left (by omega)]

theorem window_append_inside (front rest : Bytes) (start size : Nat)
    (inside : start + size ≤ front.length) :
    window (front ++ rest) start size = front.window start size := by
  rw [window, window, List.drop_append_of_le_length (by omega),
    List.take_append_of_le_length (by rw [List.length_drop]; omega)]

theorem drop_window (bytes : Bytes) (start size count : Nat) :
    (bytes.window start size).drop count = bytes.window (start + count) (size - count) := by
  rw [window, window, List.drop_take, List.drop_drop]

theorem take_append_window (bytes : Bytes) (start size : Nat) :
    bytes.take start ++ bytes.window start size = bytes.take (start + size) := by
  rw [window, List.take_add]

def splice (bytes : Bytes) (start : Nat) (data : Bytes) : Bytes :=
  bytes.take start ++ (data ++ bytes.drop (start + data.length))

@[simp] theorem length_splice (bytes : Bytes) (start : Nat) (data : Bytes)
    (inside : start + data.length ≤ bytes.length) :
    (bytes.splice start data).length = bytes.length := by
  simp [splice]
  omega

def padTo (unit : Nat) (bytes : Bytes) : Bytes :=
  bytes ++ List.replicate ((unit - bytes.length % unit) % unit) 0

def chunks (size : Nat) : Bytes → List Bytes
  | [] => []
  | first :: rest => (first :: rest.take (size - 1)) :: chunks size (rest.drop (size - 1))
termination_by bytes => bytes.length
decreasing_by
  simp only [List.length_drop, List.length_cons]
  omega

def xor (left right : Bytes) : Bytes := List.zipWith (· ^^^ ·) left right

@[simp] theorem length_xor (left right : Bytes) :
    (xor left right).length = min left.length right.length := by
  simp [xor]

theorem xor_xor (data mask : Bytes) (covered : data.length ≤ mask.length) :
    xor (xor data mask) mask = data := by
  induction data generalizing mask with
  | nil => rfl
  | cons byte rest ih =>
      cases mask with
      | nil => simp at covered
      | cons first others =>
          have cancel : byte ^^^ first ^^^ first = byte := by
            rw [UInt8.xor_assoc, UInt8.xor_self, UInt8.xor_zero]
          simp only [List.length_cons] at covered
          simpa [xor, cancel] using ih others (by omega)

end Bytes

/-- A byte string of exactly `n` bytes. -/
structure Octets (n : Nat) where
  bytes : Bytes
  length_eq : bytes.length = n
  deriving DecidableEq

namespace Octets

def ofBytes (n : Nat) (bytes : Bytes) : Octets n where
  bytes := bytes.take n ++ List.replicate (n - bytes.length) 0
  length_eq := by simp; omega

def zero (n : Nat) : Octets n := ⟨List.replicate n 0, by simp⟩

instance (n : Nat) : Inhabited (Octets n) := ⟨zero n⟩

def toNat {n : Nat} (octets : Octets n) : Nat := Bytes.toNatBE octets.bytes

def ofNat (n value : Nat) : Octets n := ⟨Bytes.ofNatBE n value, by simp⟩

@[simp] theorem ofBytes_bytes {n : Nat} (octets : Octets n) : ofBytes n octets.bytes = octets := by
  obtain ⟨bytes, rfl⟩ := octets
  simp [ofBytes]

@[simp] theorem ofNat_toNat {n : Nat} (octets : Octets n) : ofNat n octets.toNat = octets := by
  obtain ⟨bytes, rfl⟩ := octets
  simp [ofNat, toNat, Bytes.ofNatBE_toNatBE]

end Octets

end PacketStack
