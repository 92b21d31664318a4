import PacketStack.Bytes

/-!
The 32 bit cyclic redundancy check of link layers and of wireless encryption.
-/

namespace PacketStack.Crc32

def polynomial : UInt32 := 0xedb88320

def shift (remainder : UInt32) : UInt32 :=
  if remainder &&& 1 = 1 then (remainder >>> 1) ^^^ polynomial else remainder >>> 1

def addByte (remainder : UInt32) (byte : UInt8) : UInt32 :=
  let r := remainder ^^^ byte.toUInt32
  shift (shift (shift (shift (shift (shift (shift (shift r)))))))

def hash (bytes : Bytes) : UInt32 := ~~~ bytes.foldl addByte 0xffffffff

def bytes (data : Bytes) : Bytes := Bytes.ofNatLE 4 (hash data).toNat

def attach (data : Bytes) : Bytes := data ++ bytes data

def detach? (checked : Bytes) : Option Bytes :=
  let data := checked.take (checked.length - 4)
  if 4 ≤ checked.length ∧ bytes data = checked.drop (checked.length - 4) then some data else none

@[simp] theorem length_bytes (data : Bytes) : (bytes data).length = 4 := by simp [bytes]

theorem detach?_attach (data : Bytes) : detach? (attach data) = some data := by
  simp [detach?, attach]

theorem detach?_eq_some_iff {checked data : Bytes} :
    detach? checked = some data ↔ checked = attach data := by
  constructor
  · intro fits
    simp only [detach?, Option.ite_none_right_eq_some, Option.some.injEq] at fits
    obtain ⟨⟨_, check⟩, rfl⟩ := fits
    rw [attach, check, List.take_append_drop]
  · rintro rfl
    exact detach?_attach data

end PacketStack.Crc32
