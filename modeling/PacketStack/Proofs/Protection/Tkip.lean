import PacketStack.Proofs.Crypto.Rc4
import PacketStack.Protection.Tkip

/-!
TKIP decryption inverts encapsulation.
-/

namespace PacketStack.Protection.Tkip

@[simp] theorem length_header (counter : Counter) (keyId : UInt8) :
    (header counter keyId).length = headerSize := by
  simp [header, headerSize]

theorem toNatBE_bytes_of_word (word : UInt16) :
    Bytes.toNatBE [(word >>> 8).toUInt8, word.toUInt8] = word.toNat := by
  have bound : word.toNat < 65536 := word.toNat_lt
  simp only [Bytes.toNatBE, Bytes.toNatLE, List.reverse_cons, List.reverse_nil, List.nil_append,
    List.cons_append, UInt16.toNat_toUInt8, UInt16.toNat_shiftRight]
  have shift : word.toNat >>> ((8 : UInt16).toNat % 16) = word.toNat / 256 := by
    rw [show (8 : UInt16).toNat % 16 = 8 from rfl, Nat.shiftRight_eq_div_pow]
  rw [shift]
  omega

theorem counterOf_header (counter : Counter) (keyId : UInt8) :
    counterOf (header counter keyId) = counter := by
  rcases counter with ⟨low, high⟩
  have highBytes : (header ⟨low, high⟩ keyId).window 4 4 = Bytes.ofNatLE 4 high.toNat := by
    rw [header, Bytes.window_append_right _ _ _ _ (by simp), Bytes.window]
    exact List.take_of_length_le (by simp)
  have bound : high.toNat < 4294967296 := high.toNat_lt
  have size : Bytes.valueCount 4 = 4294967296 := by decide
  have low_eq : (Bytes.toNatBE [(low >>> 8).toUInt8, low.toUInt8]).toUInt16 = low := by
    rw [toNatBE_bytes_of_word]
    exact UInt16.ofNat_toNat
  have high_eq : (Bytes.toNatLE (Bytes.ofNatLE 4 high.toNat)).toUInt32 = high := by
    rw [Bytes.toNatLE_ofNatLE, size, Nat.mod_eq_of_lt bound]
    exact UInt32.ofNat_toNat
  rw [counterOf, highBytes, high_eq]
  congr 1

@[simp] theorem length_crypt (key : Octets 16) (sender : HwAddress) (counter : Counter)
    (data : Bytes) : (crypt key sender counter data).length = data.length := by
  exact Rc4.length_crypt _ _ data

theorem take_crypt_congr (key : Octets 16) (sender : HwAddress) (counter : Counter)
    {left right : Bytes} {count : Nat} (size : left.length = right.length)
    (same : left.take count = right.take count) :
    (crypt key sender counter left).take count = (crypt key sender counter right).take count :=
  Rc4.take_crypt_congr _ _ size same

theorem crypt_crypt (key : Octets 16) (sender : HwAddress) (counter : Counter) (data : Bytes) :
    crypt key sender counter (crypt key sender counter data) = data :=
  Rc4.crypt_crypt _ _ data

theorem decrypt?_encapsulate (key : Octets 16) (sender : HwAddress) (counter : Counter)
    (keyId : UInt8) (data michael : Bytes) (nonempty : data ≠ [])
    (size : michael.length = michaelSize) :
    decrypt? key sender (encapsulate key sender counter keyId (data ++ michael)) = some data := by
  have front : (header counter keyId).length = headerSize := length_header counter keyId
  have positive : 0 < data.length := List.length_pos_iff.mpr nonempty
  have long : ¬ (encapsulate key sender counter keyId (data ++ michael)).length ≤
      headerSize + michaelSize + 4 := by
    simp only [encapsulate, Crc32.attach, List.length_append, front, length_crypt, size,
      Crc32.length_bytes]
    omega
  have body : (encapsulate key sender counter keyId (data ++ michael)).drop headerSize =
      crypt key sender counter (Crc32.attach (data ++ michael)) := by
    rw [encapsulate, List.drop_left' front]
  have counter_eq : counterOf ((encapsulate key sender counter keyId (data ++ michael)).take
      headerSize) = counter := by
    rw [encapsulate, List.take_left' front, counterOf_header]
  have split : (data ++ michael).length - michaelSize = data.length := by
    rw [List.length_append, size]
    omega
  rw [decrypt?, if_neg long]
  simp only [counter_eq, body, crypt_crypt, Crc32.detach?_attach, Option.bind_eq_bind,
    Option.bind_some, split, List.take_left']
  rfl

end PacketStack.Protection.Tkip
