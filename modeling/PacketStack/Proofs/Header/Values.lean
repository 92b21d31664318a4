import PacketStack.Proofs.Header.Fields

/-!
Values of a fixed width, read back from a field of that width or a wider one.
-/

namespace PacketStack

theorem toUInt8_mod (value : UInt8) : (value.toNat % 2 ^ 8).toUInt8 = value := by
  rw [Nat.mod_eq_of_lt value.toNat_lt]
  exact UInt8.ofNat_toNat

theorem toUInt16_mod (value : UInt16) : (value.toNat % 2 ^ 16).toUInt16 = value := by
  rw [Nat.mod_eq_of_lt value.toNat_lt]
  exact UInt16.ofNat_toNat

theorem toUInt32_mod (value : UInt32) : (value.toNat % 2 ^ 32).toUInt32 = value := by
  rw [Nat.mod_eq_of_lt value.toNat_lt]
  exact UInt32.ofNat_toNat

theorem toUInt64_mod (value : UInt64) : (value.toNat % 2 ^ 64).toUInt64 = value := by
  rw [Nat.mod_eq_of_lt value.toNat_lt]
  exact UInt64.ofNat_toNat

theorem HwAddress.ofNat_mod (address : HwAddress) :
    HwAddress.ofNat (address.toNat % 2 ^ 48) = address := by
  rw [HwAddress.toNat, Nat.mod_eq_of_lt address.bits.isLt]
  exact HwAddress.ofNat_toNat address

theorem Ipv4Address.ofNat_mod (address : Ipv4Address) :
    Ipv4Address.ofNat (address.toNat % 2 ^ 32) = address := by
  rw [Ipv4Address.toNat, Nat.mod_eq_of_lt address.bits.isLt]
  exact Ipv4Address.ofNat_toNat address

theorem Ipv6Address.ofNat_mod (address : Ipv6Address) :
    Ipv6Address.ofNat (address.toNat % 2 ^ 128) = address := by
  rw [Ipv6Address.toNat, Nat.mod_eq_of_lt address.bits.isLt]
  exact Ipv6Address.ofNat_toNat address

theorem Octets.toNat_lt {size : Nat} (octets : Octets size) : octets.toNat < 2 ^ (8 * size) := by
  have bound := Bytes.toNatBE_lt octets.bytes
  rwa [octets.length_eq, Bytes.valueCount_eq] at bound

theorem Octets.ofNat_mod {size : Nat} (octets : Octets size) (width : Nat)
    (wide : width = 8 * size) :
    Octets.ofNat size (octets.toNat % 2 ^ width) = octets := by
  rw [wide, Nat.mod_eq_of_lt octets.toNat_lt, Octets.ofNat_toNat]

theorem HeaderField.get_byte {name : String} {offset : Nat} {bytes : Bytes} {byte : UInt8}
    (present : bytes[offset]? = some byte) :
    (HeaderField.byte name offset).get bytes = byte.toNat := by
  rcases List.getElem?_eq_some_iff.mp present with ⟨inside, value⟩
  have start : (HeaderField.byte name offset).start = 8 * offset := rfl
  have width : (HeaderField.byte name offset).width = 8 := rfl
  have window : bytes.window offset 1 = [byte] := by
    rw [Bytes.window, List.drop_eq_getElem_cons inside, value, List.take_succ_cons, List.take_zero]
  rw [Span.get_of_bytes _ _ rfl (by rw [start]; omega) (by rw [width]), start, width,
    Nat.mul_div_cancel_left _ (by decide), window]
  simp [Bytes.toNatBE, Bytes.toNatLE]

end PacketStack
