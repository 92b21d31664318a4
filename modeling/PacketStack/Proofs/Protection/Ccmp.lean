import PacketStack.Protection.Ccmp

/-!
CCMP decryption inverts encapsulation, with any block cipher.
-/

namespace PacketStack.Protection.Ccmp

variable (cipher : BlockCipher) (context : Context)

theorem length_keystream (size : Nat) :
    (keystream cipher context size).length = 16 * ((size + 15) / 16) := by
  simp only [keystream, List.length_flatMap, Octets.length_eq, List.map_const', List.length_range,
    List.sum_replicate_nat]
  omega

@[simp] theorem length_crypt (data : Bytes) : (crypt cipher context data).length = data.length := by
  rw [crypt, Bytes.length_xor, length_keystream]
  omega

theorem crypt_crypt (data : Bytes) : crypt cipher context (crypt cipher context data) = data := by
  rw [crypt, length_crypt, crypt]
  apply Bytes.xor_xor
  rw [length_keystream]
  omega

@[simp] theorem length_encryptedCode (data : Bytes) :
    (encryptedCode cipher context data).length = codeSize := by
  simp [encryptedCode, code, codeSize, Octets.length_eq]

@[simp] theorem length_header (number : BitVec 48) (keyId : UInt8) :
    (header number keyId).length = headerSize := by
  simp [header, headerSize]

theorem numberOf_header (number : BitVec 48) (keyId : UInt8) :
    numberOf (header number keyId) = number := by
  have front : ((Bytes.ofNatLE 6 number.toNat).take 2).length = 2 := by simp
  have back : ((Bytes.ofNatLE 6 number.toNat).drop 2).length = 4 := by simp
  have octets : (header number keyId).take 2 ++ (header number keyId).window 4 4 =
      Bytes.ofNatLE 6 number.toNat := by
    rw [header, Bytes.window, List.append_assoc, List.take_left' front, ← List.append_assoc,
      List.drop_left' (by simp), List.take_of_length_le (Nat.le_of_eq back),
      List.take_append_drop]
  have size : Bytes.valueCount 6 = 2 ^ 48 := by decide
  rw [numberOf, octets, Bytes.toNatLE_ofNatLE, size]
  apply BitVec.eq_of_toNat_eq
  rw [BitVec.toNat_ofNat, Nat.mod_mod, Nat.mod_eq_of_lt number.isLt]

variable {cipher}

theorem decrypt?_encapsulate {frame : Wireless.Frame} {fields : Wireless.Data}
    (carries : frame.data? = some fields) (number : BitVec 48) (keyId : UInt8) (data : Bytes) :
    decrypt? cipher frame (encapsulate cipher frame fields number keyId data) = some data := by
  have front : (header number keyId).length = headerSize := length_header number keyId
  have middle := length_crypt cipher (Context.of frame fields number) data
  have back := length_encryptedCode cipher (Context.of frame fields number) data
  have long : ¬ (encapsulate cipher frame fields number keyId data).length <
      headerSize + codeSize := by
    simp only [encapsulate, List.length_append, front, back]
    omega
  have body : (encapsulate cipher frame fields number keyId data).drop headerSize =
      crypt cipher (Context.of frame fields number) data ++
        encryptedCode cipher (Context.of frame fields number) data := by
    rw [encapsulate, List.append_assoc, List.drop_left' front]
  have number_eq : numberOf ((encapsulate cipher frame fields number keyId data).take
      headerSize) = number := by
    rw [encapsulate, List.append_assoc, List.take_left' front, numberOf_header]
  have split : (crypt cipher (Context.of frame fields number) data ++
      encryptedCode cipher (Context.of frame fields number) data).length - codeSize =
        (crypt cipher (Context.of frame fields number) data).length := by
    rw [List.length_append, back]
    omega
  rw [decrypt?, if_neg long]
  simp only [carries, Option.bind_eq_bind, Option.bind_some, number_eq, body, split,
    List.take_left', List.drop_left', crypt_crypt, if_true]

def expectedCode (cipher : BlockCipher) (frame : Wireless.Frame) (fields : Wireless.Data)
    (front : Bytes) : Bytes :=
  let context := Context.of frame fields (numberOf (front.take headerSize))
  encryptedCode cipher context (crypt cipher context (front.drop headerSize))

theorem eq_of_decrypt?_eq_some {frame : Wireless.Frame} {fields : Wireless.Data}
    {payload data : Bytes} (carries : frame.data? = some fields)
    (accepted : decrypt? cipher frame payload = some data) :
    payload = payload.take (payload.length - codeSize) ++
      expectedCode cipher frame fields (payload.take (payload.length - codeSize)) := by
  unfold decrypt? at accepted
  split at accepted
  · cases accepted
  · rename_i long
    simp only [carries, Option.bind_eq_bind, Option.bind_some, Option.ite_none_right_eq_some]
      at accepted
    rcases accepted with ⟨code, _⟩
    have first : (payload.take (payload.length - codeSize)).take headerSize =
        payload.take headerSize := by
      rw [List.take_take]
      congr 1
      omega
    have middle : (payload.take (payload.length - codeSize)).drop headerSize =
        (payload.drop headerSize).take ((payload.drop headerSize).length - codeSize) := by
      rw [List.drop_take, List.length_drop]
      congr 1
    have last : (payload.drop headerSize).drop ((payload.drop headerSize).length - codeSize) =
        payload.drop (payload.length - codeSize) := by
      rw [List.drop_drop, List.length_drop]
      congr 1
      omega
    rw [last] at code
    rw [expectedCode, first, middle, code, List.take_append_drop]

end PacketStack.Protection.Ccmp
