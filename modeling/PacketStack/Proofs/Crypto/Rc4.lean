import PacketStack.Bytes
import PacketStack.Crypto.Rc4

/-!
RC4 as a mask over data: what a cipher does to data depends on the data by its length alone, so
encrypting twice gives the data back.
-/

namespace PacketStack.Rc4

theorem new_eq {key : Bytes} (nonempty : key ≠ []) : new key = .ok (ofKey key nonempty) :=
  dif_neg nonempty

/-- The next bytes of the keystream. -/
def masks (cipher : Rc4) : Nat → Bytes
  | 0 => []
  | count + 1 => cipher.next.1 :: masks cipher.next.2 count

@[simp] theorem length_masks (cipher : Rc4) (count : Nat) :
    (cipher.masks count).length = count := by
  induction count generalizing cipher with
  | zero => rfl
  | succ count ih => simp [masks, ih]

theorem apply_fst (cipher : Rc4) (data : Bytes) :
    (cipher.apply data).1 = Bytes.xor data (cipher.masks data.length) := by
  induction data generalizing cipher with
  | nil => rfl
  | cons byte rest ih => simp [apply, masks, Bytes.xor, ih]

theorem crypt_eq (key : Bytes) (nonempty : key ≠ []) (data : Bytes) :
    crypt key nonempty data = Bytes.xor data ((ofKey key nonempty).masks data.length) :=
  apply_fst _ data

@[simp] theorem length_crypt (key : Bytes) (nonempty : key ≠ []) (data : Bytes) :
    (crypt key nonempty data).length = data.length := by
  simp [crypt_eq]

theorem take_crypt_congr (key : Bytes) (nonempty : key ≠ []) {left right : Bytes} {count : Nat}
    (size : left.length = right.length) (same : left.take count = right.take count) :
    (crypt key nonempty left).take count = (crypt key nonempty right).take count := by
  rw [crypt_eq, crypt_eq, Bytes.xor, Bytes.xor, List.take_zipWith, List.take_zipWith, size, same]

theorem crypt_crypt (key : Bytes) (nonempty : key ≠ []) (data : Bytes) :
    crypt key nonempty (crypt key nonempty data) = data := by
  rw [crypt_eq key nonempty (crypt key nonempty data), length_crypt, crypt_eq]
  exact Bytes.xor_xor data _ (by simp)

end PacketStack.Rc4
