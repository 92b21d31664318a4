import PacketStack.Packet

/-!
Protected data frames: what they carry, and what is put in its place when it has been decrypted.
-/

namespace PacketStack

/-- Two stations in the order of their addresses. -/
structure StationPair where
  lower : HwAddress
  upper : HwAddress
  deriving DecidableEq, Repr

namespace StationPair

def of (left right : HwAddress) : StationPair :=
  if left.toNat ≤ right.toNat then ⟨left, right⟩ else ⟨right, left⟩

theorem of_comm (left right : HwAddress) : of left right = of right left := by
  unfold of
  split <;> split
  · have same : left.toNat = right.toNat := by omega
    have equal : left = right := by
      rw [← HwAddress.ofNat_toNat left, ← HwAddress.ofNat_toNat right, same]
    simp [equal]
  · rfl
  · rfl
  · omega

def other (pair : StationPair) (station : HwAddress) : HwAddress :=
  if pair.lower = station then pair.upper else pair.lower

end StationPair

namespace Protection

/-- A protected data frame and the bytes inside. -/
structure ProtectedFrame where
  frame : Wireless.Frame
  payload : Bytes
  deriving DecidableEq

def ProtectedFrame.ofPacket? (packet : Packet) : Option ProtectedFrame :=
  match packet.find? .dot11 with
  | some (.over (.dot11 frame) inner) =>
      match inner.layer with
      | .raw raw =>
          if frame.isProtected && frame.data?.isSome then some ⟨frame, raw.payload⟩ else none
      | _ => none
  | _ => none

/-- The layer of a frame without its mark of protection. -/
def unprotect : Layer → Layer
  | .dot11 frame => .dot11 { frame with flags := frame.flags.without .protectedFrame }
  | layer => layer

def attach? (packet : Packet) (plaintext : Bytes) : Option Packet := do
  let snap ← (Packet.parse .snap plaintext).value?
  packet.modify? .dot11 fun node => .over (unprotect node.layer) snap

end Protection

end PacketStack
