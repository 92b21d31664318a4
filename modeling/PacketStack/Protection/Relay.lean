import PacketStack.Packet

/-!
A handler that is given decrypted packets only.
-/

namespace PacketStack.Protection

def relay {σ : Type} (handler : σ → Packet → Bool × σ) (state : σ) : Option Packet → Bool × σ
  | some packet => handler state packet
  | none => (true, state)

end PacketStack.Protection
