import PacketStack.Crc32
import PacketStack.Crypto.Rc4
import PacketStack.Protection.ProtectedFrame
import PacketStack.Table

/-!
Protection by WEP: RC4 under a password that every station of a network knows.
-/

namespace PacketStack

namespace Protection.Wep

def headerSize : Nat := 4

/-- Three bytes which differ from frame to frame. -/
structure InitialVector where
  first : UInt8
  second : UInt8
  third : UInt8
  deriving DecidableEq, Repr

def crypt (vector : InitialVector) (password data : Bytes) : Bytes :=
  Rc4.crypt (vector.first :: vector.second :: vector.third :: password) (List.cons_ne_nil _ _) data

/-- The protected form of data. -/
def encapsulate (vector : InitialVector) (keyIndex : UInt8) (password data : Bytes) : Bytes :=
  vector.first :: vector.second :: vector.third :: keyIndex ::
    crypt vector password (Crc32.attach data)

def decrypt? (password : Bytes) : Bytes → Option Bytes
  | first :: second :: third :: _ :: body =>
      if body.length ≤ 4 then none else Crc32.detach? (crypt ⟨first, second, third⟩ password body)
  | _ => none

end Protection.Wep

/-- The passwords of access points. -/
structure WepPasswords where
  passwords : Table HwAddress Bytes
  deriving DecidableEq, Repr

namespace WepPasswords

def empty : WepPasswords := ⟨[]⟩

def add (keys : WepPasswords) (accessPoint : HwAddress) (password : Bytes) : WepPasswords :=
  ⟨keys.passwords.set accessPoint password⟩

def remove (keys : WepPasswords) (accessPoint : HwAddress) : WepPasswords :=
  ⟨keys.passwords.erase accessPoint⟩

def decrypt? (keys : WepPasswords) (packet : Packet) : Option Packet := do
  let found ← Protection.ProtectedFrame.ofPacket? packet
  let accessPoint ← found.frame.bssid?
  let password ← keys.passwords.get? accessPoint
  Protection.attach? packet (← Protection.Wep.decrypt? password found.payload)

end WepPasswords

end PacketStack
