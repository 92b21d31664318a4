import PacketStack.Frame

/-!
The element by which a wireless network announces its encryption and authentication. Numbers have
their lowest byte first.
-/

namespace PacketStack.Wireless

/-- The number of a cipher: an organization followed by the type of the cipher. -/
structure CipherSuite where
  id : UInt32
  deriving DecidableEq, Repr, Inhabited

namespace CipherSuite

def wep40 : CipherSuite := ⟨0x01ac0f00⟩

def tkip : CipherSuite := ⟨0x02ac0f00⟩

def ccmp : CipherSuite := ⟨0x04ac0f00⟩

def wep104 : CipherSuite := ⟨0x05ac0f00⟩

def isNamed (suite : CipherSuite) : Bool :=
  suite == wep40 || suite == tkip || suite == ccmp || suite == wep104

end CipherSuite

/-- The number of a way to authenticate and to manage keys. -/
structure AkmSuite where
  id : UInt32
  deriving DecidableEq, Repr, Inhabited

namespace AkmSuite

def enterprise : AkmSuite := ⟨0x01ac0f00⟩

def preShared : AkmSuite := ⟨0x02ac0f00⟩

def isNamed (suite : AkmSuite) : Bool := suite == enterprise || suite == preShared

end AkmSuite

structure RsnInformation where
  version : UInt16
  groupSuite : CipherSuite
  pairwiseSuites : List CipherSuite
  akmSuites : List AkmSuite
  capabilities : UInt16
  deriving DecidableEq, Repr

namespace RsnInformation

instance : Inhabited RsnInformation := ⟨⟨1, ⟨0⟩, [], [], 0⟩⟩

def personal : RsnInformation := ⟨1, .ccmp, [.ccmp], [.preShared], 0⟩

def toBytes (rsn : RsnInformation) : Bytes :=
  Bytes.ofNatLE 2 rsn.version.toNat ++ Bytes.ofNatLE 4 rsn.groupSuite.id.toNat ++
    Bytes.ofNatLE 2 rsn.pairwiseSuites.length ++
    rsn.pairwiseSuites.flatMap (fun suite => Bytes.ofNatLE 4 suite.id.toNat) ++
    Bytes.ofNatLE 2 rsn.akmSuites.length ++
    rsn.akmSuites.flatMap (fun suite => Bytes.ofNatLE 4 suite.id.toNat) ++
    Bytes.ofNatLE 2 rsn.capabilities.toNat

/-- Reads an element which stands in the option of a tag. -/
def reader (tag : UInt8) : Reader RsnInformation := do
  let number := Reader.little fun _ => .malformedOption tag
  let version := (← number 2).toUInt16
  let groupSuite : CipherSuite := ⟨(← number 4).toUInt32⟩
  let pairwise ← Reader.many (number 4) (← number 2)
  let akm ← Reader.many (number 4) (← number 2)
  let capabilities := (← number 2).toUInt16
  return ⟨version, groupSuite, pairwise.map fun id => ⟨id.toUInt32⟩,
    akm.map fun id => ⟨id.toUInt32⟩, capabilities⟩

def parse (tag : UInt8) (bytes : Bytes) : Outcome RsnInformation := (reader tag).run' bytes

end RsnInformation

end PacketStack.Wireless
