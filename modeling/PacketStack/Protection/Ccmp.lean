import PacketStack.Wireless.Frame

/-!
Protection by CCMP: counter mode and a message code by chaining, with any block cipher.

The code covers the parts of the frame header which do not change on the way.
-/

namespace PacketStack.Protection.Ccmp

abbrev BlockCipher := Octets 16 → Octets 16

def headerSize : Nat := 8

def codeSize : Nat := 8

/-- What is known of a frame besides its data: what makes its keystream unique, and what its code
covers. -/
structure Context where
  nonce : Bytes
  covered : Bytes
  deriving DecidableEq, Repr

def coveredFlags (flags : Wireless.Flags) (isQos : Bool) : Wireless.Flags :=
  let fixed := (Wireless.Flags.toDs.union .fromDs).union .moreFragments
  (flags.intersect (if isQos then fixed else fixed.union .order)).union .protectedFrame

def priority (data : Wireless.Data) : UInt8 := if data.isQos then data.trafficId else 0

def coveredType (frame : Wireless.Frame) (data : Wireless.Data) : UInt8 :=
  (frame.protocol &&& (0x03 : UInt8)) ||| (frame.frameType <<< (2 : UInt8)) |||
    ((data.subtype <<< (4 : UInt8)) &&& (0x80 : UInt8))

def Context.of (frame : Wireless.Frame) (data : Wireless.Data) (number : BitVec 48) : Context where
  nonce := priority data :: data.header.addr2.octets ++ Bytes.ofNatBE 6 number.toNat
  covered :=
    [coveredType frame data, (coveredFlags frame.flags data.isQos).bits] ++ frame.addr1.octets ++
      data.header.addr2.octets ++ data.header.addr3.octets ++
      [data.header.fragment &&& 0x0f, 0] ++
      (if frame.flags.isBetweenSystems then data.header.addr4.octets else []) ++
      (if data.isQos then [priority data, 0] else [])

def nonceBlock (context : Context) (flags : UInt8) (number : Nat) : Octets 16 :=
  .ofBytes 16 (flags :: context.nonce ++ Bytes.ofNatBE 2 number)

def keystreamBlock (cipher : BlockCipher) (context : Context) (counter : Nat) : Octets 16 :=
  cipher (nonceBlock context 0x01 counter)

def keystream (cipher : BlockCipher) (context : Context) (size : Nat) : Bytes :=
  (List.range ((size + 15) / 16)).flatMap fun i => (keystreamBlock cipher context (i + 1)).bytes

def crypt (cipher : BlockCipher) (context : Context) (data : Bytes) : Bytes :=
  Bytes.xor data (keystream cipher context data.length)

def chain (cipher : BlockCipher) (blocks : List Bytes) : Octets 16 :=
  blocks.foldl (fun state block => cipher (.ofBytes 16 (Bytes.xor state.bytes block))) (.zero 16)

def code (cipher : BlockCipher) (context : Context) (data : Bytes) : Bytes :=
  let covered := Bytes.padTo 16 (Bytes.ofNatBE 2 context.covered.length ++ context.covered)
  let blocks := (nonceBlock context 0x59 data.length).bytes ::
    (Bytes.chunks 16 covered ++ Bytes.chunks 16 (Bytes.padTo 16 data))
  (chain cipher blocks).bytes.take codeSize

def encryptedCode (cipher : BlockCipher) (context : Context) (data : Bytes) : Bytes :=
  Bytes.xor (code cipher context data) (keystreamBlock cipher context 0).bytes

def header (number : BitVec 48) (keyId : UInt8) : Bytes :=
  let octets := Bytes.ofNatLE 6 number.toNat
  octets.take 2 ++ [0, (0x20 : UInt8) ||| (keyId <<< (6 : UInt8))] ++ octets.drop 2

def numberOf (header : Bytes) : BitVec 48 :=
  BitVec.ofNat 48 (Bytes.toNatLE (header.take 2 ++ header.window 4 4))

/-- The protected form of data in a frame. -/
def encapsulate (cipher : BlockCipher) (frame : Wireless.Frame) (fields : Wireless.Data)
    (number : BitVec 48) (keyId : UInt8) (data : Bytes) : Bytes :=
  let context := Context.of frame fields number
  header number keyId ++ crypt cipher context data ++ encryptedCode cipher context data

/-- The data of a protected payload whose code is right. Only data frames have any. -/
def decrypt? (cipher : BlockCipher) (frame : Wireless.Frame) (payload : Bytes) : Option Bytes := do
  if payload.length < headerSize + codeSize then none
  else
    let context := Context.of frame (← frame.data?) (numberOf (payload.take headerSize))
    let body := payload.drop headerSize
    let data := crypt cipher context (body.take (body.length - codeSize))
    if encryptedCode cipher context data = body.drop (body.length - codeSize) then some data
    else none

end PacketStack.Protection.Ccmp
