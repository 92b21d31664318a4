import PacketStack.Address.Hardware
import PacketStack.Crc32
import PacketStack.Crypto.Aes
import PacketStack.Crypto.Rc4

/-!
Protection by TKIP: RC4 under a key that is mixed anew for each frame from the key of a session, the
address of the sender and a counter of frames.
-/

namespace PacketStack.Protection.Tkip

def headerSize : Nat := 8

def michaelSize : Nat := 8

def spread (byte : UInt8) : UInt16 :=
  let value := Aes.substitute byte
  256 * (Aes.double value).toUInt16 + (Aes.double value ^^^ value).toUInt16

def swapBytes (word : UInt16) : UInt16 := (word <<< 8) ||| (word >>> 8)

def substitute (word : UInt16) : UInt16 :=
  spread word.toUInt8 ^^^ swapBytes (spread (word >>> 8).toUInt8)

def rotate (word : UInt16) : UInt16 := (word >>> 1) ||| (word <<< 15)

def wordAt (bytes : Bytes) (offset : Nat) : UInt16 :=
  (Bytes.toNatLE (bytes.window offset 2)).toUInt16

/-- The counter of frames: a part that changes with every frame and one that seldom does. -/
structure Counter where
  low : UInt16
  high : UInt32
  deriving DecidableEq, Repr

structure SenderMix where
  a : UInt16
  b : UInt16
  c : UInt16
  d : UInt16
  e : UInt16
  deriving DecidableEq, Repr

def mixSenderStep (key : Bytes) (mix : SenderMix) (round : Nat) : SenderMix :=
  let offset := 2 * (round % 2)
  let a := mix.a + substitute (mix.e ^^^ wordAt key offset)
  let b := mix.b + substitute (a ^^^ wordAt key (4 + offset))
  let c := mix.c + substitute (b ^^^ wordAt key (8 + offset))
  let d := mix.d + substitute (c ^^^ wordAt key (12 + offset))
  let e := mix.e + substitute (d ^^^ wordAt key offset) + UInt16.ofNat round
  ⟨a, b, c, d, e⟩

def mixSender (key : Bytes) (sender : HwAddress) (high : UInt32) : SenderMix :=
  (List.range 8).foldl (mixSenderStep key)
    ⟨high.toUInt16, (high >>> 16).toUInt16, wordAt sender.octets 0, wordAt sender.octets 2,
      wordAt sender.octets 4⟩

/-- The second phase: the key of a frame. -/
def mixFrame (key : Bytes) (mix : SenderMix) (low : UInt16) : Bytes :=
  let f := mix.e + low
  let a := mix.a + substitute (f ^^^ wordAt key 0)
  let b := mix.b + substitute (a ^^^ wordAt key 2)
  let c := mix.c + substitute (b ^^^ wordAt key 4)
  let d := mix.d + substitute (c ^^^ wordAt key 6)
  let e := mix.e + substitute (d ^^^ wordAt key 8)
  let f := f + substitute (e ^^^ wordAt key 10)
  let a := a + rotate (f ^^^ wordAt key 12)
  let b := b + rotate (a ^^^ wordAt key 14)
  let c := c + rotate b
  let d := d + rotate c
  let e := e + rotate d
  let f := f + rotate e
  let first := (low >>> 8).toUInt8
  first :: ((first ||| 0x20) &&& 0x7f) :: low.toUInt8 :: ((f ^^^ wordAt key 0) >>> 1).toUInt8 ::
    [a, b, c, d, e, f].flatMap fun word => Bytes.ofNatLE 2 word.toNat

def crypt (key : Octets 16) (sender : HwAddress) (counter : Counter) (data : Bytes) : Bytes :=
  Rc4.crypt (mixFrame key.bytes (mixSender key.bytes sender counter.high) counter.low)
    (List.cons_ne_nil _ _) data

def header (counter : Counter) (keyId : UInt8) : Bytes :=
  let first := (counter.low >>> 8).toUInt8
  [first, (first ||| 0x20) &&& 0x7f, counter.low.toUInt8,
    (0x20 : UInt8) ||| (keyId <<< (6 : UInt8))] ++ Bytes.ofNatLE 4 counter.high.toNat

def counterOf (header : Bytes) : Counter :=
  ⟨(Bytes.toNatBE [header.getD 0 0, header.getD 2 0]).toUInt16,
    (Bytes.toNatLE (header.window 4 4)).toUInt32⟩

/-- The protected form of data that ends in its integrity code. -/
def encapsulate (key : Octets 16) (sender : HwAddress) (counter : Counter) (keyId : UInt8)
    (data : Bytes) : Bytes :=
  header counter keyId ++ crypt key sender counter (Crc32.attach data)

/-- The data of a protected payload whose check is right, without its integrity code. -/
def decrypt? (key : Octets 16) (sender : HwAddress) (payload : Bytes) : Option Bytes :=
  if payload.length ≤ headerSize + michaelSize + 4 then none
  else do
    let data ← Crc32.detach?
      (crypt key sender (counterOf (payload.take headerSize)) (payload.drop headerSize))
    return data.take (data.length - michaelSize)

end PacketStack.Protection.Tkip
