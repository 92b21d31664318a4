import PacketStack.Crypto.Digest

/-!
The digest SHA-1, with its highest bytes first.
-/

namespace PacketStack.Sha1

open Digest (rotate)

structure State where
  a : UInt32
  b : UInt32
  c : UInt32
  d : UInt32
  e : UInt32
  deriving DecidableEq, Repr

def start : State := ⟨0x67452301, 0xefcdab89, 0x98badcfe, 0x10325476, 0xc3d2e1f0⟩

def extend (schedule : Array UInt32) (round : Nat) : Array UInt32 :=
  let word (back : Nat) := schedule.getD (round - back) 0
  schedule.push (rotate (word 3 ^^^ word 8 ^^^ word 14 ^^^ word 16) 1)

def schedule (block : Array UInt32) : Array UInt32 :=
  (List.range' 16 64).foldl extend block

def mix (round : Nat) (b c d : UInt32) : UInt32 :=
  if round < 20 then ((b &&& c) ||| (~~~ b &&& d)) + 0x5a827999
  else if round < 40 then (b ^^^ c ^^^ d) + 0x6ed9eba1
  else if round < 60 then ((b &&& c) ||| (b &&& d) ||| (c &&& d)) + 0x8f1bbcdc
  else (b ^^^ c ^^^ d) + 0xca62c1d6

def step (schedule : Array UInt32) (state : State) (round : Nat) : State :=
  let ⟨a, b, c, d, e⟩ := state
  ⟨rotate a 5 + mix round b c d + e + schedule.getD round 0, a, rotate b 30, c, d⟩

def compress (state : State) (block : Array UInt32) : State :=
  let schedule := schedule block
  let mixed := (List.range 80).foldl (step schedule) state
  ⟨state.a + mixed.a, state.b + mixed.b, state.c + mixed.c, state.d + mixed.d,
    state.e + mixed.e⟩

def hash (message : Bytes) : Octets 20 :=
  let blocks := (Digest.padded (Bytes.ofNatBE 8) message).chunks Digest.blockSize
  let final := (blocks.map (Digest.words Bytes.toNatBE)).foldl compress start
  .ofBytes 20 ([final.a, final.b, final.c, final.d, final.e].flatMap fun word =>
    Bytes.ofNatBE 4 word.toNat)

end PacketStack.Sha1
