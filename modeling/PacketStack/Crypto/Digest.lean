import PacketStack.Bytes

/-!
What the digests of messages have in common: a message is filled up to whole blocks of sixteen
words, with its length at the end.
-/

namespace PacketStack.Digest

def blockSize : Nat := 64

def rotate (word count : UInt32) : UInt32 := (word <<< count) ||| (word >>> (32 - count))

def padded (writeLength : Nat → Bytes) (message : Bytes) : Bytes :=
  message ++ 0x80 :: List.replicate ((119 - message.length % 64) % 64) 0 ++
    writeLength (8 * message.length)

def words (readWord : Bytes → Nat) (block : Bytes) : Array UInt32 :=
  ((block.chunks 4).map fun word => (readWord word).toUInt32).toArray

end PacketStack.Digest
