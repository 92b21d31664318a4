import PacketStack.Capture.File

/-!
Parsers that find the blocks of capture files in a buffer of a fixed size.
-/

namespace PacketStack

/-- A block of a file as a parser finds it. -/
inductive FileBlock where
  /-- The number at the start of a file and that of its link layer, which has a sign. -/
  | header (magic : Nat) (network : Int)
  | record (record : CaptureRecord)
  /-- A block of the format that came later. -/
  | foreign
  deriving DecidableEq, Repr

inductive Found where
  /-- A block and the bytes it takes. -/
  | block (size : Nat) (block : FileBlock)
  /-- Nothing of the file is left. -/
  | ended
  /-- The buffer is to be filled up. -/
  | incomplete
  | flawed
  deriving DecidableEq, Repr

/-- A parser of files. What is left of a file gets less with each block that is consumed and each
time the buffer is filled up, so that reading ends. -/
class BlockParser (π : Type) where
  /-- A parser with a buffer of a size in front of a file. -/
  start : Nat → Bytes → Option π
  find : π → Found × π
  /-- Passes over so many bytes of the buffer. -/
  consume : Nat → π → π
  /-- Reads more of the file into the buffer. -/
  refill : π → Option π
  left : π → Nat
  left_consume : ∀ {parser found : π} {size : Nat} {block : FileBlock},
    find parser = (.block size block, found) → left (consume size found) < left parser
  left_refill : ∀ {parser found filled : π},
    find parser = (.incomplete, found) → refill found = some filled → left filled < left parser

end PacketStack
