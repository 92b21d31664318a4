import PacketStack.Frame
import PacketStack.Sizes
import PacketStack.Text.Utf8

/-!
Domain names: labels between points in text, labels after their lengths in messages.

A message may point from inside a name to an earlier or later place where the name goes on. The
number of pointers and the size of all labels are limited, so reading ends.
-/

namespace PacketStack

/-- A domain name as the UTF-8 form of its text. -/
structure DnsName where
  utf8 : Bytes
  deriving DecidableEq, Repr, Inhabited

namespace DnsName

def point : UInt8 := 0x2e

def maximumSize : Nat := 255

def maximumLabel : Nat := 63

def maximumPointers : Nat := 64

def ofText (text : String) : DnsName := ⟨Text.Utf8.encode text⟩

def text (name : DnsName) : String := Text.Utf8.decodeLossy name.utf8

def split : Bytes → List Bytes
  | [] => [[]]
  | byte :: rest =>
      if byte = point then [] :: split rest
      else match split rest with
        | [] => [[byte]]
        | label :: labels => (byte :: label) :: labels

def trimmed (name : DnsName) : Bytes := (name.utf8.reverse.dropWhile (· == point)).reverse

def labels (name : DnsName) : List Bytes :=
  if name.trimmed.isEmpty then [] else split name.trimmed

def ofLabels (labels : List Bytes) : DnsName := ⟨List.flatten (labels.intersperse [point])⟩

def size (name : DnsName) : Nat := sizeSum (fun label => label.length + 1) name.labels + 1

def labelBytes (label : Bytes) : Bytes := UInt8.ofNat label.length :: label

def encode (name : DnsName) : Outcome Bytes :=
  if maximumSize < name.size then .malformed (.dnsNameTooLong name.text)
  else if name.labels.any fun label => label.isEmpty || maximumLabel < label.length then
    .malformed (.dnsLabel name.text)
  else .ok (name.labels.flatMap labelBytes ++ [0])

/-- Reads the labels from an offset on and tells where the part of the name ends that stands there.
The size of the labels and the number of pointers met so far are given. -/
def readLabels (message : Bytes) (offset size pointers : Nat) : Outcome (List Bytes × Nat) :=
  match message[offset]? with
  | none => .malformed (.dnsName .truncated)
  | some length =>
      if length = 0 then .ok ([], offset + 1)
      else if length < 0x40 then
        match message.range? (offset + 1) (offset + 1 + length.toNat) with
        | none => .malformed (.dnsName .labelTruncated)
        | some label =>
            if maximumSize < size + length.toNat + 1 then .malformed (.dnsName .tooLong)
            else do
              let (labels, stop) ←
                readLabels message (offset + 1 + length.toNat) (size + length.toNat + 1) pointers
              return (Text.Utf8.encode (Text.Utf8.decodeLossy label) :: labels, stop)
      else if 0xc0 ≤ length then
        match message[offset + 1]? with
        | none => .malformed (.dnsName .pointerTruncated)
        | some low =>
            if maximumPointers < pointers + 1 then .malformed (.dnsName .compressionLoop)
            else
              let target := 256 * (length.toNat - 0xc0) + low.toNat
              if target < 12 ∨ message.length ≤ target then
                .malformed (.dnsName .pointerOutOfRange)
              else do
                let (labels, _) ← readLabels message target size (pointers + 1)
                return (labels, offset + 2)
      else .malformed (.dnsName .unsupportedLabel)
termination_by (maximumSize + 1 - size) + (maximumPointers + 1 - pointers)
decreasing_by
  all_goals omega

/-- The name at an offset of a message, and the offset after it. -/
def read (message : Bytes) (offset : Nat) : Outcome (DnsName × Nat) := do
  let (labels, stop) ← readLabels message offset 0 0
  return (ofLabels labels, stop)

end DnsName

end PacketStack
