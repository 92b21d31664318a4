import PacketStack.Bytes

/-!
Text in UTF-8, read strictly or with a replacement character for each flaw.
-/

namespace PacketStack.Text.Utf8

def isTail (byte : UInt8) : Bool := 0x80 ≤ byte && byte ≤ 0xbf

def tailLength? (first : UInt8) : Option Nat :=
  if first < 0x80 then some 0
  else if 0xc2 ≤ first ∧ first ≤ 0xdf then some 1
  else if 0xe0 ≤ first ∧ first ≤ 0xef then some 2
  else if 0xf0 ≤ first ∧ first ≤ 0xf4 then some 3
  else none

def mayFollow (first second : UInt8) : Bool :=
  if first = 0xe0 then 0xa0 ≤ second && second ≤ 0xbf
  else if first = 0xed then 0x80 ≤ second && second ≤ 0x9f
  else if first = 0xf0 then 0x90 ≤ second && second ≤ 0xbf
  else if first = 0xf4 then 0x80 ≤ second && second ≤ 0x8f
  else isTail second

def tail (first : UInt8) (length : Nat) : Bytes → Bytes
  | [] => []
  | second :: rest =>
      if length ≠ 0 ∧ mayFollow first second then
        second :: (rest.take (length - 1)).takeWhile isTail
      else []

def assemble (first : UInt8) (tail : Bytes) : Char :=
  let high := if tail.isEmpty then first.toNat else first.toNat % (1 <<< (6 - tail.length))
  Char.ofNat (tail.foldl (fun value byte => 64 * value + byte.toNat % 64) high)

/-- The characters in order, with nothing in the place of the longest beginning of a character that
is not continued. -/
def scan : Bytes → List (Option Char)
  | [] => []
  | first :: rest =>
      match tailLength? first with
      | none => none :: scan rest
      | some length =>
          let tail := tail first length rest
          (if tail.length = length then some (assemble first tail) else none) ::
            scan (rest.drop tail.length)
termination_by bytes => bytes.length
decreasing_by
  all_goals simp only [List.length_drop, List.length_cons]
  all_goals omega

def decode? (bytes : Bytes) : Option String := ((scan bytes).mapM id).map String.ofList

def decodeLossy (bytes : Bytes) : String :=
  String.ofList ((scan bytes).map fun c => c.getD '\ufffd')

def encode (text : String) : Bytes := text.toList.flatMap String.utf8EncodeChar

end PacketStack.Text.Utf8
