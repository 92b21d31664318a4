/-!
Points of time, and the precision with which files keep them.
-/

namespace PacketStack

structure Instant where
  nanoseconds : Int
  deriving DecidableEq, Repr, Inhabited

namespace Instant

def nanosecondsPerSecond : Nat := 1000000000

def ofSeconds (seconds : Int) (nanoseconds : Int) : Instant :=
  ⟨seconds * nanosecondsPerSecond + nanoseconds⟩

def seconds (time : Instant) : Nat := time.nanoseconds.toNat / nanosecondsPerSecond

def fraction (time : Instant) : Nat := time.nanoseconds.toNat % nanosecondsPerSecond

def fractionDigits (nanoseconds : Nat) : List Char :=
  let digits := Nat.toDigits 10 nanoseconds
  let all := List.replicate (9 - digits.length) '0' ++ digits
  (all.reverse.dropWhile (· == '0')).reverse

def text (time : Instant) : String :=
  let digits := fractionDigits time.fraction
  let fraction := if digits.isEmpty then "" else "." ++ String.ofList digits
  toString time.seconds ++ fraction ++ "s"

end Instant

inductive Precision where
  | microsecond
  | nanosecond
  deriving DecidableEq, Repr, Inhabited

namespace Precision

def text : Precision → String
  | .microsecond => "microsecond"
  | .nanosecond => "nanosecond"

def describe : Precision → String
  | .microsecond => "Micro"
  | .nanosecond => "Nano"

def unit : Precision → Nat
  | .microsecond => 1000
  | .nanosecond => 1

def magic : Precision → Nat
  | .microsecond => 0xa1b2c3d4
  | .nanosecond => 0xa1b23c4d

end Precision

end PacketStack
