/-!
The order of 32 bit sequence numbers, which start over after the largest one.

A number comes before another if the way forward to it is shorter than half of all numbers. Two
numbers half of all numbers apart each come before the other.
-/

namespace PacketStack.Serial

def distance (start stop : UInt32) : UInt32 := stop - start

def compare (left right : UInt32) : Ordering :=
  if left = right then .eq
  else if (distance right left).toNat < 0x80000000 then .gt
  else .lt

def isAfter (left right : UInt32) : Bool := compare left right == .gt

def isBefore (left right : UInt32) : Bool := compare left right == .lt

def advance (start : UInt32) (count : Nat) : UInt32 := start + UInt32.ofNat count

end PacketStack.Serial
