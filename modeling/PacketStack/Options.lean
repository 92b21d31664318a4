import PacketStack.Frame
import PacketStack.Sizes
import PacketStack.Text.Utf8

/-!
Lists of tagged options: a tag, the length of a value and the value.

Options keep their order and a tag may stand in several of them. Where one is looked up by its tag,
the first counts.
-/

namespace PacketStack

/-- How options are written. In DHCP two tags stand alone, without a length or a value. -/
inductive OptionFormat where
  | dot11
  | dhcp
  deriving DecidableEq, Repr

structure TaggedOption where
  tag : UInt8
  value : Bytes
  deriving DecidableEq, Repr, Inhabited

def padTag : UInt8 := 0

def endTag : UInt8 := 255

def OptionFormat.hasLength (format : OptionFormat) (tag : UInt8) : Bool :=
  match format with
  | .dot11 => true
  | .dhcp => tag != padTag && tag != endTag

def OptionFormat.isEnd (format : OptionFormat) (tag : UInt8) : Bool :=
  format == .dhcp && tag == endTag

namespace TaggedOption

def malformed {α : Type} (option : TaggedOption) : Outcome α :=
  .refuse (.malformedOption option.tag)

def ofLength (option : TaggedOption) (length : Nat) : Outcome Bytes :=
  if option.value.length = length then .ok option.value else option.malformed

def byte (option : TaggedOption) : Outcome UInt8 := do
  return (Bytes.toNatBE (← option.ofLength 1)).toUInt8

def word16 (option : TaggedOption) : Outcome UInt16 := do
  return (Bytes.toNatBE (← option.ofLength 2)).toUInt16

def word32 (option : TaggedOption) : Outcome UInt32 := do
  return (Bytes.toNatBE (← option.ofLength 4)).toUInt32

def ipv4Address (option : TaggedOption) : Outcome Ipv4Address := do
  return .ofNat (Bytes.toNatBE (← option.ofLength 4))

def fours : Bytes → List Bytes
  | a :: b :: c :: d :: rest => [a, b, c, d] :: fours rest
  | _ => []

def ipv4Addresses (option : TaggedOption) : Outcome (List Ipv4Address) :=
  if option.value.length % 4 = 0 then
    .ok ((fours option.value).map fun octets => .ofNat (Bytes.toNatBE octets))
  else option.malformed

def string (option : TaggedOption) : Outcome String :=
  match Text.Utf8.decode? option.value with
  | some text => .ok text
  | none => option.malformed

def wireSize (format : OptionFormat) (option : TaggedOption) : Nat :=
  if format.hasLength option.tag then 2 + option.value.length else 1

def fits (format : OptionFormat) (option : TaggedOption) : Bool :=
  !format.hasLength option.tag || option.value.length ≤ 255

/-- The bytes of an option that fits. -/
def toBytes (format : OptionFormat) (option : TaggedOption) : Bytes :=
  if format.hasLength option.tag then
    option.tag :: UInt8.ofNat option.value.length :: option.value
  else [option.tag]

def describe (option : TaggedOption) : String :=
  Text.record "TaggedOption" [
    ("tag", toString option.tag.toNat),
    ("value", Text.quotedBytes option.value)]

end TaggedOption

abbrev OptionList := List TaggedOption

namespace OptionList

/-- Reads options until one is cut short or, in DHCP, up to and with the end. -/
def parse (format : OptionFormat) : Bytes → OptionList
  | [] => []
  | tag :: rest =>
      if !format.hasLength tag then
        if format.isEnd tag then [⟨tag, []⟩] else ⟨tag, []⟩ :: parse format rest
      else match rest with
        | [] => []
        | length :: values =>
            let value := values.take length.toNat
            if value.length = length.toNat then
              ⟨tag, value⟩ :: parse format (values.drop length.toNat)
            else []
termination_by bytes => bytes.length
decreasing_by
  all_goals simp only [List.length_drop, List.length_cons]
  all_goals omega

def set (option : TaggedOption) : OptionList → OptionList
  | [] => [option]
  | first :: rest => if first.tag = option.tag then option :: rest else first :: set option rest

def remove (tag : UInt8) (options : OptionList) : OptionList := options.eraseP (·.tag == tag)

def search? (tag : UInt8) (options : OptionList) : Option TaggedOption :=
  options.find? (·.tag == tag)

def get (tag : UInt8) (options : OptionList) : Outcome TaggedOption :=
  match search? tag options with
  | some option => .ok option
  | none => .refuse (.optionNotFound tag)

def contains (tag : UInt8) (options : OptionList) : Bool := (search? tag options).isSome

def wireSize (format : OptionFormat) (options : OptionList) : Nat :=
  sizeSum (TaggedOption.wireSize format) options

/-- Writes options into the end of the frame from an offset on, which must have room for all. Of the
first option that does not fit only the tag is written. -/
def write (format : OptionFormat) (offset : Nat) (options : OptionList) : Write Unit := do
  Write.reach offset
  let available := (← Write.frame).length - offset
  let size := wireSize format options
  if available < size then throw (.refused (.shortBuffer .optionList size available))
  let fitting := options.takeWhile (TaggedOption.fits format)
  Write.put offset (fitting.flatMap (TaggedOption.toBytes format))
  match options.dropWhile (TaggedOption.fits format) with
  | [] => return
  | option :: _ =>
      Write.put (offset + wireSize format fitting) [option.tag]
      throw (.refused (.malformedOption option.tag))

def toBytes (format : OptionFormat) (options : OptionList) : Outcome Bytes :=
  let (outcome, bytes) := Write.into (List.replicate (wireSize format options) 0)
    (write format 0 options)
  outcome.map fun _ => bytes

end OptionList

end PacketStack
