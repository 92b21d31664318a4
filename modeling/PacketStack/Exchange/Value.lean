import PacketStack.Address.Hardware
import PacketStack.Address.Internet
import PacketStack.Frame

/-!
Values with named members, the form in which packets are exchanged with other programs.

`Encode` and `Decode` give each type its form. Reading a value is lenient: a member that is missing
or has another form stands for the default of its type.
-/

namespace PacketStack.Exchange

inductive Value where
  | null
  | flag (value : Bool)
  | number (value : Int)
  /-- A fraction: the mantissa divided by ten to the number of places. -/
  | decimal (mantissa : Int) (places : Nat)
  | text (value : String)
  | list (items : List Value)
  | record (members : List (String × Value))
  deriving BEq

class Encode (α : Type) where
  encode : α → Value

class Decode (α : Type) where
  decode : Value → α

export Encode (encode)
export Decode (decode)

namespace Value

instance : Inhabited Value := ⟨.null⟩

def isNull : Value → Bool
  | .null => true
  | _ => false

def items : Value → List Value
  | .list items => items
  | _ => []

def item (value : Value) (index : Nat) : Value := value.items[index]?.getD .null

def member (value : Value) (name : String) : Value :=
  match value with
  | .record members => (members.lookup name).getD .null
  | _ => .null

def has (value : Value) (name : String) : Bool := !(value.member name).isNull

def nat : Value → Nat
  | .number value => value.toNat
  | .text digits => digits.toNat?.getD 0
  | _ => 0

def integer : Value → Int
  | .number value => value
  | _ => 0

def string : Value → String
  | .text value => value
  | _ => ""

def bool : Value → Bool
  | .flag value => value
  | _ => false

def hexBytes : List Char → Bytes
  | high :: low :: rest =>
      UInt8.ofNat (16 * (Text.hexValue? high).getD 0 + (Text.hexValue? low).getD 0) ::
        hexBytes rest
  | _ => []

def bytes : Value → Bytes
  | .text digits => hexBytes digits.toList
  | .record members =>
      let fill := (members.lookup "fill").getD .null
      List.replicate (fill.item 1).nat (fill.item 0).nat.toUInt8
  | _ => []

def get {α : Type} [Decode α] (value : Value) (name : String) (absent : α) : α :=
  let member := value.member name
  if member.isNull then absent else decode member

def get? {α : Type} [Decode α] (value : Value) (name : String) : Option α :=
  let member := value.member name
  if member.isNull then none else some (decode member)

def read {α : Type} [Decode α] (value : Value) (name : String) : α := decode (value.member name)

end Value

def field {α : Type} [Encode α] (name : String) (value : α) : String × Value := (name, encode value)

instance : Encode Value := ⟨id⟩
instance : Encode Bool := ⟨.flag⟩
instance : Encode Nat := ⟨fun n => .number n⟩
instance : Encode Int := ⟨.number⟩
instance : Encode UInt8 := ⟨fun n => .number n.toNat⟩
instance : Encode UInt16 := ⟨fun n => .number n.toNat⟩
instance : Encode UInt32 := ⟨fun n => .number n.toNat⟩
instance : Encode Int8 := ⟨fun n => .number n.toInt⟩
instance : Encode String := ⟨.text⟩

instance : Encode UInt64 := ⟨fun n => .text (toString n.toNat)⟩

instance {α : Type} [Encode α] : Encode (Option α) :=
  ⟨fun value => value.elim .null encode⟩

instance {α β : Type} [Encode α] [Encode β] : Encode (α × β) :=
  ⟨fun (first, second) => .list [encode first, encode second]⟩

instance {α : Type} [Encode α] : Encode (List α) := ⟨fun values => .list (values.map encode)⟩

instance : Encode Bytes := ⟨fun bytes => .text (Text.hexSeparated [] bytes)⟩

instance {n : Nat} : Encode (Octets n) := ⟨fun octets => encode octets.bytes⟩

instance : Decode Value := ⟨id⟩
instance : Decode Bool := ⟨Value.bool⟩
instance : Decode Nat := ⟨Value.nat⟩
instance : Decode Int := ⟨Value.integer⟩
instance : Decode UInt8 := ⟨fun value => value.nat.toUInt8⟩
instance : Decode UInt16 := ⟨fun value => value.nat.toUInt16⟩
instance : Decode UInt32 := ⟨fun value => value.nat.toUInt32⟩
instance : Decode UInt64 := ⟨fun value => value.nat.toUInt64⟩
instance : Decode String := ⟨Value.string⟩

def decodeItems {α : Type} [Decode α] (items : List Value) : List α :=
  let add (known : List (Value × α)) (item : Value) : List (Value × α) :=
    match known with
    | (last, decoded) :: _ =>
        (if item == last then (last, decoded) else (item, decode item)) :: known
    | [] => [(item, decode item)]
  (items.foldl add []).reverse.map (·.2)

instance {α : Type} [Decode α] : Decode (List α) := ⟨fun value => decodeItems value.items⟩

instance {α β : Type} [Decode α] [Decode β] : Decode (α × β) :=
  ⟨fun value => (decode (value.item 0), decode (value.item 1))⟩

instance : Decode Bytes := ⟨Value.bytes⟩

instance {n : Nat} : Decode (Octets n) := ⟨fun value => .ofBytes n value.bytes⟩

instance : Encode HwAddress := ⟨fun address => .text address.text⟩

instance : Encode Ipv4Address := ⟨fun address => .text address.text⟩

instance : Encode Ipv6Address := ⟨fun address => encode address.octets⟩

instance : Encode IpAddress where
  encode
    | .v4 address => encode address
    | .v6 address => encode address

instance : Decode HwAddress :=
  ⟨fun value => (HwAddress.parse value.string).value?.getD .zero⟩

instance : Decode Ipv4Address where
  decode value := .ofNat <|
    (value.string.splitOn ".").foldl (fun number part => 256 * number + part.toNat?.getD 0) 0

instance : Decode Ipv6Address := ⟨fun value => .ofNat (Bytes.toNatBE value.bytes)⟩

instance : Decode IpAddress where
  decode value := if value.string.length = 32 then .v6 (decode value) else .v4 (decode value)

def kindName : Kind → String
  | .ethernet => "ethernet"
  | .dot11 => "dot11"
  | .radioTap => "radiotap"
  | .snap => "snap"
  | .sll => "sll"
  | .loopback => "loopback"
  | .arp => "arp"
  | .ipv4 => "ipv4"
  | .ipv6 => "ipv6"
  | .tcp => "tcp"
  | .udp => "udp"
  | .icmp => "icmp"
  | .dns => "dns"
  | .dhcp => "dhcp"
  | .eapol => "eapol"
  | .raw => "raw"

instance : Encode Kind := ⟨fun kind => .text (kindName kind)⟩

instance : Decode Kind where
  decode value := (Kind.all.find? fun kind => kindName kind == value.string).getD .raw

def failure (kind message : String) : Value :=
  .record [("error", .text kind), ("message", .text message)]

instance : Encode PacketError where
  encode cause :=
    let kind := match cause with
      | .shortBuffer .. => "InsufficientPacketBuffer"
      | .malformed _ => "MalformedPacket"
      | .optionNotFound _ => "OptionNotFound"
      | .malformedOption _ => "MalformedOption"
      | .invalidAddress _ => "InvalidAddress"
    failure kind cause.message

instance : Encode Fault := ⟨fun _ => .record [("error", .text "panic")]⟩

def settled {α : Type} [Encode α] : Outcome α → Value
  | .ok value => encode value
  | .error (.refused cause) => encode cause
  | .error (.fault fault) => encode fault

instance {α : Type} [Encode α] : Encode (Outcome α) where
  encode outcome := settled (outcome.map fun value => Value.record [field "ok" value])

end PacketStack.Exchange
