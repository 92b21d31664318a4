import Mathlib.Data.List.Nodup
import PacketStack.Proofs.Application.OptionViews
import PacketStack.Proofs.Text.Utf8

/-!
The options that configure a host by their meaning.

Main statements: each value is read as it is laid out (`Setting.view`), the tags are distinct
(`Setting.tag_injective`), and `Dhcp.exists_parse_of_fits` says what is read of a written message.
-/

namespace PacketStack

namespace TaggedOption

variable {option : TaggedOption}

theorem ofLength_of_length_eq {length : Nat} (same : option.value.length = length) :
    option.ofLength length = .ok option.value := by
  rw [ofLength, if_pos same]

theorem byte_singleton (tag byte : UInt8) : TaggedOption.byte ⟨tag, [byte]⟩ = .ok byte := by
  change Except.ok (Bytes.toNatBE [byte]).toUInt8 = _
  simp [Bytes.toNatBE, Bytes.toNatLE]

theorem word32_ofNatBE (tag : UInt8) (word : UInt32) :
    word32 ⟨tag, Bytes.ofNatBE 4 word.toNat⟩ = .ok word := by
  rw [word32, ofLength_of_length_eq (Bytes.length_ofNatBE 4 _)]
  change Except.ok (Bytes.toNatBE (Bytes.ofNatBE 4 word.toNat)).toUInt32 = _
  rw [Bytes.toNatBE_ofNatBE, Bytes.valueCount_eq, toUInt32_mod]

end TaggedOption

theorem Ipv4Address.ofNat_octets (address : Ipv4Address) :
    ofNat (Bytes.toNatBE address.octets) = address := by
  rw [octets, Bytes.toNatBE_ofNatBE, Bytes.valueCount_eq, ofNat_mod]

namespace TaggedOption

theorem ipv4Address_octets (tag : UInt8) (address : Ipv4Address) :
    ipv4Address ⟨tag, address.octets⟩ = .ok address := by
  rw [ipv4Address, ofLength_of_length_eq address.length_octets]
  change Except.ok (Ipv4Address.ofNat (Bytes.toNatBE address.octets)) = _
  rw [Ipv4Address.ofNat_octets]

theorem fours_append {group : Bytes} (whole : group.length = 4) (rest : Bytes) :
    fours (group ++ rest) = group :: fours rest := by
  match group, whole with
  | [a, b, c, d], _ => rfl

theorem fours_flatMap_octets (addresses : List Ipv4Address) :
    fours (addresses.flatMap Ipv4Address.octets) = addresses.map Ipv4Address.octets := by
  induction addresses with
  | nil => rfl
  | cons address addresses ih =>
      rw [List.flatMap_cons, fours_append address.length_octets, ih, List.map_cons]

theorem ipv4Addresses_flatMap_octets (tag : UInt8) (addresses : List Ipv4Address) :
    ipv4Addresses ⟨tag, addresses.flatMap Ipv4Address.octets⟩ = .ok addresses := by
  have whole : (addresses.flatMap Ipv4Address.octets).length % 4 = 0 := by
    simp [List.length_flatMap]
  rw [ipv4Addresses, if_pos whole, fours_flatMap_octets, List.map_map]
  have same : (fun octets => Ipv4Address.ofNat (Bytes.toNatBE octets)) ∘ Ipv4Address.octets = id :=
    funext Ipv4Address.ofNat_octets
  rw [same, List.map_id]

theorem string_encode (tag : UInt8) (text : String) :
    string ⟨tag, Text.Utf8.encode text⟩ = .ok text := by
  rw [string, Text.Utf8.decode?_encode]

end TaggedOption

namespace Dhcp

/-- The options of a message that have a meaning of their own. -/
inductive Setting where
  | messageType
  | address (option : AddressOption)
  | addresses (option : AddressListOption)
  | time (option : TimeOption)
  | text (option : TextOption)
  deriving DecidableEq, Repr

namespace Setting

/-- The values of an option. -/
def Value : Setting → Type
  | .messageType => DhcpMessageType
  | .address _ => Ipv4Address
  | .addresses _ => List Ipv4Address
  | .time _ => UInt32
  | .text _ => String

def get : (setting : Setting) → Dhcp → Outcome setting.Value
  | .messageType, dhcp => dhcp.messageType
  | .address option, dhcp => dhcp.address option
  | .addresses option, dhcp => dhcp.addresses option
  | .time option, dhcp => dhcp.time option
  | .text option, dhcp => dhcp.text option

def set : (setting : Setting) → setting.Value → Dhcp → Dhcp
  | .messageType, value, dhcp => dhcp.setMessageType value
  | .address option, value, dhcp => dhcp.setAddress option value
  | .addresses option, value, dhcp => dhcp.setAddresses option value
  | .time option, value, dhcp => dhcp.setTime option value
  | .text option, value, dhcp => dhcp.setText option value

/-- The meaning of the option and the layout of its values. -/
def view : (setting : Setting) → OptionView setting.Value
  | .messageType => {
      tag := DhcpMessageType.tag
      decode option := do DhcpMessageType.ofId (← option.byte)
      Valid _ := True
      encode value := [value.id]
      decode_encode value _ := by cases value <;> rfl }
  | .address option => {
      tag := option.tag
      decode := TaggedOption.ipv4Address
      Valid _ := True
      encode := Ipv4Address.octets
      decode_encode value _ := TaggedOption.ipv4Address_octets _ value }
  | .addresses option => {
      tag := option.tag
      decode := TaggedOption.ipv4Addresses
      Valid _ := True
      encode := List.flatMap Ipv4Address.octets
      decode_encode value _ := TaggedOption.ipv4Addresses_flatMap_octets _ value }
  | .time option => {
      tag := option.tag
      decode := TaggedOption.word32
      Valid _ := True
      encode value := Bytes.ofNatBE 4 value.toNat
      decode_encode value _ := TaggedOption.word32_ofNatBE _ value }
  | .text option => {
      tag := option.tag
      decode := TaggedOption.string
      Valid _ := True
      encode := Text.Utf8.encode
      decode_encode value _ := TaggedOption.string_encode _ value }

def tag (setting : Setting) : UInt8 := setting.view.tag

theorem valid (setting : Setting) (value : setting.Value) : setting.view.Valid value := by
  cases setting <;> trivial

theorem get_eq (setting : Setting) (dhcp : Dhcp) :
    setting.get dhcp = setting.view.get dhcp.options := by
  cases setting <;> rfl

theorem set_eq (setting : Setting) (value : setting.Value) (dhcp : Dhcp) :
    setting.set value dhcp = { dhcp with options := setting.view.set value dhcp.options } := by
  cases setting <;> rfl

def all : List Setting :=
  [.messageType, .address .subnetMask, .address .broadcast, .address .requestedIp,
    .address .serverIdentifier, .addresses .routers, .addresses .domainNameServers,
    .time .leaseTime, .time .renewalTime, .time .rebindTime, .text .hostname, .text .domainName]

theorem mem_all (setting : Setting) : setting ∈ all := by
  rcases setting with _ | option | option | option | option
  · decide
  all_goals cases option <;> decide

theorem tag_injective : Function.Injective tag := by
  have distinct : (all.map tag).Nodup := by decide
  exact fun setting other same =>
    List.inj_on_of_nodup_map distinct (mem_all setting) (mem_all other) same

theorem hasLength_tag (setting : Setting) : OptionFormat.dhcp.hasLength setting.tag = true := by
  rcases setting with _ | option | option | option | option
  · rfl
  all_goals cases option <;> rfl

end Setting

theorem serialize_eq_ok_of_fits {dhcp : Dhcp} {bytes : Bytes}
    (fits : ∀ option ∈ dhcp.options, option.fits .dhcp = true) :
    (Packet.single (.dhcp dhcp)).serialize = .ok bytes ↔
      dhcp.headerSize < 2 ^ 32 ∧ bytes = dhcp.written [] := by
  rw [Packet.serialize, Packet.serializeWithin, Packet.frame_eq_ok]
  exact and_congr_right' (turns_write_of_fits fits)

theorem exists_parse_of_fits {dhcp : Dhcp}
    (fits : ∀ option ∈ dhcp.options, option.fits .dhcp = true) :
    ∃ bytes, (∀ written, (Packet.single (.dhcp dhcp)).serialize = .ok written ↔
        dhcp.headerSize < 2 ^ 32 ∧ written = bytes) ∧
      Packet.parse .dhcp bytes = .ok (.single (.dhcp { dhcp with
        options := OptionList.parse .dhcp (OptionList.toFlatBytes .dhcp dhcp.options) })) := by
  have decoded := dhcp.decode_written_eq
  have read : Layer.decode .dhcp (dhcp.written []) = .ok (Decoded.map .dhcp _) :=
    Layer.map_eq_ok.mpr ⟨_, decoded, rfl⟩
  have inside := (complete_of_decode decoded).2.2.2
  exact ⟨_, fun _ => serialize_eq_ok_of_fits fits,
    @Packet.parse_of_decode _ _ _ _ _ none read inside rfl⟩

end Dhcp

end PacketStack
