import PacketStack.Proofs.Application.DhcpViews
import PacketStack.Proofs.Wireless.Encoding
import PacketStack.Proofs.Wireless.Security
import PacketStack.Wireless.Element

/-!
The options of management frames by their meaning.

Main statements: each value with a layout is read as it is laid out (`Setting.view`), the tags are
distinct (`Reading.tag_injective`), and `Frame.exists_parse_of_fits` says what is read of a written
frame.
-/

namespace PacketStack

theorem Octets.ofBytes_append {size : Nat} (octets : Octets size) (rest : Bytes) :
    ofBytes size (octets.bytes ++ rest) = octets := by
  rcases octets with ⟨bytes, rfl⟩
  simp [ofBytes]

namespace Wireless

namespace Element

def Shown (name : String) : Prop := name = "" ∨ ∃ byte ∈ Text.Utf8.encode name, byte ≠ 0

def decodeSsid (option : TaggedOption) : Outcome String :=
  if option.value.all (· == 0) then return "" else option.string

theorem decodeSsid_encode {name : String} (shown : Shown name) :
    decodeSsid ⟨ssidTag, Text.Utf8.encode name⟩ = .ok name := by
  rw [decodeSsid]
  rcases shown with rfl | ⟨byte, member, filled⟩
  · rfl
  · have some : ¬ (Text.Utf8.encode name).all (· == 0) = true := by
      rw [List.all_eq_true]
      exact fun zeros => filled (by simpa using zeros byte member)
    rw [if_neg some, TaggedOption.string_encode]

def decodeTrafficMap (option : TaggedOption) : Outcome TrafficMap :=
  match option.value with
  | count :: period :: control :: first :: rest => return ⟨count, period, control, first :: rest⟩
  | _ => option.malformed

theorem decodeTrafficMap_encode {map : TrafficMap} (filled : map.bitmap ≠ []) :
    decodeTrafficMap ⟨trafficMapTag, map.count :: map.period :: map.control :: map.bitmap⟩ =
      .ok map := by
  rcases map with ⟨count, period, control, bitmap⟩
  cases bitmap with
  | nil => exact absurd rfl filled
  | cons first rest => rfl

def decodeCountry (option : TaggedOption) : Outcome Country :=
  match triplets? (option.value.drop 3) with
  | some triplets =>
      if option.value.length < 6 then option.malformed
      else return ⟨.ofBytes 3 option.value, triplets⟩
  | none => option.malformed

def tripletBytes (triplets : List CountryTriplet) : Bytes :=
  triplets.flatMap fun triplet => [triplet.firstChannel, triplet.channels, triplet.maximumPower]

theorem triplets?_append (triplets : List CountryTriplet) {padding : Bytes}
    (padded : padding = [] ∨ padding = [0]) :
    triplets? (tripletBytes triplets ++ padding) = some triplets := by
  induction triplets with
  | nil => rcases padded with rfl | rfl <;> rfl
  | cons triplet triplets ih =>
      rw [tripletBytes, List.flatMap_cons, ← tripletBytes]
      simp only [List.cons_append, List.nil_append, triplets?, ih, Option.map_some]

theorem padding_two (bytes : Bytes) : ∃ padding : Bytes, (padding = [] ∨ padding = [0]) ∧
    Bytes.padTo 2 bytes = bytes ++ padding := by
  refine ⟨_, ?_, rfl⟩
  rcases Nat.mod_two_eq_zero_or_one bytes.length with even | odd
  · exact .inl (by rw [even]; rfl)
  · exact .inr (by rw [odd]; rfl)

theorem decodeCountry_encode {country : Country} (some : country.triplets ≠ []) :
    decodeCountry ⟨countryTag, countryBytes country⟩ = .ok country := by
  rcases country with ⟨code, triplets⟩
  rcases padding_two (code.bytes ++ tripletBytes triplets) with ⟨padding, padded, whole⟩
  have bytes : countryBytes ⟨code, triplets⟩ =
      code.bytes ++ (tripletBytes triplets ++ padding) := by
    rw [← List.append_assoc]
    exact whole
  have limits : triplets? ((countryBytes ⟨code, triplets⟩).drop 3) = .some triplets := by
    rw [bytes, List.drop_left' code.length_eq, triplets?_append triplets padded]
  have length : (tripletBytes triplets).length = 3 * triplets.length := by
    simp only [tripletBytes, List.length_flatMap, List.length_cons, List.length_nil,
      List.map_const', List.sum_replicate_nat]
    omega
  have large : ¬ (countryBytes ⟨code, triplets⟩).length < 6 := by
    have positive : 0 < triplets.length := List.length_pos_iff.mpr some
    rw [bytes, List.length_append, List.length_append, code.length_eq, length]
    omega
  simp only [decodeCountry, limits, if_neg large]
  rw [bytes, Octets.ofBytes_append]
  rfl

def decodeBssLoad (option : TaggedOption) : Outcome BssLoad :=
  match option.value with
  | [a, b, utilization, c, d] =>
      return ⟨(Bytes.toNatLE [a, b]).toUInt16, utilization, (Bytes.toNatLE [c, d]).toUInt16⟩
  | _ => option.malformed

def encodeBssLoad (load : BssLoad) : Bytes :=
  Bytes.ofNatLE 2 load.stations.toNat ++ load.utilization :: Bytes.ofNatLE 2 load.capacity.toNat

theorem decodeBssLoad_encode (load : BssLoad) :
    decodeBssLoad ⟨bssLoadTag, encodeBssLoad load⟩ = .ok load := by
  rcases load with ⟨stations, utilization, capacity⟩
  have pair (word : UInt16) : ∃ low high, Bytes.ofNatLE 2 word.toNat = [low, high] :=
    List.length_eq_two.mp (Bytes.length_ofNatLE 2 _)
  rcases pair stations with ⟨a, b, first⟩
  rcases pair capacity with ⟨c, d, second⟩
  have stations_eq := Bytes.toUInt16_ofNatLE stations
  have capacity_eq := Bytes.toUInt16_ofNatLE capacity
  rw [first] at stations_eq
  rw [second] at capacity_eq
  simp only [encodeBssLoad, first, second]
  change Except.ok (BssLoad.mk _ _ _) = _
  rw [stations_eq, capacity_eq]

def decodePower (option : TaggedOption) : Outcome (UInt8 × UInt8) :=
  match option.value with
  | [least, greatest] => return (least, greatest)
  | _ => option.malformed

def decodeChannelSwitch (option : TaggedOption) : Outcome ChannelSwitch :=
  match option.value with
  | [mode, channel, count] => return ⟨mode, channel, count⟩
  | _ => option.malformed

/-- Lists of suites whose lengths their counts can say. -/
def Counted (rsn : RsnInformation) : Prop :=
  rsn.pairwiseSuites.length ≤ 65535 ∧ rsn.akmSuites.length ≤ 65535

theorem parse_rsn_toBytes_iff {rsn : RsnInformation} (tag : UInt8) :
    RsnInformation.parse tag rsn.toBytes = .ok rsn ↔ Counted rsn := by
  rw [RsnInformation.parse_eq_ok_iff]
  constructor
  · rintro ⟨rest, read⟩
    rcases RsnInformation.reads_reader.mp read with ⟨pairwiseFew, akmFew, -⟩
    exact ⟨pairwiseFew, akmFew⟩
  · rintro ⟨pairwiseFew, akmFew⟩
    exact ⟨[], RsnInformation.reads_reader.mpr
      ⟨pairwiseFew, akmFew, (List.append_nil _).symm⟩⟩

def decodeVendor (option : TaggedOption) : Outcome VendorSpecific :=
  match option.value with
  | a :: b :: c :: data => return ⟨.ofBytes 3 [a, b, c], data⟩
  | _ => option.malformed

/-- The options of a management frame that are set by their meaning. -/
inductive Setting where
  | ssid
  | channel
  | trafficMap
  | country
  | bssLoad
  | challengeText
  | powerCapability
  | channelSwitch
  | erp
  | qos
  | rsn
  deriving DecidableEq, Repr

namespace Setting

/-- The values of an option. -/
def Value : Setting → Type
  | .ssid | .challengeText => String
  | .channel | .erp | .qos => UInt8
  | .trafficMap => TrafficMap
  | .country => Country
  | .bssLoad => BssLoad
  | .powerCapability => UInt8 × UInt8
  | .channelSwitch => ChannelSwitch
  | .rsn => RsnInformation

def get : (setting : Setting) → OptionList → Outcome setting.Value
  | .ssid, options => Element.ssid options
  | .channel, options => byteOf channelTag options
  | .trafficMap, options => Element.trafficMap options
  | .country, options => Element.country options
  | .bssLoad, options => Element.bssLoad options
  | .challengeText, options => Element.challengeText options
  | .powerCapability, options => Element.powerCapability options
  | .channelSwitch, options => Element.channelSwitch options
  | .erp, options => byteOf erpTag options
  | .qos, options => byteOf qosTag options
  | .rsn, options => rsnInformation options

def set : (setting : Setting) → setting.Value → OptionList → OptionList
  | .ssid, value, options => setSsid value options
  | .channel, value, options => setByte channelTag value options
  | .trafficMap, value, options => setTrafficMap value options
  | .country, value, options => setCountry value options
  | .bssLoad, value, options => setBssLoad value options
  | .challengeText, value, options => setChallengeText value options
  | .powerCapability, value, options => setPowerCapability value.1 value.2 options
  | .channelSwitch, value, options => setChannelSwitch value options
  | .erp, value, options => setByte erpTag value options
  | .qos, value, options => setByte qosTag value options
  | .rsn, value, options => setRsnInformation value options

/-- The values that are told apart by how they are laid out. -/
def Valid : (setting : Setting) → setting.Value → Prop
  | .ssid, value => Shown value
  | .trafficMap, value => TrafficMap.bitmap value ≠ []
  | .country, value => Country.triplets value ≠ []
  | .rsn, value => Counted value
  | .channel, _ | .bssLoad, _ | .challengeText, _ | .powerCapability, _ | .channelSwitch, _
  | .erp, _ | .qos, _ => True

def byteView (tag : UInt8) : OptionView UInt8 where
  tag := tag
  decode := TaggedOption.byte
  Valid _ := True
  encode value := [value]
  decode_encode value _ := TaggedOption.byte_singleton tag value

/-- The meaning of the option and the layout of its values. -/
def view : (setting : Setting) → OptionView setting.Value
  | .ssid => {
      tag := ssidTag
      decode := decodeSsid
      Valid := Shown
      encode := Text.Utf8.encode
      decode_encode _ := decodeSsid_encode }
  | .channel => byteView channelTag
  | .trafficMap => {
      tag := trafficMapTag
      decode := decodeTrafficMap
      Valid map := map.bitmap ≠ []
      encode map := map.count :: map.period :: map.control :: map.bitmap
      decode_encode _ := decodeTrafficMap_encode }
  | .country => {
      tag := countryTag
      decode := decodeCountry
      Valid country := country.triplets ≠ []
      encode := countryBytes
      decode_encode _ := decodeCountry_encode }
  | .bssLoad => {
      tag := bssLoadTag
      decode := decodeBssLoad
      Valid _ := True
      encode := encodeBssLoad
      decode_encode load _ := decodeBssLoad_encode load }
  | .challengeText => {
      tag := challengeTag
      decode := TaggedOption.string
      Valid _ := True
      encode := Text.Utf8.encode
      decode_encode text _ := TaggedOption.string_encode challengeTag text }
  | .powerCapability => {
      tag := powerTag
      decode := decodePower
      Valid _ := True
      encode power := [power.1, power.2]
      decode_encode _ _ := rfl }
  | .channelSwitch => {
      tag := channelSwitchTag
      decode := decodeChannelSwitch
      Valid _ := True
      encode switch := [switch.mode, switch.channel, switch.count]
      decode_encode _ _ := rfl }
  | .erp => byteView erpTag
  | .qos => byteView qosTag
  | .rsn => {
      tag := rsnTag
      decode option := RsnInformation.parse option.tag option.value
      Valid := Counted
      encode := RsnInformation.toBytes
      decode_encode _ counted := (parse_rsn_toBytes_iff rsnTag).mpr counted }

def tag (setting : Setting) : UInt8 := setting.view.tag

theorem valid_view {setting : Setting} {value : setting.Value} (valid : setting.Valid value) :
    setting.view.Valid value := by
  cases setting <;> exact valid

theorem get_eq (setting : Setting) (options : OptionList) :
    setting.get options = setting.view.get options := by
  cases setting <;> rfl

theorem set_eq (setting : Setting) (value : setting.Value) (options : OptionList) :
    setting.set value options = setting.view.set value options := by
  cases setting <;> rfl

end Setting

/-- The options of a management frame that have a meaning, also those that are set in other ways. -/
inductive Reading where
  | of (setting : Setting)
  | supportedRates
  | extendedRates
  | vendorSpecific
  deriving DecidableEq, Repr

namespace Reading

/-- The values of an option. -/
def Value : Reading → Type
  | .of setting => setting.Value
  | .supportedRates | .extendedRates => List Rate
  | .vendorSpecific => VendorSpecific

def get : (reading : Reading) → OptionList → Outcome reading.Value
  | .of setting, options => setting.get options
  | .supportedRates, options => ratesOf supportedRatesTag options
  | .extendedRates, options => ratesOf extendedRatesTag options
  | .vendorSpecific, options => Element.vendorSpecific options

/-- The meaning of the option. -/
def view : (reading : Reading) → OptionReading reading.Value
  | .of setting => setting.view.toOptionReading
  | .supportedRates => ⟨supportedRatesTag, fun option => return option.value.map Rate.decode⟩
  | .extendedRates => ⟨extendedRatesTag, fun option => return option.value.map Rate.decode⟩
  | .vendorSpecific => ⟨vendorTag, decodeVendor⟩

def tag (reading : Reading) : UInt8 := reading.view.tag

theorem get_eq (reading : Reading) (options : OptionList) :
    reading.get options = reading.view.get options := by
  cases reading with
  | of setting => exact setting.get_eq options
  | supportedRates | extendedRates | vendorSpecific => rfl

def all : List Reading :=
  [.of .ssid, .supportedRates, .of .channel, .of .trafficMap, .of .country,
    .of .bssLoad, .of .challengeText, .of .powerCapability, .of .channelSwitch,
    .of .erp, .of .qos, .of .rsn, .extendedRates, .vendorSpecific]

theorem mem_all (reading : Reading) : reading ∈ all := by
  rcases reading with setting | _ | _ | _
  · cases setting <;> decide
  all_goals decide

theorem tag_injective : Function.Injective tag := by
  have distinct : (all.map tag).Nodup := by decide
  exact fun reading other same =>
    List.inj_on_of_nodup_map distinct (mem_all reading) (mem_all other) same

end Reading

end Element

theorem SequenceHeader.exists_parse {flags : Flags} {bytes : Bytes}
    (large : size flags ≤ bytes.length) : ∃ header, parse flags bytes = .ok header := by
  exact ⟨_, Outcome.bind_eq_ok.mpr ⟨(), requireSize_eq_ok.mpr large, rfl⟩⟩

theorem ManagementFields.complete_of_hasOptions {fields : ManagementFields}
    (opens : fields.hasOptions = true) : fields.Complete ∧ fields.subtype.toNat < 2 ^ 4 := by
  cases fields with
  | other subtype => cases opens
  | _ => exact ⟨trivial, of_decide_eq_true rfl⟩

theorem Management.exists_parse_toBytes {management : Management} (flags : Flags)
    (opens : management.fields.hasOptions = true)
    (fits : ∀ option ∈ management.options, option.fits .dot11 = true) :
    ∃ header, parse management.fields.subtype flags (management.toBytes flags) =
      .ok (⟨header, management.fields, management.options⟩,
        (management.toBytes flags).length) := by
  rcases management with ⟨header, fields, options⟩
  have readable : OptionList.Readable .dot11 options := readable_dot11_iff.mpr
    fun option member => of_decide_eq_true (fits option member)
  have front := header.length_toBytes flags
  have large : SequenceHeader.size flags ≤ (toBytes ⟨header, fields, options⟩ flags).length := by
    rw [toBytes, List.length_append, front]
    exact Nat.le_add_right _ _
  have fixed : (ManagementFields.read fields.subtype).run
      ((toBytes ⟨header, fields, options⟩ flags).drop (SequenceHeader.size flags)) =
        .ok (fields, OptionList.toFlatBytes .dot11 options) := by
    rw [toBytes, List.drop_left' front]
    exact ManagementFields.reads_toBytes (ManagementFields.complete_of_hasOptions opens).1 _
  rcases SequenceHeader.exists_parse large with ⟨read, parsed⟩
  refine ⟨read, ?_⟩
  rw [parse, parsed]
  change (ManagementFields.read fields.subtype).run _ >>= _ = _
  rw [fixed]
  refine (if_pos opens).trans ?_
  rw [OptionList.parse_toBytes readable]
  rfl

namespace Frame

theorem exists_decode_written {frame : Frame} {management : Management}
    (carries : frame.body = .management management)
    (opens : management.fields.hasOptions = true)
    (fits : ∀ option ∈ management.options, option.fits .dot11 = true) :
    ∃ read header, decode (frame.written []) = .ok ⟨read, [], none⟩ ∧
      read.management? = some ⟨header, management.fields, management.options⟩ := by
  rcases Management.exists_parse_toBytes frame.flags opens fits with ⟨header, parsed⟩
  have subtype_lt := (ManagementFields.complete_of_hasOptions opens).2
  have length := frame.length_written []
  obtain ⟨bytes, equal⟩ : ∃ bytes, bytes = frame.written [] := ⟨_, rfl⟩
  rw [← equal] at length ⊢
  have value {field : HeaderField} {value : Nat} (present : (field, value) ∈ frame.values) :
      field.get bytes = value % 2 ^ field.width := by
    rw [equal]
    exact get_headed frame.fit present _
  have frameType : Header.frameType.get bytes = frame.frameType.toNat % 2 ^ 2 :=
    value (by simp [values])
  have subtype : Header.subtype.get bytes = frame.subtype.toNat % 2 ^ 4 :=
    value (by simp [values])
  have flags : Header.flags.get bytes = frame.flags.bits.toNat % 2 ^ 8 :=
    value (by simp [values])
  have body : bytes.drop Header.size = management.toBytes frame.flags := by
    rw [equal, written, drop_headed, List.append_nil, carries]
    rfl
  have size : frame.body.size frame.flags = (management.toBytes frame.flags).length := by
    rw [← Body.length_toBytes, carries]
    rfl
  have number : frame.frameType.toNat % 2 ^ 2 = 0 := by
    rw [Frame.frameType, carries]
    rfl
  have kept : frame.subtype.toNat % 2 ^ 4 = management.fields.subtype.toNat := by
    rw [Frame.subtype, carries]
    exact Nat.mod_eq_of_lt subtype_lt
  have word : management.fields.subtype.toNat.toUInt8 = management.fields.subtype :=
    UInt8.ofNat_toNat
  have read : decodeBody (Header.frameType.get bytes).toUInt8 (Header.subtype.get bytes).toUInt8
      ⟨(Header.flags.get bytes).toUInt8⟩ (bytes.drop Header.size) =
        .ok (.management ⟨header, management.fields, management.options⟩,
          (management.toBytes frame.flags).length) := by
    rw [frameType, number, subtype, kept, word, flags, toUInt8_mod, body]
    change (Management.parse _ _ _ >>= _ : Outcome (Body × Nat)) = _
    rw [parsed]
    rfl
  refine ⟨ofBytes bytes (.management ⟨header, management.fields, management.options⟩), header,
    decode_eq_ok.mpr ⟨.management ⟨header, management.fields, management.options⟩, _, ?_, read, ?_⟩,
    rfl⟩
  · rw [length, headerSize, size]
    exact Nat.le_add_right _ _
  · rw [← List.drop_drop, body, List.drop_length]
    rfl

theorem serialize_eq_ok_of_fits {frame : Frame} {bytes : Bytes} (fits : frame.body.Fits) :
    (Packet.single (.dot11 frame)).serialize = .ok bytes ↔
      frame.headerSize < 2 ^ 32 ∧ bytes = frame.written [] := by
  rw [Packet.serialize, Packet.serializeWithin, Packet.frame_eq_ok]
  exact and_congr_right' (turns_write_of_fits fits)

theorem exists_parse_of_fits {frame : Frame} {management : Management}
    (carries : frame.body = .management management)
    (opens : management.fields.hasOptions = true)
    (fits : ∀ option ∈ management.options, option.fits .dot11 = true) :
    ∃ bytes read header, (∀ written, (Packet.single (.dot11 frame)).serialize = .ok written ↔
        frame.headerSize < 2 ^ 32 ∧ written = bytes) ∧
      Packet.parse .dot11 bytes = .ok (.single (.dot11 read)) ∧
      read.management? = some ⟨header, management.fields, management.options⟩ := by
  have whole : frame.body.Fits := by
    rw [carries]
    exact fits
  rcases exists_decode_written carries opens fits with ⟨read, header, decoded, content⟩
  have layer : Layer.decode .dot11 (frame.written []) = .ok (Decoded.map .dot11 _) :=
    Layer.map_eq_ok.mpr ⟨_, decoded, rfl⟩
  have inside := (complete_of_decode decoded).2.2.1
  refine ⟨_, read, header, fun _ => serialize_eq_ok_of_fits whole,
    @Packet.parse_of_decode _ _ _ _ _ none layer ?_ rfl, content⟩
  exact Nat.le_trans (Nat.le_add_right _ _) inside

end Frame

end Wireless

end PacketStack
