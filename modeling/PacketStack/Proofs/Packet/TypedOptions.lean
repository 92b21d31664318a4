import PacketStack.Proofs.Wireless.ElementViews

/-!
Options that are set by their meaning, in messages that configure hosts and in management frames.

Main statement: `Packet.set_independent` says that a value which has been set is read back, also
once the message has been written, and that nothing else which the message tells is changed by it.
-/

namespace PacketStack

open Wireless

theorem TaggedOption.fits_of_short {option : TaggedOption} (short : option.value.length ≤ 255)
    (format : OptionFormat) : option.fits format = true := by
  simp [fits, short]

namespace Dhcp.Setting

variable {dhcp : Dhcp} {setting : Setting}

theorem get_set (setting : Setting) (value : setting.Value) (dhcp : Dhcp) :
    setting.get (setting.set value dhcp) = .ok value := by
  rw [get_eq, set_eq]
  exact OptionView.get_set (setting.valid value) dhcp.options

theorem get_set_of_ne {other : Setting} (apart : other ≠ setting) (value : setting.Value)
    (dhcp : Dhcp) : other.get (setting.set value dhcp) = other.get dhcp := by
  rw [get_eq, get_eq, set_eq]
  exact OptionView.get_set_of_ne (fun same => apart (tag_injective same)) value dhcp.options

theorem get_written {value : setting.Value}
    (short : ∀ option ∈ (setting.set value dhcp).options, option.value.length ≤ 255)
    (goesOn : ∀ option ∈ dhcp.options.takeWhile (·.tag != setting.tag), option.tag ≠ endTag) :
    ∃ bytes read, (∀ written,
        (Packet.single (.dhcp (setting.set value dhcp))).serialize = .ok written ↔
          (setting.set value dhcp).headerSize < 2 ^ 32 ∧ written = bytes) ∧
      Packet.parse .dhcp bytes = .ok (.single (.dhcp read)) ∧ setting.get read = .ok value := by
  have fits : ∀ option ∈ (setting.set value dhcp).options, option.fits .dhcp = true :=
    fun option member => TaggedOption.fits_of_short (short option member) .dhcp
  rcases exists_parse_of_fits fits with ⟨bytes, written, parsed⟩
  refine ⟨bytes, _, written, parsed, ?_⟩
  rw [set_eq] at fits
  rw [get_eq, set_eq]
  refine OptionView.get_parse_set (setting.valid value) setting.hasLength_tag fits ?_
  intro option member
  simpa [OptionFormat.isEnd] using goesOn option member

end Dhcp.Setting

namespace Wireless.Element

variable {setting : Setting} {value : setting.Value}

theorem Setting.get_set (valid : setting.Valid value) (options : OptionList) :
    setting.get (setting.set value options) = .ok value := by
  rw [get_eq, set_eq]
  exact OptionView.get_set (valid_view valid) options

theorem Reading.get_set_of_ne {reading : Reading} (apart : reading ≠ .of setting)
    (value : setting.Value) (options : OptionList) :
    reading.get (setting.set value options) = reading.get options := by
  rw [get_eq, get_eq, setting.set_eq]
  exact OptionView.get_set_of_ne (fun same => apart (tag_injective same)) value options

end Wireless.Element

namespace Packet

/-- A value that is set by its meaning is read back, and no other option changes: the first option
of the tag is replaced, or there is one more behind the others if there was none. What the options
of other tags mean is as before, also where they are malformed. The value is read from the written
message too, if all options fit in it and neither an end in front of the option nor an opaque body
of a management frame keeps it from being read. The message is written if its size fits 32 bits. -/
theorem set_independent :
    (∀ (dhcp : Dhcp) (setting : Dhcp.Setting) (value : setting.Value),
      setting.get (setting.set value dhcp) = .ok value ∧
      (∀ other, other ≠ setting → other.get (setting.set value dhcp) = other.get dhcp) ∧
      ∃ option after, option.tag = setting.tag ∧
        setting.set value dhcp = { dhcp with options := after } ∧
        OptionList.PutIn option dhcp.options after ∧
        (after.length = dhcp.options.length + 1 ↔ dhcp.options.search? setting.tag = none) ∧
        ((∀ option ∈ after, option.value.length ≤ 255) →
          (∀ option ∈ dhcp.options.takeWhile (·.tag != setting.tag), option.tag ≠ endTag) →
          ∃ bytes read, (∀ written,
              (Packet.single (.dhcp (setting.set value dhcp))).serialize = .ok written ↔
                (setting.set value dhcp).headerSize < 2 ^ 32 ∧ written = bytes) ∧
            parse .dhcp bytes = .ok (.single (.dhcp read)) ∧ setting.get read = .ok value)) ∧
    ∀ (management : Management) (setting : Element.Setting) (value : setting.Value),
      setting.Valid value →
      setting.get (setting.set value management.options) = .ok value ∧
      (∀ reading : Element.Reading, reading ≠ .of setting →
        reading.get (setting.set value management.options) = reading.get management.options) ∧
      ∃ option after, option.tag = setting.tag ∧
        setting.set value management.options = after ∧
        OptionList.PutIn option management.options after ∧
        (after.length = management.options.length + 1 ↔
          management.options.search? setting.tag = none) ∧
        ((∀ option ∈ after, option.value.length ≤ 255) → management.fields.hasOptions = true →
          ∀ frame : Frame, frame.body = .management { management with options := after } →
          ∃ bytes read content, (∀ written, (Packet.single (.dot11 frame)).serialize =
              .ok written ↔ frame.headerSize < 2 ^ 32 ∧ written = bytes) ∧
            parse .dot11 bytes = .ok (.single (.dot11 read)) ∧
            read.management? = some content ∧ setting.get content.options = .ok value) := by
  constructor
  · intro dhcp setting value
    have put := setting.view.putIn_set value dhcp.options
    refine ⟨setting.get_set value dhcp,
      fun other apart => Dhcp.Setting.get_set_of_ne apart value dhcp,
      _, _, rfl, setting.set_eq value dhcp, put, put.length_eq_succ_iff, fun short goesOn => ?_⟩
    refine Dhcp.Setting.get_written ?_ goesOn
    rw [setting.set_eq]
    exact short
  · intro management setting value valid
    have put := setting.view.putIn_set value management.options
    refine ⟨Element.Setting.get_set valid management.options,
      fun reading apart => Element.Reading.get_set_of_ne apart value management.options,
      _, _, rfl, setting.set_eq value management.options, put, put.length_eq_succ_iff,
      fun short opens frame carries => ?_⟩
    rcases Frame.exists_parse_of_fits carries opens
      (fun option member => TaggedOption.fits_of_short (short option member) .dot11) with
      ⟨bytes, read, header, written, parsed, content⟩
    refine ⟨bytes, read, _, written, parsed, content, ?_⟩
    rw [← setting.set_eq]
    exact Element.Setting.get_set valid management.options

/-- A message with padding, a time that is cut short, the same time again and the end. -/
def cutLease : Dhcp := { (default : Dhcp) with
  options := [⟨padTag, []⟩, ⟨Dhcp.TimeOption.leaseTime.tag, [0, 1]⟩,
    ⟨Dhcp.TimeOption.leaseTime.tag, [0, 0, 0, 60]⟩, ⟨endTag, []⟩] }

/-- A beacon with a country that has no limits, and a name that is no text. -/
def landless : Management where
  header := default
  fields := .newBeacon 1
  options := [⟨Element.ssidTag, [0xff]⟩, ⟨Element.countryTag, [0x55, 0x53, 0x20]⟩]

/-- Two limits, which are laid out in an odd number of bytes. -/
def twoBands : Country := ⟨⟨[0x55, 0x53, 0x20], rfl⟩, [⟨1, 11, 30⟩, ⟨36, 4, 23⟩]⟩

theorem lease_and_country_set :
    (∀ option ∈ (cutLease.setTime .leaseTime 3600).options, option.value.length ≤ 255) ∧
    (∀ option ∈ cutLease.options.takeWhile (·.tag != Dhcp.TimeOption.leaseTime.tag),
      option.tag ≠ endTag) ∧
    (∃ bytes read, (single (.dhcp (cutLease.setTime .leaseTime 3600))).serialize = .ok bytes ∧
      parse .dhcp bytes = .ok (.single (.dhcp read)) ∧ read.time .leaseTime = .ok 3600) ∧
    twoBands.triplets ≠ [] ∧
    Element.country (Element.setCountry twoBands landless.options) = .ok twoBands ∧
    Element.ssid (Element.setCountry twoBands landless.options) = Element.ssid landless.options ∧
    landless.fields.hasOptions = true ∧
    ∃ bytes read content, (single (.dot11 ⟨0, ⟨0⟩, 0, .zero, .management { landless with
        options := Element.setCountry twoBands landless.options }⟩)).serialize = .ok bytes ∧
      parse .dot11 bytes = .ok (.single (.dot11 read)) ∧ read.management? = some content ∧
      Element.country content.options = .ok twoBands := by
  have short : ∀ option ∈ (cutLease.setTime .leaseTime 3600).options,
      option.value.length ≤ 255 := by decide
  have goesOn : ∀ option ∈ cutLease.options.takeWhile (·.tag != Dhcp.TimeOption.leaseTime.tag),
      option.tag ≠ endTag := by decide
  have filled : twoBands.triplets ≠ [] := by decide
  have fits : ∀ option ∈ Element.setCountry twoBands landless.options,
      option.value.length ≤ 255 := by decide
  rcases set_independent with ⟨messages, frames⟩
  rcases messages cutLease (.time .leaseTime) (3600 : UInt32) with
    ⟨-, -, option, after, -, same, -, -, written⟩
  rcases frames landless .country twoBands filled with
    ⟨back, others, element, put, -, rfl, -, -, read⟩
  have listed : (cutLease.setTime .leaseTime 3600).options = after := congrArg Dhcp.options same
  rcases written (by rwa [← listed]) goesOn with ⟨lease, leased, serialized, parsed, time⟩
  rcases read fits rfl ⟨0, ⟨0⟩, 0, .zero, .management { landless with
    options := Element.setCountry twoBands landless.options }⟩ rfl with
    ⟨beacon, frame, content, sent, received, body, country⟩
  exact ⟨short, goesOn, ⟨lease, leased, (serialized lease).mpr ⟨by decide, rfl⟩, parsed, time⟩,
    filled, back, others (.of .ssid) (by decide), rfl, beacon, frame, content,
    (sent beacon).mpr ⟨by decide, rfl⟩, received, body, country⟩

/-- A frame whose body is opaque, with the name of a network. -/
def namedOpaque : Frame where
  protocol := 0
  flags := ⟨0⟩
  duration := 0
  addr1 := .zero
  body := .management ⟨default, .other 13, Element.setSsid "net" []⟩

/-- An element with more ciphers than their number can say. -/
def uncounted : RsnInformation := { RsnInformation.personal with
  pairwiseSuites := List.replicate 65536 .ccmp }

/-- Of an opaque body the options are written, but they are not read. Of a list that is too long for
its number not all is read. -/
theorem opaque_and_uncounted_lost :
    Element.ssid (Element.setSsid "net" []) = .ok "net" ∧
    (∀ option ∈ Element.setSsid "net" [], option.value.length ≤ 255) ∧
    (∃ bytes read content rest, (single (.dot11 namedOpaque)).serialize = .ok bytes ∧
      parse .dot11 bytes = .ok (.over (.dot11 read) (raw rest)) ∧
      read.management? = some content ∧
      Element.ssid content.options = .refuse (.optionNotFound Element.ssidTag)) ∧
    Element.rsnInformation (Element.setRsnInformation uncounted []) ≠ .ok uncounted := by
  refine ⟨by decide +kernel, by decide +kernel, ?_, fun same => ?_⟩
  · have decoded : Frame.decode ([0xd0] ++ List.replicate 23 0 ++ [0, 3, 0x6e, 0x65, 0x74]) =
        .ok ⟨{ namedOpaque with body := .management ⟨default, .other 13, []⟩ },
          [0, 3, 0x6e, 0x65, 0x74], none⟩ := rfl
    have layer : Layer.decode .dot11 _ = .ok (Decoded.map .dot11 _) :=
      Layer.map_eq_ok.mpr ⟨_, decoded, rfl⟩
    exact ⟨_, _, _, _, rfl,
      @parse_of_decode _ _ _ _ _ (some (raw _)) layer (by decide) ⟨nofun, rfl⟩, rfl, rfl⟩
  · have found : Element.rsnInformation (Element.setRsnInformation uncounted []) =
        RsnInformation.parse Element.rsnTag uncounted.toBytes :=
      (Element.Setting.rsn.get_eq _).trans
        (Element.Setting.rsn.view.get_set_eq_decode uncounted [])
    rw [found] at same
    have few := ((Element.parse_rsn_toBytes_iff _).mp same).1
    rw [uncounted, List.length_replicate] at few
    omega

end Packet

end PacketStack
