import PacketStack.Wireless.Management
import PacketStack.Wireless.Security

/-!
The tagged options of management frames by their meaning.
-/

namespace PacketStack.Wireless

/-- A rate in units of 500 kbps. -/
structure Rate where
  halves : UInt8
  deriving DecidableEq, Repr, Inhabited

namespace Rate

def ofMbps (mbps : Float32) : Rate := ⟨(mbps * 2.0).toUInt8⟩

def encode (rate : Rate) : UInt8 :=
  if rate.halves = 2 ∨ rate.halves = 4 ∨ rate.halves = 11 ∨ rate.halves = 22 then
    rate.halves ||| 0x80
  else rate.halves

def decode (byte : UInt8) : Rate := ⟨byte &&& 0x7f⟩

def text (rate : Rate) : String :=
  toString (rate.halves.toNat / 2) ++ if rate.halves.toNat % 2 = 0 then ".0" else ".5"

end Rate

/-- The map of stations for which an access point holds data. -/
structure TrafficMap where
  count : UInt8
  period : UInt8
  control : UInt8
  bitmap : Bytes
  deriving DecidableEq, Repr

/-- The power limit for some channels of a country. -/
structure CountryTriplet where
  firstChannel : UInt8
  channels : UInt8
  maximumPower : UInt8
  deriving DecidableEq, Repr

structure Country where
  code : Octets 3
  triplets : List CountryTriplet
  deriving DecidableEq

structure ChannelSwitch where
  mode : UInt8
  channel : UInt8
  count : UInt8
  deriving DecidableEq, Repr

structure BssLoad where
  stations : UInt16
  utilization : UInt8
  capacity : UInt16
  deriving DecidableEq, Repr

structure VendorSpecific where
  organization : Octets 3
  data : Bytes
  deriving DecidableEq

namespace Element

def ssidTag : UInt8 := 0

def supportedRatesTag : UInt8 := 1

def channelTag : UInt8 := 3

def trafficMapTag : UInt8 := 5

def countryTag : UInt8 := 7

def bssLoadTag : UInt8 := 11

def challengeTag : UInt8 := 16

def powerTag : UInt8 := 33

def channelSwitchTag : UInt8 := 37

def erpTag : UInt8 := 42

def qosTag : UInt8 := 46

def rsnTag : UInt8 := 48

def extendedRatesTag : UInt8 := 50

def vendorTag : UInt8 := 221

/-- The name of the network. Nothing but zeros stands for a hidden one. -/
def ssid (options : OptionList) : Outcome String := do
  let option ← options.get ssidTag
  if option.value.all (· == 0) then return "" else option.string

def setSsid (ssid : String) (options : OptionList) : OptionList :=
  options.set ⟨ssidTag, Text.Utf8.encode ssid⟩

def ratesOf (tag : UInt8) (options : OptionList) : Outcome (List Rate) := do
  return (← options.get tag).value.map Rate.decode

def setRates (tag : UInt8) (rates : List Rate) (options : OptionList) : OptionList :=
  options.set ⟨tag, rates.map Rate.encode⟩

def byteOf (tag : UInt8) (options : OptionList) : Outcome UInt8 := do (← options.get tag).byte

def setByte (tag value : UInt8) (options : OptionList) : OptionList := options.set ⟨tag, [value]⟩

def trafficMap (options : OptionList) : Outcome TrafficMap := do
  let option ← options.get trafficMapTag
  match option.value with
  | count :: period :: control :: first :: rest => return ⟨count, period, control, first :: rest⟩
  | _ => option.malformed

def setTrafficMap (map : TrafficMap) (options : OptionList) : OptionList :=
  options.set ⟨trafficMapTag, map.count :: map.period :: map.control :: map.bitmap⟩

def triplets? : Bytes → Option (List CountryTriplet)
  | [] => some []
  | [0] => some []
  | a :: b :: c :: rest => (triplets? rest).map (⟨a, b, c⟩ :: ·)
  | _ => none

def country (options : OptionList) : Outcome Country := do
  let option ← options.get countryTag
  match triplets? (option.value.drop 3) with
  | some triplets =>
      if option.value.length < 6 then option.malformed
      else return ⟨.ofBytes 3 option.value, triplets⟩
  | none => option.malformed

def countryBytes (country : Country) : Bytes :=
  Bytes.padTo 2 (country.code.bytes ++ country.triplets.flatMap fun triplet =>
    [triplet.firstChannel, triplet.channels, triplet.maximumPower])

def setCountry (country : Country) (options : OptionList) : OptionList :=
  options.set ⟨countryTag, countryBytes country⟩

def bssLoad (options : OptionList) : Outcome BssLoad := do
  let option ← options.get bssLoadTag
  match option.value with
  | [a, b, utilization, c, d] =>
      return ⟨(Bytes.toNatLE [a, b]).toUInt16, utilization, (Bytes.toNatLE [c, d]).toUInt16⟩
  | _ => option.malformed

def setBssLoad (load : BssLoad) (options : OptionList) : OptionList :=
  options.set ⟨bssLoadTag, Bytes.ofNatLE 2 load.stations.toNat ++
    load.utilization :: Bytes.ofNatLE 2 load.capacity.toNat⟩

def challengeText (options : OptionList) : Outcome String := do
  (← options.get challengeTag).string

def setChallengeText (text : String) (options : OptionList) : OptionList :=
  options.set ⟨challengeTag, Text.Utf8.encode text⟩

def powerCapability (options : OptionList) : Outcome (UInt8 × UInt8) := do
  let option ← options.get powerTag
  match option.value with
  | [least, greatest] => return (least, greatest)
  | _ => option.malformed

def setPowerCapability (least greatest : UInt8) (options : OptionList) : OptionList :=
  options.set ⟨powerTag, [least, greatest]⟩

def channelSwitch (options : OptionList) : Outcome ChannelSwitch := do
  let option ← options.get channelSwitchTag
  match option.value with
  | [mode, channel, count] => return ⟨mode, channel, count⟩
  | _ => option.malformed

def setChannelSwitch (switch : ChannelSwitch) (options : OptionList) : OptionList :=
  options.set ⟨channelSwitchTag, [switch.mode, switch.channel, switch.count]⟩

def rsnInformation (options : OptionList) : Outcome RsnInformation := do
  let option ← options.get rsnTag
  RsnInformation.parse option.tag option.value

def setRsnInformation (rsn : RsnInformation) (options : OptionList) : OptionList :=
  options.set ⟨rsnTag, rsn.toBytes⟩

def vendorSpecific (options : OptionList) : Outcome VendorSpecific := do
  let option ← options.get vendorTag
  match option.value with
  | a :: b :: c :: data => return ⟨.ofBytes 3 [a, b, c], data⟩
  | _ => option.malformed

def addVendorSpecific (vendor : VendorSpecific) (options : OptionList) : OptionList :=
  options ++ [⟨vendorTag, vendor.organization.bytes ++ vendor.data⟩]

end Element

end PacketStack.Wireless
