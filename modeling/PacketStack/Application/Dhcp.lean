import PacketStack.Options

/-!
Messages that configure hosts: a fixed header with a cookie, then tagged options.
-/

namespace PacketStack

inductive DhcpMessageType where
  | discover
  | offer
  | request
  | decline
  | ack
  | nak
  | release
  | inform
  deriving DecidableEq, Repr

namespace DhcpMessageType

def id : DhcpMessageType → UInt8
  | .discover => 1
  | .offer => 2
  | .request => 3
  | .decline => 4
  | .ack => 5
  | .nak => 6
  | .release => 7
  | .inform => 8

def all : List DhcpMessageType :=
  [.discover, .offer, .request, .decline, .ack, .nak, .release, .inform]

def tag : UInt8 := 53

def ofId (id : UInt8) : Outcome DhcpMessageType :=
  match all.find? (·.id == id) with
  | some type => .ok type
  | none => .refuse (.malformedOption tag)

end DhcpMessageType

structure Dhcp where
  opcode : UInt8
  hardwareType : UInt8
  hardwareLength : UInt8
  hops : UInt8
  transaction : UInt32
  seconds : UInt16
  flags : UInt16
  clientAddress : Ipv4Address
  yourAddress : Ipv4Address
  serverAddress : Ipv4Address
  gatewayAddress : Ipv4Address
  clientHardware : Octets 16
  serverName : Octets 64
  file : Octets 128
  options : OptionList
  deriving DecidableEq

namespace Dhcp

namespace Header

def opcode : HeaderField := .byte "opcode" 0

def hardwareType : HeaderField := .byte "htype" 1

def hardwareLength : HeaderField := .byte "hlen" 2

def hops : HeaderField := .byte "hops" 3

def transaction : HeaderField := .word32 "xid" 4

def seconds : HeaderField := .word16 "secs" 8

def flags : HeaderField := .word16 "flags" 10

def clientAddress : HeaderField := .internet "ciaddr" 12

def yourAddress : HeaderField := .internet "yiaddr" 16

def serverAddress : HeaderField := .internet "siaddr" 20

def gatewayAddress : HeaderField := .internet "giaddr" 24

def clientHardware : HeaderField := .octets "chaddr" 28 16

def serverName : HeaderField := .octets "sname" 44 64

def file : HeaderField := .octets "file" 108 128

def magic : HeaderField := .word32 "magic" 236

def size : Nat := 240

def layout : HeaderLayout where
  part := .bootp
  minimum := size
  fields := [opcode, hardwareType, hardwareLength, hops, transaction, seconds, flags, clientAddress,
    yourAddress, serverAddress, gatewayAddress, clientHardware, serverName, file, magic]
  regions := [("packet", id), ("options", List.drop size)]
  blocks := []
  describe bytes := Text.openRecord "BootpPacket"
    ([opcode, hardwareType, hardwareLength, hops, transaction, seconds, flags, clientAddress,
      yourAddress, serverAddress, gatewayAddress, magic].map fun field =>
        (field.name, field.describe bytes))

end Header

def cookie : Nat := 0x63825363

instance : Inhabited Dhcp where
  default := {
    opcode := 1
    hardwareType := 1
    hardwareLength := 6
    hops := 0
    transaction := 0
    seconds := 0
    flags := 0
    clientAddress := .zero
    yourAddress := .zero
    serverAddress := .zero
    gatewayAddress := .zero
    clientHardware := .zero 16
    serverName := .zero 64
    file := .zero 128
    options := [] }

def clientHwAddress (dhcp : Dhcp) : HwAddress :=
  .ofNat (Bytes.toNatBE (dhcp.clientHardware.bytes.take 6))

def setClientHwAddress (dhcp : Dhcp) (address : HwAddress) : Dhcp :=
  { dhcp with clientHardware := .ofBytes 16 address.octets, hardwareLength := 6 }

def setOption (dhcp : Dhcp) (tag : UInt8) (value : Bytes) : Dhcp :=
  { dhcp with options := dhcp.options.set ⟨tag, value⟩ }

/-- The tags of the options that hold one address. -/
inductive AddressOption where
  | subnetMask
  | broadcast
  | requestedIp
  | serverIdentifier
  deriving DecidableEq, Repr

def AddressOption.tag : AddressOption → UInt8
  | .subnetMask => 1
  | .broadcast => 28
  | .requestedIp => 50
  | .serverIdentifier => 54

/-- The tags of the options that hold several addresses. -/
inductive AddressListOption where
  | routers
  | domainNameServers
  deriving DecidableEq, Repr

def AddressListOption.tag : AddressListOption → UInt8
  | .routers => 3
  | .domainNameServers => 6

/-- The tags of the options that hold a time in seconds. -/
inductive TimeOption where
  | leaseTime
  | renewalTime
  | rebindTime
  deriving DecidableEq, Repr

def TimeOption.tag : TimeOption → UInt8
  | .leaseTime => 51
  | .renewalTime => 58
  | .rebindTime => 59

/-- The tags of the options that hold a text. -/
inductive TextOption where
  | hostname
  | domainName
  deriving DecidableEq, Repr

def TextOption.tag : TextOption → UInt8
  | .hostname => 12
  | .domainName => 15

def messageType (dhcp : Dhcp) : Outcome DhcpMessageType := do
  DhcpMessageType.ofId (← (← dhcp.options.get DhcpMessageType.tag).byte)

def setMessageType (dhcp : Dhcp) (type : DhcpMessageType) : Dhcp :=
  dhcp.setOption DhcpMessageType.tag [type.id]

def address (dhcp : Dhcp) (option : AddressOption) : Outcome Ipv4Address := do
  (← dhcp.options.get option.tag).ipv4Address

def setAddress (dhcp : Dhcp) (option : AddressOption) (address : Ipv4Address) : Dhcp :=
  dhcp.setOption option.tag address.octets

def addresses (dhcp : Dhcp) (option : AddressListOption) : Outcome (List Ipv4Address) := do
  (← dhcp.options.get option.tag).ipv4Addresses

def setAddresses (dhcp : Dhcp) (option : AddressListOption) (addresses : List Ipv4Address) : Dhcp :=
  dhcp.setOption option.tag (addresses.flatMap Ipv4Address.octets)

def time (dhcp : Dhcp) (option : TimeOption) : Outcome UInt32 := do
  (← dhcp.options.get option.tag).word32

def setTime (dhcp : Dhcp) (option : TimeOption) (seconds : UInt32) : Dhcp :=
  dhcp.setOption option.tag (Bytes.ofNatBE 4 seconds.toNat)

def text (dhcp : Dhcp) (option : TextOption) : Outcome String := do
  (← dhcp.options.get option.tag).string

def setText (dhcp : Dhcp) (option : TextOption) (text : String) : Dhcp :=
  dhcp.setOption option.tag (Text.Utf8.encode text)

def finish (dhcp : Dhcp) : Dhcp := { dhcp with options := dhcp.options ++ [⟨endTag, []⟩] }

def request (type : DhcpMessageType) (transaction : UInt32) (client : HwAddress) : Dhcp :=
  (({ (default : Dhcp) with transaction }).setClientHwAddress client).setMessageType type

def headerSize (dhcp : Dhcp) : Nat := Header.size + dhcp.options.wireSize .dhcp

def write (dhcp : Dhcp) : Write Unit := do
  Write.require .bootp Header.size
  Write.store Header.opcode dhcp.opcode.toNat
  Write.store Header.hardwareType dhcp.hardwareType.toNat
  Write.store Header.hardwareLength dhcp.hardwareLength.toNat
  Write.store Header.hops dhcp.hops.toNat
  Write.store Header.transaction dhcp.transaction.toNat
  Write.store Header.seconds dhcp.seconds.toNat
  Write.store Header.flags dhcp.flags.toNat
  Write.store Header.clientAddress dhcp.clientAddress.toNat
  Write.store Header.yourAddress dhcp.yourAddress.toNat
  Write.store Header.serverAddress dhcp.serverAddress.toNat
  Write.store Header.gatewayAddress dhcp.gatewayAddress.toNat
  Write.store Header.clientHardware dhcp.clientHardware.toNat
  Write.store Header.serverName dhcp.serverName.toNat
  Write.store Header.file dhcp.file.toNat
  Write.store Header.magic cookie
  dhcp.options.write .dhcp Header.size

/-- The options take all bytes after the header. -/
def decode (bytes : Bytes) : Outcome (Decoded Dhcp) := do
  requireSize .bootp Header.size bytes
  let magic := Header.magic.get bytes
  .demand (magic = cookie) (.dhcpCookie magic.toUInt32)
  let header := {
    opcode := (Header.opcode.get bytes).toUInt8
    hardwareType := (Header.hardwareType.get bytes).toUInt8
    hardwareLength := (Header.hardwareLength.get bytes).toUInt8
    hops := (Header.hops.get bytes).toUInt8
    transaction := (Header.transaction.get bytes).toUInt32
    seconds := (Header.seconds.get bytes).toUInt16
    flags := (Header.flags.get bytes).toUInt16
    clientAddress := Header.clientAddress.ipv4Address bytes
    yourAddress := Header.yourAddress.ipv4Address bytes
    serverAddress := Header.serverAddress.ipv4Address bytes
    gatewayAddress := Header.gatewayAddress.ipv4Address bytes
    clientHardware := .ofNat 16 (Header.clientHardware.get bytes)
    serverName := .ofNat 64 (Header.serverName.get bytes)
    file := .ofNat 128 (Header.file.get bytes)
    options := OptionList.parse .dhcp (bytes.drop Header.size) }
  return ⟨header, [], none⟩

theorem next_eq_none {bytes : Bytes} {decoded : Decoded Dhcp}
    (read : decode bytes = .ok decoded) : decoded.next = none := by
  simp only [decode, Outcome.bind_eq_ok] at read
  obtain ⟨_, _, _, _, result⟩ := read
  injection result with result
  rw [← result]

end Dhcp

end PacketStack
