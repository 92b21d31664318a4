import PacketStack.Exchange.Value
import PacketStack.Options
import PacketStack.Transport.Tcp

/-!
The forms of options: a tag or kind beside its data.
-/

namespace PacketStack.Exchange

instance : Encode TaggedOption := ⟨fun option => encode (option.tag, option.value)⟩

instance : Decode TaggedOption where
  decode value := ⟨decode (value.item 0), decode (value.item 1)⟩

instance : Decode OptionFormat where
  decode value := if value.string = "dhcp" then .dhcp else .dot11

instance : Encode TcpOption := ⟨fun option => encode (option.kind, option.data)⟩

instance : Decode TcpOption where
  decode value :=
    if let some size := value.get? "mss" then .mss size
    else if let some shift := value.get? "window_scale" then .windowScale shift
    else if let some (time, echo) := value.get? (α := UInt32 × UInt32) "timestamp" then
      .timestamp time echo
    else if value.has "nop" then .nop
    else if value.has "sack_permitted" then .sackPermitted
    else ⟨decode (value.item 0), decode (value.item 1)⟩

end PacketStack.Exchange
