import PacketStack.Exchange.Packet
import PacketStack.Reassembly.Datagram
import PacketStack.Reassembly.Tracker

/-!
The forms of followed connections and of what happens to them.
-/

namespace PacketStack.Exchange

instance : Encode Ordering where
  encode
    | .lt => encode (-1 : Int)
    | .eq => encode (0 : Int)
    | .gt => encode (1 : Int)

instance : Encode Socket := ⟨fun socket => encode (socket.address, socket.port)⟩

instance : Decode Socket := ⟨fun value => ⟨decode (value.item 0), decode (value.item 1)⟩⟩

instance : Encode Flow where
  encode flow := .record [
    field "next_seq" flow.expected,
    field "payload" flow.payload,
    field "delivered" flow.delivered.toUInt64,
    field "buffered" flow.buffered,
    field "fragments" flow.fragments.length,
    field "fin_seen" flow.isFinished]

instance : Encode Connection where
  encode connection := .record [
    field "id" (toString connection.id),
    field "client" connection.ends.client,
    field "server" connection.ends.server,
    field "state" connection.state.text,
    field "finished" connection.isFinished,
    field "client_flow" connection.fromClient,
    field "server_flow" connection.fromServer]

instance : Encode Tracker.Event where
  encode
    | .data connection => .record [
        field "event" "data",
        field "id" (toString connection.id),
        field "client_payload" connection.fromClient.payload,
        field "server_payload" connection.fromServer.payload]
    | .finished connection => .record [
        field "event" "finished",
        field "stream" connection]

instance : Encode Tracker.Config where
  encode config := .record [
    field "max_buffered_bytes" config.maximumBuffered,
    field "max_streams" config.maximumConnections,
    field "track_payload" (if config.keepsPayload then "enabled" else "disabled")]

instance : Decode Tracker.Config where
  decode value :=
    let base : Tracker.Config := {}
    { maximumBuffered := value.get "max_buffered_bytes" base.maximumBuffered
      maximumConnections := value.get "max_streams" base.maximumConnections
      keepsPayload := value.get "track_payload" base.keepsPayload }

instance : Encode ReassemblyError where
  encode cause :=
    let kind := match cause with
      | .invalidPacket _ => "PacketError"
      | .noConnections => "BadConfig"
    failure kind cause.message

instance : Decode Connection.Clearing where
  decode value := match value.string with
    | "client" => ⟨true, false⟩
    | "server" => ⟨false, true⟩
    | "both" => ⟨true, true⟩
    | _ => .none

end PacketStack.Exchange
