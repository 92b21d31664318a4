import PacketStack.Address.Internet
import PacketStack.Reassembly.Flow
import PacketStack.Transport.Tcp

/-!
TCP connections as an observer of both directions sees them.
-/

namespace PacketStack

/-- One end of a connection. -/
structure Socket where
  address : IpAddress
  port : UInt16
  deriving DecidableEq, Repr

/-- Both ends of a connection. The client is the one that opened it. -/
structure Endpoints where
  client : Socket
  server : Socket
  deriving DecidableEq, Repr

def Endpoints.swap (ends : Endpoints) : Endpoints := ⟨ends.server, ends.client⟩

inductive ConnectionState where
  /-- The server has not answered yet. -/
  | opening
  | established
  /-- Both sides have sent everything, or one has given up. -/
  | finished
  deriving DecidableEq, Repr

def ConnectionState.text : ConnectionState → String
  | .opening => "syn-sent"
  | .established => "established"
  | .finished => "finished"

structure Connection where
  id : Nat
  ends : Endpoints
  state : ConnectionState
  fromClient : Flow
  fromServer : Flow
  deriving DecidableEq, Repr

namespace Connection

def firstByte (opening : Tcp) : UInt32 := opening.sequence + 1

/-- The connection which a client opens. -/
def new (id : Nat) (ends : Endpoints) (opening : Tcp) : Connection where
  id := id
  ends := ends
  state := .opening
  fromClient := Flow.empty.begin (firstByte opening)
  fromServer := .empty

def isFinished (connection : Connection) : Bool := connection.state == .finished

/-- Whose delivered bytes are dropped. -/
structure Clearing where
  client : Bool
  server : Bool
  deriving DecidableEq, Repr

def Clearing.none : Clearing := ⟨false, false⟩

def clear (clearing : Clearing) (connection : Connection) : Connection :=
  { connection with
    fromClient := if clearing.client then connection.fromClient.clear else connection.fromClient
    fromServer := if clearing.server then connection.fromServer.clear else connection.fromServer }

def receive (limits : Flow.Limits) (tcp : Tcp) (payload : Bytes) (flow : Flow) : Flow × Bool :=
  let (flow, grown) := flow.receive limits tcp.sequence payload
  (if tcp.flags.contains .fin then flow.markFinish tcp.sequence payload.length else flow, grown)

def settle (connection : Connection) : Connection :=
  if connection.fromClient.isFinished && connection.fromServer.isFinished then
    { connection with state := .finished }
  else connection

/-- Takes a segment of a side and tells whether it brought bytes in order. -/
def update (limits : Flow.Limits) (isClient : Bool) (tcp : Tcp) (payload : Bytes)
    (connection : Connection) : Connection × Bool :=
  if tcp.flags.contains .rst then ({ connection with state := .finished }, false)
  else if connection.isFinished then (connection, false)
  else if connection.state = .opening ∧ !isClient then
    if tcp.flags.contains .syn && tcp.flags.contains .ack then
      ({ connection with
        state := .established
        fromServer := connection.fromServer.begin (firstByte tcp) }, false)
    else (connection, false)
  else if isClient then
    let (flow, grown) := receive limits tcp payload connection.fromClient
    (settle { connection with fromClient := flow }, grown)
  else
    let (flow, grown) := receive limits tcp payload connection.fromServer
    (settle { connection with fromServer := flow }, grown)

end Connection

end PacketStack
