import PacketStack.Packet
import PacketStack.Reassembly.Connection
import PacketStack.Table

/-!
Following the connections in a sequence of packets.

A connection is followed from the segment by which its client opens it until it is finished.
-/

namespace PacketStack

inductive ReassemblyError where
  | invalidPacket (cause : PacketError)
  | noConnections
  deriving DecidableEq, Repr

def ReassemblyError.message : ReassemblyError → String
  | .invalidPacket cause => s!"invalid packet: {cause.message}"
  | .noConnections => "invalid config: max_streams must be positive"

/-- The connections that are followed, in the order in which they were opened. -/
structure Tracker where
  limits : Flow.Limits
  maximumConnections : Nat
  connections : Table Endpoints Connection
  /-- The identifier of the next connection. -/
  nextId : Nat
  deriving DecidableEq, Repr

namespace Tracker

structure Config where
  maximumBuffered : Nat := 1024 * 1024
  maximumConnections : Nat := 4096
  keepsPayload : Bool := true
  deriving DecidableEq, Repr

def ofConfig (config : Config) : Except ReassemblyError Tracker :=
  if config.maximumConnections = 0 then .error .noConnections
  else .ok ⟨⟨config.maximumBuffered, config.keepsPayload⟩, config.maximumConnections, [], 0⟩

inductive Event where
  /-- A connection has new bytes in order. -/
  | data (connection : Connection)
  /-- A connection was finished and is not followed any longer. -/
  | finished (connection : Connection)
  deriving DecidableEq, Repr

def find? (tracker : Tracker) (left right : Socket) : Option Connection :=
  (tracker.connections.get? ⟨left, right⟩).or (tracker.connections.get? ⟨right, left⟩)

/-- A segment of a connection with the sockets it goes between. -/
structure Segment where
  source : Socket
  destination : Socket
  tcp : Tcp
  payload : Bytes
  deriving DecidableEq, Repr

def rawPayload (packet : Packet) : Bytes :=
  match packet.inner?.map Packet.layer with
  | some (.raw raw) => raw.payload
  | _ => []

def Segment.ofPacket? (packet : Packet) : Option Segment := do
  let (source, destination) ← packet.addresses?
  let node ← packet.find? .tcp
  match node.layer with
  | .tcp tcp =>
      some ⟨⟨source, tcp.sourcePort⟩, ⟨destination, tcp.destinationPort⟩, tcp, rawPayload node⟩
  | _ => none

def endsOf? (tracker : Tracker) (segment : Segment) : Option Endpoints :=
  let ends : Endpoints := ⟨segment.source, segment.destination⟩
  if tracker.connections.contains ends then some ends
  else if tracker.connections.contains ends.swap then some ends.swap
  else none

def follow (tracker : Tracker) (segment : Segment) : Tracker :=
  let opens := segment.tcp.flags.contains .syn && !segment.tcp.flags.contains .ack
  if opens ∧ tracker.connections.length < tracker.maximumConnections then
    let ends : Endpoints := ⟨segment.source, segment.destination⟩
    { tracker with
      connections := tracker.connections.set ends (.new tracker.nextId ends segment.tcp)
      nextId := tracker.nextId + 1 }
  else tracker

/-- Takes a segment of a followed connection. What was delivered may be dropped after the event
that tells of it. -/
def advance (tracker : Tracker) (clearing : Connection.Clearing) (segment : Segment)
    (ends : Endpoints) (connection : Connection) : Tracker × List Event :=
  let isClient := segment.source = ends.client
  let (updated, grown) := connection.update tracker.limits isClient segment.tcp segment.payload
  let kept := if grown then updated.clear clearing else updated
  let news := if grown then [.data updated] else []
  if kept.isFinished then
    ({ tracker with connections := tracker.connections.erase ends }, news ++ [.finished kept])
  else ({ tracker with connections := tracker.connections.set ends kept }, news)

def processSegment (tracker : Tracker) (clearing : Connection.Clearing) (segment : Segment) :
    Tracker × List Event :=
  match tracker.endsOf? segment with
  | none => (tracker.follow segment, [])
  | some ends =>
      match tracker.connections.get? ends with
      | none => (tracker, [])
      | some connection => tracker.advance clearing segment ends connection

/-- Takes a packet, which may hold no segment. -/
def process (tracker : Tracker) (clearing : Connection.Clearing) (packet : Packet) :
    Tracker × List Event :=
  match Segment.ofPacket? packet with
  | none => (tracker, [])
  | some segment => tracker.processSegment clearing segment

def processAll (tracker : Tracker) (clearing : Connection.Clearing) (packets : List Packet) :
    Tracker × List Event :=
  packets.foldl (fun (tracker, events) packet =>
    let (tracker, more) := tracker.process clearing packet
    (tracker, events ++ more)) (tracker, [])

end Tracker

end PacketStack
