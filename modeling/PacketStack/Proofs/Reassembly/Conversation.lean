import PacketStack.Proofs.Reassembly.Slice

/-!
What both ends of a connection send once each has opened its direction.

`Turn.AllProper` is what is asked of a run: data are slices of the bytes of their sender, the end is
told with the last byte, nothing is reset and nothing dropped for want of room. Main statement:
`update_eq` says what a segment does to a connection that the server has answered.
-/

namespace PacketStack

/-- The bytes which the ends of a connection send, and the numbers of the first ones. -/
structure Conversation where
  client : Bytes
  server : Bytes
  clientStart : UInt32
  serverStart : UInt32

namespace Conversation

/-- The bytes of the client or the server. -/
def bytes (conversation : Conversation) (isClient : Bool) : Bytes :=
  if isClient then conversation.client else conversation.server

def start (conversation : Conversation) (isClient : Bool) : UInt32 :=
  if isClient then conversation.clientStart else conversation.serverStart

/-- The client asks for the connection and the server agrees to it. -/
structure Opens (conversation : Conversation) (question answer : Tcp) : Prop where
  asked : conversation.clientStart = Connection.firstByte question
  answered : conversation.serverStart = Connection.firstByte answer
  synchronizes : answer.flags.contains .syn = true
  acknowledges : answer.flags.contains .ack = true
  keeps : answer.flags.contains .rst = false

end Conversation

namespace Connection

/-- The direction from the client or from the server. -/
def flow (connection : Connection) (isClient : Bool) : Flow :=
  if isClient then connection.fromClient else connection.fromServer

/-- The connection after a client has asked for it and the server has answered. -/
def opened (limits : Flow.Limits) (id : Nat) (ends : Endpoints) (question answer : Tcp)
    (payload : Bytes) : Connection :=
  ((new id ends question).update limits false answer payload).1

/-- Whether the bytes of the client or the server are dropped. -/
def Clearing.drops (clearing : Clearing) (isClient : Bool) : Bool :=
  if isClient then clearing.client else clearing.server

end Connection

/-- What an end sends at a time. -/
inductive Sent where
  /-- A slice of the bytes of the sender, which may be empty. -/
  | slice (piece : Piece)
  /-- A segment without bytes at any number, such as the first one of the sender sent again. -/
  | bare (tcp : Tcp)

namespace Sent

def tcp : Sent → Tcp
  | .slice piece => piece.tcp
  | .bare tcp => tcp

def payload (stream : Bytes) : Sent → Bytes
  | .slice piece => piece.payload stream
  | .bare _ => []

def Covers (position : Nat) : Sent → Prop
  | .slice piece => piece.Covers position
  | .bare _ => False

def tellsEnd (sent : Sent) : Bool := sent.tcp.flags.contains .fin

def Proper (limits : Flow.Limits) (stream : Bytes) (start : UInt32) (flow : Flow) : Sent → Prop
  | .slice piece =>
      piece.Fits stream start ∧ piece.Close flow.delivered ∧
        (piece.tcp.flags.contains .fin = true → piece.stop = stream.length) ∧
        ¬ flow.Drops limits piece.tcp.sequence (piece.payload stream)
  | .bare tcp => tcp.flags.contains .fin = false

end Sent

/-- A segment of one end, and which delivered bytes are dropped after it was taken. -/
structure Turn where
  isClient : Bool
  sent : Sent
  clearing : Connection.Clearing

namespace Turn

/-- The connection after a turn. -/
def take (limits : Flow.Limits) (conversation : Conversation) (connection : Connection)
    (turn : Turn) : Connection :=
  (connection.update limits turn.isClient turn.sent.tcp
    (turn.sent.payload (conversation.bytes turn.isClient))).1.clear turn.clearing

def takeAll (limits : Flow.Limits) (conversation : Conversation) (turns : List Turn)
    (connection : Connection) : Connection :=
  turns.foldl (take limits conversation) connection

/-- What is asked of a turn when it comes. -/
structure Proper (limits : Flow.Limits) (conversation : Conversation) (connection : Connection)
    (turn : Turn) : Prop where
  sent : turn.sent.Proper limits (conversation.bytes turn.isClient)
    (conversation.start turn.isClient) (connection.flow turn.isClient)
  keeps : turn.sent.tcp.flags.contains .rst = false

/-- Every turn is proper when it comes. -/
def AllProper (limits : Flow.Limits) (conversation : Conversation) : List Turn → Connection → Prop
  | [], _ => True
  | turn :: rest, connection =>
      turn.Proper limits conversation connection ∧
        AllProper limits conversation rest (take limits conversation connection turn)

/-- Some segment of an end covers a position. -/
def Arrived (isClient : Bool) (turns : List Turn) (position : Nat) : Prop :=
  ∃ turn ∈ turns, turn.isClient = isClient ∧ turn.sent.Covers position

/-- Some segment of an end tells the end of its bytes. -/
def Told (isClient : Bool) (turns : List Turn) : Prop :=
  ∃ turn ∈ turns, turn.isClient = isClient ∧ turn.sent.tellsEnd = true

/-- No delivered bytes of an end are ever dropped. -/
def Kept (isClient : Bool) (turns : List Turn) : Prop :=
  ∀ turn ∈ turns, turn.clearing.drops isClient = false

variable {limits : Flow.Limits} {conversation : Conversation} {connection : Connection}

theorem takeAll_append (turns : List Turn) (turn : Turn) :
    takeAll limits conversation (turns ++ [turn]) connection =
      take limits conversation (takeAll limits conversation turns connection) turn := by
  rw [takeAll, List.foldl_append]
  rfl

theorem allProper_append {turns : List Turn} {turn : Turn} :
    AllProper limits conversation (turns ++ [turn]) connection ↔
      AllProper limits conversation turns connection ∧
        turn.Proper limits conversation (takeAll limits conversation turns connection) := by
  induction turns generalizing connection with
  | nil => simp [AllProper, takeAll]
  | cons first rest ih =>
      rw [List.cons_append, AllProper, AllProper, ih, and_assoc]
      rfl

theorem arrived_append {isClient : Bool} {turns : List Turn} {turn : Turn} {position : Nat} :
    Arrived isClient (turns ++ [turn]) position ↔
      Arrived isClient turns position ∨
        (turn.isClient = isClient ∧ turn.sent.Covers position) := by
  simp [Arrived, or_and_right, exists_or]

theorem told_append {isClient : Bool} {turns : List Turn} {turn : Turn} :
    Told isClient (turns ++ [turn]) ↔
      Told isClient turns ∨ (turn.isClient = isClient ∧ turn.sent.tellsEnd = true) := by
  simp [Told, or_and_right, exists_or]

theorem kept_append {isClient : Bool} {turns : List Turn} {turn : Turn} :
    Kept isClient (turns ++ [turn]) ↔
      Kept isClient turns ∧ turn.clearing.drops isClient = false := by
  simp [Kept, or_imp, forall_and]

end Turn

namespace Connection

def setFlow (isClient : Bool) (flow : Flow) (connection : Connection) : Connection :=
  if isClient then { connection with fromClient := flow }
  else { connection with fromServer := flow }

variable {limits : Flow.Limits} {connection : Connection} {isClient : Bool}
variable {tcp : Tcp} {payload : Bytes}

theorem flow_setFlow (isClient side : Bool) (flow : Flow) (connection : Connection) :
    (connection.setFlow isClient flow).flow side =
      if isClient = side then flow else connection.flow side := by
  cases isClient <;> cases side <;> rfl

@[simp] theorem state_setFlow (isClient : Bool) (flow : Flow) (connection : Connection) :
    (connection.setFlow isClient flow).state = connection.state := by
  cases isClient <;> rfl

@[simp] theorem flow_settle (connection : Connection) (side : Bool) :
    connection.settle.flow side = connection.flow side := by
  unfold settle
  split <;> rfl

theorem isFinished_settle (connection : Connection) :
    connection.settle.isFinished = true ↔
      connection.isFinished = true ∨ ∀ side, (connection.flow side).isFinished = true := by
  rw [Bool.forall_bool]
  unfold settle
  split
  · rename_i both
    rw [Bool.and_eq_true] at both
    simp [isFinished, flow, both]
  · rename_i one
    rw [Bool.and_eq_true] at one
    constructor
    · intro finished
      exact .inl finished
    · rintro (finished | ⟨server, client⟩)
      · exact finished
      · exact absurd ⟨client, server⟩ one

theorem state_settle (answered : connection.state ≠ .opening) :
    connection.settle.state ≠ .opening := by
  unfold settle
  split
  · exact nofun
  · exact answered

theorem flow_clear (clearing : Clearing) (connection : Connection) (side : Bool) :
    (connection.clear clearing).flow side =
      if clearing.drops side then (connection.flow side).clear else connection.flow side := by
  cases side <;> rfl

theorem update_eq (answered : connection.state ≠ .opening)
    (keeps : tcp.flags.contains .rst = false) :
    (connection.update limits isClient tcp payload).1 =
      if connection.isFinished then connection
      else (connection.setFlow isClient
        (receive limits tcp payload (connection.flow isClient)).1).settle := by
  unfold update
  rw [if_neg (by simp [keeps])]
  split
  · rfl
  · rw [if_neg fun opening => answered opening.1]
    cases isClient <;> rfl

end Connection

end PacketStack
