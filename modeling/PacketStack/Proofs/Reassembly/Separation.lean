import PacketStack.Proofs.Reassembly.Following

/-!
Connections do not influence each other.

`Tracker.Mirrors` relates a tracker that takes all packets to one that takes only those between two
sockets. Main statement: `separate` says that both tell the same of these sockets, apart from the
identifiers, while no connection is refused for want of room.
-/

namespace PacketStack

namespace Endpoints

/-- Whether the ends are two sockets, either of which may be the client. -/
def between (left right : Socket) (ends : Endpoints) : Bool :=
  ends = ⟨left, right⟩ || ends = ⟨right, left⟩

variable {left right : Socket} {ends other : Endpoints}

theorem between_iff :
    ends.between left right = true ↔ ends = ⟨left, right⟩ ∨ ends = ⟨right, left⟩ := by
  simp [between]

@[simp] theorem between_swap : ends.swap.between left right = ends.between left right := by
  rw [Bool.eq_iff_iff, between_iff, between_iff, or_comm]
  cases ends
  simp [swap, and_comm]

theorem eq_or_eq_swap (first : ends.between left right = true)
    (second : other.between left right = true) : other = ends ∨ other = ends.swap := by
  rcases between_iff.mp first with rfl | rfl
  · exact between_iff.mp second
  · exact (between_iff.mp second).symm

end Endpoints

namespace Connection

/-- The connection apart from its identifier. -/
def anonymous (connection : Connection) : Connection := { connection with id := 0 }

variable (limits : Flow.Limits) (isClient : Bool) (tcp : Tcp) (payload : Bytes)
variable (clearing : Clearing) (connection : Connection)

theorem settle_anonymous : connection.anonymous.settle = connection.settle.anonymous := by
  unfold settle anonymous
  split <;> rfl

theorem update_anonymous :
    connection.anonymous.update limits isClient tcp payload =
      ((connection.update limits isClient tcp payload).1.anonymous,
        (connection.update limits isClient tcp payload).2) := by
  have finished : connection.anonymous.isFinished = connection.isFinished := rfl
  have state : connection.anonymous.state = connection.state := rfl
  unfold update
  rw [finished, state]
  split
  · rfl
  · split
    · rfl
    · split
      · split <;> rfl
      · split
        · exact congrArg (·, _) (settle_anonymous { connection with fromClient := _ })
        · exact congrArg (·, _) (settle_anonymous { connection with fromServer := _ })

end Connection

namespace Tracker

namespace Event

/-- The event apart from the identifier of its connection. -/
def anonymous : Event → Event
  | .data connection => .data connection.anonymous
  | .finished connection => .finished connection.anonymous

/-- Whether an event tells of a connection between two sockets. -/
def between (left right : Socket) (event : Event) : Bool :=
  event.connection.ends.between left right

end Event

namespace Segment

variable (limits : Flow.Limits) (clearing : Connection.Clearing) (place : Endpoints)
variable {connection other : Connection} (segment : Segment)

theorem kept_anonymous :
    segment.kept limits clearing place connection.anonymous =
      (segment.kept limits clearing place connection).anonymous := by
  unfold kept applied
  rw [Connection.update_anonymous]
  split <;> rfl

theorem news_anonymous :
    segment.news limits place connection.anonymous =
      (segment.news limits place connection).map Event.anonymous := by
  unfold news applied
  rw [Connection.update_anonymous]
  split <;> rfl

theorem kept_of_alike (alike : connection.anonymous = other.anonymous) :
    (segment.kept limits clearing place connection).anonymous =
      (segment.kept limits clearing place other).anonymous := by
  rw [← kept_anonymous, alike, kept_anonymous]

theorem news_of_alike (alike : connection.anonymous = other.anonymous) :
    (segment.news limits place connection).map Event.anonymous =
      (segment.news limits place other).map Event.anonymous := by
  rw [← news_anonymous, alike, news_anonymous]

theorem between_of_mem_news {left right : Socket} {event : Event}
    (member : event ∈ segment.news limits place connection) :
    event.between left right = connection.ends.between left right := by
  rw [Event.between, (connection_of_mem_news member).2.2]

end Segment

def refuses (tracker : Tracker) (packet : Packet) : Bool :=
  (Segment.ofPacket? packet).any fun segment =>
    tracker.endsOf? segment = none && segment.opens &&
      decide (tracker.maximumConnections ≤ tracker.connections.length)

/-- There is room for every connection that the packets open. -/
def admits (tracker : Tracker) : List Arrival → Bool
  | [] => true
  | arrival :: rest =>
      !tracker.refuses arrival.packet &&
        (tracker.process arrival.clearing arrival.packet).1.admits rest

end Tracker

/-- Whether the first addresses and the first segment of a packet name two sockets. -/
def Arrival.between (left right : Socket) (arrival : Arrival) : Bool :=
  (Tracker.Segment.ofPacket? arrival.packet).any (·.ends.between left right)

namespace Tracker

/-- One tracker follows the connections between two sockets as the other does, and nothing else. -/
structure Mirrors (left right : Socket) (tracker single : Tracker) : Prop where
  limits : single.limits = tracker.limits
  maximum : single.maximumConnections = tracker.maximumConnections
  alike : ∀ place : Endpoints, place.between left right = true →
    (single.connections.get? place).map Connection.anonymous =
      (tracker.connections.get? place).map Connection.anonymous
  only : ∀ place : Endpoints, place.between left right = false →
    single.connections.contains place = false

variable {left right : Socket} {tracker single : Tracker} {segment : Segment}
variable {clearing : Connection.Clearing} {place : Endpoints} {connection : Connection}

theorem Mirrors.contains (mirrors : Mirrors left right tracker single)
    (inside : place.between left right = true) :
    single.connections.contains place = tracker.connections.contains place := by
  have alike := congrArg Option.isSome (mirrors.alike place inside)
  rwa [Option.isSome_map, Option.isSome_map] at alike

theorem Mirrors.endsOf? (mirrors : Mirrors left right tracker single)
    (inside : segment.ends.between left right = true) :
    single.endsOf? segment = tracker.endsOf? segment := by
  have forwards := mirrors.contains inside
  have backwards := mirrors.contains (Endpoints.between_swap.trans inside)
  unfold Tracker.endsOf?
  simp only
  rw [← Segment.ends, forwards, backwards]

theorem Mirrors.get? (mirrors : Mirrors left right tracker single)
    (inside : place.between left right = true)
    (found : tracker.connections.get? place = some connection) (clearing : Connection.Clearing)
    (segment : Segment) :
    ∃ other, single.connections.get? place = some other ∧
      (segment.kept single.limits clearing place other).anonymous =
        (segment.kept tracker.limits clearing place connection).anonymous ∧
      (segment.news single.limits place other).map Event.anonymous =
        (segment.news tracker.limits place connection).map Event.anonymous := by
  have alike := mirrors.alike place inside
  rw [found] at alike
  rcases Option.map_eq_some_iff.mp alike with ⟨other, mirrored, same⟩
  rw [mirrors.limits]
  exact ⟨other, mirrored, segment.kept_of_alike _ _ _ same, segment.news_of_alike _ _ same⟩

theorem Mirrors.empty (mirrors : Mirrors left right tracker single)
    (inside : segment.ends.between left right = true)
    (unknown : tracker.endsOf? segment = none) : single.connections = [] := by
  rw [← mirrors.endsOf? inside] at unknown
  rcases endsOf?_eq_none_iff.mp unknown with ⟨forwards, backwards⟩
  apply Table.eq_nil_of_contains
  intro place
  cases between : place.between left right with
  | false => exact mirrors.only place between
  | true =>
      rcases Endpoints.eq_or_eq_swap inside between with rfl | rfl
      · exact forwards
      · exact backwards

theorem ne_of_between {key : Endpoints} (outside : place.between left right = false)
    (inside : key.between left right = true) : place ≠ key := by
  rintro rfl
  rw [inside] at outside
  cases outside

theorem Mirrors.set (mirrors : Mirrors left right tracker single)
    (inside : place.between left right = true) {next other : Connection} (nextId otherId : Nat)
    (same : other.anonymous = next.anonymous) :
    Mirrors left right
      { tracker with connections := tracker.connections.set place next, nextId := nextId }
      { single with connections := single.connections.set place other, nextId := otherId } := by
  refine ⟨mirrors.limits, mirrors.maximum, ?_, ?_⟩
  · intro key between
    simp only [Table.get?_set]
    by_cases equal : place = key
    · rw [if_pos equal, if_pos equal, Option.map_some, Option.map_some, same]
    · rw [if_neg equal, if_neg equal]
      exact mirrors.alike key between
  · intro key outside
    have apart := (ne_of_between outside inside).symm
    simp only [Table.contains_set, decide_eq_false apart, Bool.false_or]
    exact mirrors.only key outside

theorem Mirrors.erase (mirrors : Mirrors left right tracker single) (place : Endpoints) :
    Mirrors left right
      { tracker with connections := tracker.connections.erase place }
      { single with connections := single.connections.erase place } := by
  refine ⟨mirrors.limits, mirrors.maximum, ?_, ?_⟩
  · intro key between
    simp only [Table.get?_erase]
    by_cases equal : place = key
    · rw [if_pos equal, if_pos equal]
    · rw [if_neg equal, if_neg equal]
      exact mirrors.alike key between
  · intro key outside
    simp only [Table.contains_erase, mirrors.only key outside, Bool.and_false]

theorem Mirrors.change (mirrors : Mirrors left right tracker single)
    (connections : Table Endpoints Connection) (nextId : Nat)
    (same : ∀ key : Endpoints, key.between left right = true →
      connections.get? key = tracker.connections.get? key) :
    Mirrors left right { tracker with connections := connections, nextId := nextId } single := by
  refine ⟨mirrors.limits, mirrors.maximum, ?_, mirrors.only⟩
  intro key between
  exact (mirrors.alike key between).trans (congrArg (Option.map _) (same key between).symm)

theorem between_of_endsOf? (known : tracker.endsOf? segment = some place) :
    place.between left right = segment.ends.between left right := by
  rcases (endsOf?_eq_some known).1 with rfl | rfl
  · rfl
  · exact Endpoints.between_swap

theorem Step.between {result : Tracker × List Event}
    (step : Step clearing segment tracker result) (sound : tracker.Sound) :
    ∀ event ∈ result.2, event.between left right = segment.ends.between left right := by
  intro event member
  cases step with
  | ignored _ _ => cases member
  | opened _ _ _ => cases member
  | continued known found _ =>
      rw [Segment.between_of_mem_news _ _ _ member, sound.own_of_get? found]
      exact between_of_endsOf? known
  | ended known found _ =>
      rw [← between_of_endsOf? known, ← sound.own_of_get? found]
      rcases List.mem_append.mp member with news | last
      · exact Segment.between_of_mem_news _ _ _ news
      · rw [List.mem_singleton.mp last, Event.between, Event.connection, Segment.ends_kept]

theorem Mirrors.skip (mirrors : Mirrors left right tracker single)
    (outside : segment.ends.between left right = false) {result : Tracker × List Event}
    (step : Step clearing segment tracker result) : Mirrors left right result.1 single := by
  cases step with
  | ignored _ _ => exact mirrors
  | opened _ _ _ =>
      apply mirrors.change
      intro key inside
      rw [Table.get?_set, if_neg (ne_of_between outside inside)]
  | continued known _ _ =>
      rw [← between_of_endsOf? known] at outside
      apply mirrors.change
      intro key inside
      rw [Table.get?_set, if_neg (ne_of_between outside inside)]
  | ended known _ _ =>
      rw [← between_of_endsOf? known] at outside
      apply mirrors.change
      intro key inside
      rw [Table.get?_erase, if_neg (ne_of_between outside inside)]

theorem Mirrors.step (mirrors : Mirrors left right tracker single)
    (inside : segment.ends.between left right = true)
    (room : tracker.endsOf? segment = none → segment.opens = true →
      tracker.connections.length < tracker.maximumConnections)
    {result : Tracker × List Event} (step : Step clearing segment tracker result) :
    ∃ mirrored, Step clearing segment single mirrored ∧
      Mirrors left right result.1 mirrored.1 ∧
      result.2.map Event.anonymous = mirrored.2.map Event.anonymous := by
  have ends := mirrors.endsOf? inside
  cases step with
  | ignored unknown closed =>
      refine ⟨_, .ignored (ends.trans unknown) ?_, mirrors, rfl⟩
      intro opens
      exact absurd (room unknown opens) (Nat.not_lt_of_le (closed opens))
  | opened unknown opens room =>
      have free : single.connections.length < single.maximumConnections := by
        rw [mirrors.empty inside unknown, mirrors.maximum]
        exact Nat.lt_of_le_of_lt (Nat.zero_le _) room
      exact ⟨_, .opened (ends.trans unknown) opens free, mirrors.set inside _ _ rfl, rfl⟩
  | continued known found goes_on =>
      rw [← between_of_endsOf? known] at inside
      rcases mirrors.get? inside found clearing segment with ⟨other, mirrored, kept, news⟩
      have unfinished := (congrArg Connection.isFinished kept).trans goes_on
      exact ⟨_, .continued (ends.trans known) mirrored unfinished, mirrors.set inside _ _ kept,
        news.symm⟩
  | ended known found finishes =>
      rw [← between_of_endsOf? known] at inside
      rcases mirrors.get? inside found clearing segment with ⟨other, mirrored, kept, news⟩
      have finished := (congrArg Connection.isFinished kept).trans finishes
      refine ⟨_, .ended (ends.trans known) mirrored finished, mirrors.erase _, ?_⟩
      rw [List.map_append, List.map_append, news]
      exact congrArg (_ ++ [Event.finished ·]) kept.symm

theorem Sound.between (sound : tracker.Sound) (arrival : Arrival) :
    ∀ event ∈ (tracker.process arrival.clearing arrival.packet).2,
      event.between left right = arrival.between left right := by
  cases read : Segment.ofPacket? arrival.packet with
  | none =>
      rw [process_of_none read]
      exact fun event member => absurd member List.not_mem_nil
  | some segment =>
      rw [process_of_segment read, Arrival.between, read]
      exact (step_processSegment tracker arrival.clearing segment).between sound

theorem Mirrors.pass (mirrors : Mirrors left right tracker single) {arrival : Arrival}
    (outside : arrival.between left right = false) :
    Mirrors left right (tracker.process arrival.clearing arrival.packet).1 single := by
  cases read : Segment.ofPacket? arrival.packet with
  | none =>
      rw [process_of_none read]
      exact mirrors
  | some segment =>
      rw [Arrival.between, read] at outside
      rw [process_of_segment read]
      exact mirrors.skip outside (step_processSegment tracker arrival.clearing segment)

theorem Mirrors.process (mirrors : Mirrors left right tracker single) {arrival : Arrival}
    (inside : arrival.between left right = true)
    (admitted : tracker.refuses arrival.packet = false) :
    Mirrors left right (tracker.process arrival.clearing arrival.packet).1
        (single.process arrival.clearing arrival.packet).1 ∧
      (tracker.process arrival.clearing arrival.packet).2.map Event.anonymous =
        (single.process arrival.clearing arrival.packet).2.map Event.anonymous := by
  cases read : Segment.ofPacket? arrival.packet with
  | none =>
      rw [Arrival.between, read] at inside
      cases inside
  | some segment =>
      rw [Arrival.between, read] at inside
      rw [refuses, read] at admitted
      rw [process_of_segment read, process_of_segment read]
      have room (unknown : tracker.endsOf? segment = none) (opens : segment.opens = true) :
          tracker.connections.length < tracker.maximumConnections := by
        simpa [unknown, opens] using admitted
      rcases mirrors.step inside room (step_processSegment tracker arrival.clearing segment) with
        ⟨mirrored, step, still, same⟩
      rw [step.eq]
      exact ⟨still, same⟩

theorem Mirrors.takeAll (mirrors : Mirrors left right tracker single) (sound : tracker.Sound)
    (arrivals : List Arrival) (admitted : tracker.admits arrivals = true) :
    ((tracker.takeAll arrivals).2.filter (·.between left right)).map Event.anonymous =
      (single.takeAll (arrivals.filter (·.between left right))).2.map Event.anonymous := by
  induction arrivals generalizing tracker single with
  | nil => rfl
  | cons arrival rest ih =>
      rw [admits, Bool.and_eq_true, Bool.not_eq_true'] at admitted
      rcases admitted with ⟨room, later⟩
      have told : ∀ event ∈ (tracker.process arrival.clearing arrival.packet).2,
          event.between left right = arrival.between left right := sound.between arrival
      have sound_next := sound.process arrival
      rw [takeAll_cons]
      simp only [List.filter_append, List.map_append]
      cases between : arrival.between left right with
      | false =>
          rw [between] at told
          rw [List.filter_cons_of_neg (Bool.eq_false_iff.mp between),
            List.filter_eq_nil_iff.mpr fun event member => Bool.eq_false_iff.mp (told event member)]
          exact ih (mirrors.pass between) sound_next later
      | true =>
          rw [between] at told
          rcases mirrors.process between room with ⟨still, same⟩
          rw [List.filter_cons_of_pos between, takeAll_cons, List.filter_eq_self.mpr told, same,
            ih still sound_next later]
          exact List.map_append.symm

/-- As long as there is room for every connection that is opened, what is told of the connections
between two sockets is what the packets between these sockets tell alone, apart from the
identifiers. -/
theorem separate (limits : Flow.Limits) (maximum : Nat) (left right : Socket)
    (arrivals : List Arrival) (admitted : (idle limits maximum).admits arrivals = true) :
    (((idle limits maximum).takeAll arrivals).2.filter (·.between left right)).map
        Event.anonymous =
      ((idle limits maximum).takeAll (arrivals.filter (·.between left right))).2.map
        Event.anonymous := by
  have nothing : Mirrors left right (idle limits maximum) (idle limits maximum) :=
    ⟨rfl, rfl, fun _ _ => rfl, fun _ _ => rfl⟩
  exact nothing.takeAll (sound_idle limits maximum) arrivals admitted

namespace TwoClients

def server : Socket := ⟨.v4 (.ofNat 9), 80⟩

def client : Socket := ⟨.v4 (.ofNat 1), 1000⟩

/-- A segment between the port 1000 of a host and the port 80 of the server. -/
def sent (host : Nat) (isClient : Bool) (flags : TcpFlags) (sequence : UInt32)
    (payload : Bytes) : Arrival where
  packet :=
    if isClient then
      .over (.ipv4 (.new (.ofNat 9) (.ofNat host)))
        (.over (.tcp { Tcp.new 80 1000 with flags := flags, sequence := sequence }) (.raw payload))
    else
      .over (.ipv4 (.new (.ofNat host) (.ofNat 9)))
        (.over (.tcp { Tcp.new 1000 80 with flags := flags, sequence := sequence }) (.raw payload))
  clearing := .none

/-- The second client asks first. The first one gives up and asks again. -/
def arrivals : List Arrival :=
  [sent 2 true .syn 70 [], sent 1 true .syn 10 [], sent 1 false ⟨0x12⟩ 20 [],
    sent 1 true .ack 11 [1, 2], sent 2 true .ack 71 [3], sent 1 true .rst 13 [],
    sent 1 true .syn 30 [], sent 2 false .rst 40 [], sent 1 true .rst 31 []]

/-- The first client has the identifiers 1 and 2 here and the identifiers 0 and 1 when it is
alone. -/
theorem separated :
    (idle ⟨8, true⟩ 2).admits arrivals = true ∧
      (((idle ⟨8, true⟩ 2).takeAll arrivals).2.filter (·.between client server)).map
          Event.anonymous =
        ((idle ⟨8, true⟩ 2).takeAll (arrivals.filter (·.between client server))).2.map
          Event.anonymous ∧
      (((idle ⟨8, true⟩ 2).takeAll arrivals).2.filter (·.between client server)).map
          (·.connection.id) = [1, 1, 2] := by
  have admitted : (idle ⟨8, true⟩ 2).admits arrivals = true := by decide +kernel
  exact ⟨admitted, separate ⟨8, true⟩ 2 client server arrivals admitted, by decide +kernel⟩

end TwoClients

end Tracker

end PacketStack
