import PacketStack.Proofs.Reassembly.Clearing
import PacketStack.Proofs.Reassembly.Conversation
import PacketStack.Proofs.Reassembly.Separation

/-!
What becomes of a run when other delivered bytes are kept.

`Tracker.mapPayloads` puts other bytes in place of the delivered ones, and `process_mapPayloads`
says when a packet can be taken before or after that. Main statement: `retained_unobserved` says
that neither dropping delivered bytes nor keeping none of them changes anything else of a run, and
that the pieces that were dropped stand in front of what is left of them.
-/

namespace PacketStack

namespace Connection

/-- The connection with other delivered bytes in each direction. -/
def mapPayloads (change : Bool → Bytes → Bytes) (connection : Connection) : Connection :=
  { connection with
    fromClient := connection.fromClient.mapPayload (change true)
    fromServer := connection.fromServer.mapPayload (change false) }

variable {limits others : Flow.Limits} {change : Bool → Bytes → Bytes}
variable {connection : Connection} {clearing : Clearing}

@[simp] theorem isFinished_mapPayloads :
    (connection.mapPayloads change).isFinished = connection.isFinished := rfl

@[simp] theorem flow_mapPayloads (side : Bool) :
    (connection.mapPayloads change).flow side =
      (connection.flow side).mapPayload (change side) := by
  cases side <;> rfl

theorem settle_mapPayloads (change : Bool → Bytes → Bytes) (connection : Connection) :
    (connection.mapPayloads change).settle = connection.settle.mapPayloads change := by
  have client : (connection.mapPayloads change).fromClient.isFinished =
      connection.fromClient.isFinished := rfl
  have server : (connection.mapPayloads change).fromServer.isFinished =
      connection.fromServer.isFinished := rfl
  unfold settle
  rw [client, server]
  split <;> rfl

theorem update_mapPayloads (commutes : ∀ side, Flow.Commutes limits others (change side))
    (isClient : Bool) (tcp : Tcp) (payload : Bytes) :
    (connection.mapPayloads change).update others isClient tcp payload =
      ((connection.update limits isClient tcp payload).1.mapPayloads change,
        (connection.update limits isClient tcp payload).2) := by
  have state : (connection.mapPayloads change).state = connection.state := rfl
  have client : (connection.mapPayloads change).fromClient =
      connection.fromClient.mapPayload (change true) := rfl
  have server : (connection.mapPayloads change).fromServer =
      connection.fromServer.mapPayload (change false) := rfl
  unfold update
  rw [isFinished_mapPayloads, state, client, server]
  split
  · rfl
  · split
    · rfl
    · split
      · split <;> rfl
      · split
        · rw [(commutes true).receive_segment]
          exact congrArg (·, _) (settle_mapPayloads change
            { connection with fromClient := (receive limits tcp payload connection.fromClient).1 })
        · rw [(commutes false).receive_segment]
          exact congrArg (·, _) (settle_mapPayloads change
            { connection with fromServer := (receive limits tcp payload connection.fromServer).1 })

theorem clear_mapPayloads {next : Bool → Bytes → Bytes} {other : Clearing}
    (same : ∀ side, next side (if clearing.drops side then [] else (connection.flow side).payload) =
      if other.drops side then [] else change side (connection.flow side).payload) :
    (connection.clear clearing).mapPayloads next = (connection.mapPayloads change).clear other := by
  have client := Flow.clear_mapPayload (same true)
  have server := Flow.clear_mapPayload (same false)
  exact congrArg₂ (fun client server => ({ connection with
    fromClient := client, fromServer := server } : Connection)) client server

theorem new_mapPayloads (nothing : ∀ side, change side [] = []) (id : Nat) (ends : Endpoints)
    (opening : Tcp) : (new id ends opening).mapPayloads change = new id ends opening := by
  unfold mapPayloads
  rw [Flow.mapPayload_self (nothing true), Flow.mapPayload_self (nothing false)]

end Connection

namespace Flow

def IsWhole (flow : Flow) : Prop := flow.payload.length = flow.delivered

variable {limits : Limits} {flow : Flow}

namespace IsWhole

variable (whole : flow.IsWhole)
include whole

theorem deliver (keeps : limits.keepsPayload = true) (data : Bytes) :
    (flow.deliver limits data).IsWhole := by
  unfold IsWhole Flow.deliver
  rw [if_pos keeps, List.length_append]
  exact congrArg (· + data.length) whole

theorem deliverFragment (keeps : limits.keepsPayload = true) (next : UInt32)
    (fragment : Fragment) : (flow.deliverFragment limits next fragment).IsWhole := by
  unfold Flow.deliverFragment
  split
  · exact whole.deliver keeps _
  · exact whole

theorem hold (fragment : Fragment) : (flow.hold limits fragment).IsWhole := by
  unfold Flow.hold
  simp only
  split
  · exact whole
  · split <;> exact whole

theorem drain (keeps : limits.keepsPayload = true) : (flow.drain limits).IsWhole := by
  fun_induction Flow.drain limits flow with
  | case1 _ _ => exact whole
  | case2 _ _ _ _ => exact whole
  | case3 flow next _ fragment _ rest ih =>
      have less : rest.IsWhole := whole
      exact ih (less.deliverFragment keeps next fragment)

theorem receive (keeps : limits.keepsPayload = true) (start : UInt32) (data : Bytes) :
    (flow.receive limits start data).1.IsWhole := by
  unfold Flow.receive
  split
  · exact whole
  · split
    · exact whole
    · split
      · exact whole.hold _
      · exact (whole.deliver keeps _).drain keeps

end IsWhole

end Flow

namespace Connection

def IsWhole (connection : Connection) : Prop := ∀ side, (connection.flow side).IsWhole

variable {limits : Flow.Limits} {connection : Connection}

theorem flow_update_cases (limits : Flow.Limits) (isClient : Bool) (tcp : Tcp) (payload : Bytes)
    (connection : Connection) (side : Bool) :
    (connection.update limits isClient tcp payload).1.flow side = connection.flow side ∨
      (connection.update limits isClient tcp payload).1.flow side =
        (connection.flow side).begin (firstByte tcp) ∨
      (connection.update limits isClient tcp payload).1.flow side =
        (receive limits tcp payload (connection.flow side)).1 := by
  unfold update
  split
  · exact .inl (by cases side <;> rfl)
  · split
    · exact .inl rfl
    · split
      · split
        · cases side with
          | false => exact .inr (.inl rfl)
          | true => exact .inl rfl
        · exact .inl rfl
      · split
        · rw [flow_settle]
          cases side with
          | false => exact .inl rfl
          | true => exact .inr (.inr rfl)
        · rw [flow_settle]
          cases side with
          | false => exact .inr (.inr rfl)
          | true => exact .inl rfl

theorem IsWhole.update (whole : connection.IsWhole) (keeps : limits.keepsPayload = true)
    (isClient : Bool) (tcp : Tcp) (payload : Bytes) :
    (connection.update limits isClient tcp payload).1.IsWhole := by
  intro side
  rcases flow_update_cases limits isClient tcp payload connection side with same | begun | received
  · rw [same]
    exact whole side
  · rw [begun]
    exact whole side
  · rw [received]
    unfold receive
    simp only
    split <;> exact (whole side).receive keeps _ _

theorem isWhole_new (id : Nat) (ends : Endpoints) (opening : Tcp) :
    (new id ends opening).IsWhole := by
  intro side
  cases side <;> rfl

end Connection

namespace Table

variable {κ α β : Type} [DecidableEq κ]

/-- The table with every value changed. -/
def mapValues (change : α → β) (table : Table κ α) : Table κ β :=
  table.map fun entry => (entry.1, change entry.2)

theorem get?_mapValues (change : α → β) (key : κ) (table : Table κ α) :
    (mapValues change table).get? key = (table.get? key).map change := by
  induction table with
  | nil => rfl
  | cons entry rest ih =>
      simp only [mapValues, List.map_cons, get?]
      split
      · rfl
      · exact ih

theorem contains_mapValues (change : α → β) (key : κ) (table : Table κ α) :
    (mapValues change table).contains key = table.contains key := by
  rw [contains, contains, get?_mapValues, Option.isSome_map]

theorem mapValues_erase {first second : α → β} {key : κ} {table : Table κ α}
    (same : ∀ entry ∈ table, entry.1 ≠ key → first entry.2 = second entry.2) :
    mapValues first (table.erase key) = (mapValues second table).erase key := by
  unfold mapValues erase
  rw [List.filter_map]
  apply List.map_congr_left
  intro entry member
  rcases List.mem_filter.mp member with ⟨inside, elsewhere⟩
  rw [same entry inside (of_decide_eq_true elsewhere)]

theorem mapValues_set {first second : α → β} {key : κ} {table : Table κ α} (value : α)
    (distinct : table.keys.Nodup)
    (same : ∀ entry ∈ table, entry.1 ≠ key → first entry.2 = second entry.2) :
    mapValues first (table.set key value) = (mapValues second table).set key (first value) := by
  induction table with
  | nil => rfl
  | cons entry rest ih =>
      have parts := List.nodup_cons.mp distinct
      by_cases here : entry.1 = key
      · have others : mapValues first rest = mapValues second rest := by
          apply List.map_congr_left
          intro other member
          have elsewhere : other.1 ≠ key := fun again =>
            parts.1 (List.mem_map.mpr ⟨other, member, again.trans here.symm⟩)
          rw [same other (List.mem_cons_of_mem _ member) elsewhere]
        calc
          mapValues first (set key value (entry :: rest))
            = (key, first value) :: mapValues first rest := by rw [set, if_pos here]; rfl
          _ = (key, first value) :: mapValues second rest := by rw [others]
          _ = (mapValues second (entry :: rest)).set key (first value) := (if_pos here).symm
      · calc
          mapValues first (set key value (entry :: rest))
            = (entry.1, first entry.2) :: mapValues first (set key value rest) := by
              rw [set, if_neg here]; rfl
          _ = (entry.1, second entry.2) :: set key (first value) (mapValues second rest) := by
              rw [same entry List.mem_cons_self here,
                ih parts.2 fun other member => same other (List.mem_cons_of_mem _ member)]
          _ = (mapValues second (entry :: rest)).set key (first value) := (if_neg here).symm

end Table

/-- The packet without a choice of what is dropped. -/
def Arrival.retaining (arrival : Arrival) : Arrival := { arrival with clearing := .none }

namespace Tracker

/-- A change of the delivered bytes for each side of each connection. -/
abbrev Change := Nat → Bool → Bytes → Bytes

/-- The connection with its delivered bytes changed as its identifier says. -/
def Change.apply (change : Change) (connection : Connection) : Connection :=
  connection.mapPayloads (change connection.id)

/-- The event with delivered bytes changed, differently where it tells of an end. -/
def Event.mapPayloads (change next : Change) : Event → Event
  | .data connection => .data (change.apply connection)
  | .finished connection => .finished (next.apply connection)

/-- The tracker with other delivered bytes, and other limits. -/
def mapPayloads (others : Flow.Limits) (change : Change) (tracker : Tracker) : Tracker :=
  { tracker with
    limits := others
    connections := tracker.connections.mapValues change.apply }

/-- The change `next` after events is what the change `change` before them has become, where one
run drops as `clearing` says and the other one as `other` does. -/
structure Shifts (clearing other : Connection.Clearing) (change next : Change)
    (events : List Event) : Prop where
  same : ∀ id, (∀ connection, .data connection ∈ events → connection.id ≠ id) →
    next id = change id
  told : ∀ connection, .data connection ∈ events →
    next.apply (connection.clear clearing) = (change.apply connection).clear other

variable {tracker : Tracker} {segment : Segment} {limits others : Flow.Limits}
variable {clearing other : Connection.Clearing} {change next : Change}

theorem Shifts.of_ended {events : List Event} {connection : Connection}
    (shifts : Shifts clearing other change next (events ++ [.finished connection])) :
    Shifts clearing other change next events where
  same id untold := shifts.same id (by
    intro connection member
    rcases List.mem_append.mp member with before | now
    · exact untold connection before
    · cases List.mem_singleton.mp now)
  told connection member := shifts.told connection (List.mem_append_left _ member)

theorem Shifts.unchanged (shifts : Shifts clearing other change next []) : next = change :=
  funext fun id => shifts.same id fun _ member => absurd member List.not_mem_nil

theorem Shifts.apply_eq {events : List Event} {entry : Connection}
    (shifts : Shifts clearing other change next events)
    (untold : ∀ connection, .data connection ∈ events → connection.id ≠ entry.id) :
    next.apply entry = change.apply entry := by
  rw [Change.apply, shifts.same entry.id untold]
  rfl

section

variable (commutes : ∀ id side, Flow.Commutes limits others (change id side))
variable (segment : Segment) (place : Endpoints) (connection : Connection)
include commutes

theorem applied_mapPayloads :
    segment.applied others place (change.apply connection) =
      (change.apply (segment.applied limits place connection).1,
        (segment.applied limits place connection).2) := by
  have id : (segment.applied limits place connection).1.id = connection.id :=
    Connection.id_update _ _ _ _ _
  rw [Change.apply, Change.apply, id]
  exact Connection.update_mapPayloads (commutes connection.id) _ _ _

theorem news_mapPayloads (next : Change) :
    segment.news others place (change.apply connection) =
      (segment.news limits place connection).map (Event.mapPayloads change next) := by
  unfold Segment.news
  rw [applied_mapPayloads commutes]
  simp only
  split <;> rfl

theorem kept_mapPayloads
    (shifts : Shifts clearing other change next (segment.news limits place connection)) :
    segment.kept others other place (change.apply connection) =
      next.apply (segment.kept limits clearing place connection) := by
  unfold Segment.kept
  rw [applied_mapPayloads commutes]
  simp only
  split
  · rename_i grown
    refine (shifts.told _ ?_).symm
    rw [Segment.news, if_pos grown]
    exact List.mem_singleton_self _
  · rename_i still
    refine (shifts.apply_eq ?_).symm
    rw [Segment.news, if_neg still]
    exact fun _ member => absurd member List.not_mem_nil

end

theorem endsOf?_mapPayloads :
    (tracker.mapPayloads others change).endsOf? segment = tracker.endsOf? segment := by
  unfold endsOf? mapPayloads
  simp only [Table.contains_mapValues]

theorem Shifts.elsewhere (sound : tracker.Sound) {place : Endpoints} {connection : Connection}
    (found : tracker.connections.get? place = some connection)
    (shifts : Shifts clearing other change next (segment.news limits place connection)) :
    ∀ entry ∈ tracker.connections, entry.1 ≠ place →
      next.apply entry.2 = change.apply entry.2 := by
  intro entry inside apart
  apply shifts.apply_eq
  intro told member same
  have followed := Table.mem_of_get? found
  have about : told.id = connection.id := (Segment.connection_of_mem_news member).2.1
  exact apart (congrArg Prod.fst (sound.unique inside followed (same.symm.trans about)))

theorem Step.mapPayloads (sound : tracker.Sound)
    (commutes : ∀ id side, Flow.Commutes tracker.limits others (change id side))
    (nothing : ∀ side, change tracker.nextId side [] = [])
    {result : Tracker × List Event} (step : Step clearing segment tracker result)
    (shifts : Shifts clearing other change next result.2) :
    Step other segment (tracker.mapPayloads others change)
      (result.1.mapPayloads others next, result.2.map (Event.mapPayloads change next)) := by
  have size : (tracker.mapPayloads others change).connections.length =
      tracker.connections.length := List.length_map _
  have get? {place : Endpoints} {connection : Connection}
      (found : tracker.connections.get? place = some connection) :
      (tracker.mapPayloads others change).connections.get? place =
        some (change.apply connection) := by
    rw [Tracker.mapPayloads, Table.get?_mapValues, found]
    rfl
  cases step with
  | ignored unknown closed =>
      rw [shifts.unchanged]
      exact .ignored (endsOf?_mapPayloads.trans unknown) (size ▸ closed)
  | opened unknown opens room =>
      have opened : change.apply (.new tracker.nextId segment.ends segment.tcp) =
          .new tracker.nextId segment.ends segment.tcp :=
        Connection.new_mapPayloads nothing _ _ _
      have table : (tracker.connections.set segment.ends
            (.new tracker.nextId segment.ends segment.tcp)).mapValues change.apply =
          (tracker.connections.mapValues change.apply).set segment.ends
            (.new tracker.nextId segment.ends segment.tcp) := by
        rw [Table.mapValues_set _ sound.distinct fun _ _ _ => rfl, opened]
      simp only [shifts.unchanged, Tracker.mapPayloads, table, List.map_nil]
      exact .opened (endsOf?_mapPayloads.trans unknown) opens (size ▸ room)
  | @continued place connection known found goes_on =>
      have kept := kept_mapPayloads commutes segment place connection shifts
      have news := news_mapPayloads commutes segment place connection next
      have table := Table.mapValues_set (segment.kept tracker.limits clearing place connection)
        sound.distinct (shifts.elsewhere sound found)
      simp only [Tracker.mapPayloads, table, ← kept, ← news]
      refine .continued (endsOf?_mapPayloads.trans known) (get? found) ?_
      rw [kept]
      exact goes_on
  | @ended place connection known found ends =>
      have before := shifts.of_ended
      have kept := kept_mapPayloads commutes segment place connection before
      have news := news_mapPayloads commutes segment place connection next
      have table := Table.mapValues_erase (before.elsewhere sound found)
      simp only [Tracker.mapPayloads, table, List.map_append, ← news, List.map_cons, List.map_nil,
        Event.mapPayloads, ← kept]
      refine .ended (endsOf?_mapPayloads.trans known) (get? found) ?_
      rw [kept]
      exact ends

theorem process_mapPayloads (sound : tracker.Sound)
    (commutes : ∀ id side, Flow.Commutes tracker.limits others (change id side))
    (nothing : ∀ side, change tracker.nextId side [] = []) (packet : Packet)
    (shifts : Shifts clearing other change next (tracker.process clearing packet).2) :
    (tracker.mapPayloads others change).process other packet =
      ((tracker.process clearing packet).1.mapPayloads others next,
        (tracker.process clearing packet).2.map (Event.mapPayloads change next)) := by
  cases read : Segment.ofPacket? packet with
  | none =>
      rw [process_of_none read] at shifts
      rw [process_of_none read, process_of_none read, shifts.unchanged]
      rfl
  | some segment =>
      rw [process_of_segment read] at shifts
      rw [process_of_segment read, process_of_segment read]
      exact ((step_processSegment tracker clearing segment).mapPayloads sound commutes nothing
        shifts).eq

/-- Forgets all delivered bytes. -/
def erasing : Change := fun _ _ _ => []

theorem payload_erasing (connection : Connection) (side : Bool) :
    ((erasing.apply connection).flow side).payload = [] := by
  rw [Change.apply, Connection.flow_mapPayloads]
  rfl

theorem shifts_erasing (clearing other : Connection.Clearing) (events : List Event) :
    Shifts clearing other erasing erasing events where
  same _ _ := rfl
  told _ _ := Connection.clear_mapPayloads fun _ => (ite_self []).symm

theorem takeAll_erasing (maximumBuffered maximum : Nat) (arrivals others : List Arrival)
    (same : others.map Arrival.packet = arrivals.map Arrival.packet) :
    (idle ⟨maximumBuffered, false⟩ maximum).takeAll others =
      (((idle ⟨maximumBuffered, true⟩ maximum).takeAll arrivals).1.mapPayloads
          ⟨maximumBuffered, false⟩ erasing,
        ((idle ⟨maximumBuffered, true⟩ maximum).takeAll arrivals).2.map
          (Event.mapPayloads erasing erasing)) := by
  induction arrivals using List.reverseRecOn generalizing others with
  | nil =>
      rw [List.map_eq_nil_iff.mp same]
      rfl
  | append_singleton arrivals arrival ih =>
      rw [List.map_append] at same
      rcases List.map_eq_append_iff.mp same with ⟨before, last, rfl, earlier, packet⟩
      rcases List.map_eq_singleton_iff.mp packet with ⟨other, rfl, taken⟩
      rcases sound_takeAll ⟨maximumBuffered, true⟩ maximum arrivals with ⟨config, _, sound, _⟩
      have commutes (id : Nat) (side : Bool) :
          Flow.Commutes ((idle ⟨maximumBuffered, true⟩ maximum).takeAll arrivals).1.limits
            ⟨maximumBuffered, false⟩ (erasing id side) := by
        rw [config]
        exact Flow.commutes_erase ⟨maximumBuffered, true⟩
      have step := process_mapPayloads sound commutes (fun _ => rfl) arrival.packet
        (shifts_erasing arrival.clearing other.clearing _)
      rw [takeAll_append, takeAll_append, ih before earlier]
      simp only [taken, step, List.map_append]

/-- The pieces of a direction which are dropped with an event. -/
def Event.pieces (clearing : Connection.Clearing) (id : Nat) (side : Bool) : Event → List Bytes
  | .data connection =>
      if connection.id = id ∧ clearing.drops side then [(connection.flow side).payload] else []
  | .finished _ => []

/-- The pieces of a direction which are dropped during a run. -/
def pieces : Tracker → List Arrival → Nat → Bool → List Bytes
  | _, [], _, _ => []
  | tracker, arrival :: arrivals, id, side =>
      let result := tracker.process arrival.clearing arrival.packet
      result.2.flatMap (Event.pieces arrival.clearing id side) ++ result.1.pieces arrivals id side

/-- Puts pieces back in front of the delivered bytes. -/
def restoring (front : Nat → Bool → List Bytes) : Change :=
  fun id side payload => (front id side).flatten ++ payload

theorem pieces_append (tracker : Tracker) (arrivals : List Arrival) (arrival : Arrival) (id : Nat)
    (side : Bool) :
    tracker.pieces (arrivals ++ [arrival]) id side =
      tracker.pieces arrivals id side ++
        ((tracker.takeAll arrivals).1.process arrival.clearing arrival.packet).2.flatMap
          (Event.pieces arrival.clearing id side) := by
  induction arrivals generalizing tracker with
  | nil => simp [pieces, takeAll]
  | cons first arrivals ih =>
      simp only [List.cons_append, pieces, ih, takeAll_cons, List.append_assoc]

theorem news_eq (limits : Flow.Limits) (place : Endpoints) (connection : Connection)
    (segment : Segment) :
    ∃ told : Option Connection, segment.news limits place connection = told.toList.map .data := by
  unfold Segment.news
  split
  · exact ⟨some _, rfl⟩
  · exact ⟨none, rfl⟩

theorem process_step (tracker : Tracker) (clearing : Connection.Clearing) (packet : Packet) :
    tracker.process clearing packet = (tracker, []) ∨
      ∃ segment, Step clearing segment tracker (tracker.process clearing packet) := by
  cases read : Segment.ofPacket? packet with
  | none => exact .inl (process_of_none read tracker clearing)
  | some segment =>
      rw [process_of_segment read]
      exact .inr ⟨segment, step_processSegment tracker clearing segment⟩

theorem process_events (tracker : Tracker) (clearing : Connection.Clearing) (packet : Packet) :
    ∃ (told ended : Option Connection), (tracker.process clearing packet).2 =
      told.toList.map .data ++ ended.toList.map .finished := by
  rcases process_step tracker clearing packet with still | ⟨segment, step⟩
  · rw [still]
    exact ⟨none, none, rfl⟩
  · generalize tracker.process clearing packet = result at step
    cases step with
    | ignored _ _ => exact ⟨none, none, rfl⟩
    | opened _ _ _ => exact ⟨none, none, rfl⟩
    | @continued place connection _ _ _ =>
        rcases news_eq tracker.limits place connection segment with ⟨told, news⟩
        exact ⟨told, none, news.trans (List.append_nil _).symm⟩
    | @ended place connection _ _ _ =>
        rcases news_eq tracker.limits place connection segment with ⟨told, news⟩
        exact ⟨told, some _, congrArg (· ++ [_]) news⟩

theorem pieces_events (clearing : Connection.Clearing) (told ended : Option Connection) (id : Nat)
    (side : Bool) :
    (told.toList.map Event.data ++ ended.toList.map Event.finished).flatMap
        (Event.pieces clearing id side) =
      told.elim [] fun connection => (Event.data connection).pieces clearing id side := by
  cases told <;> cases ended <;> simp [Event.pieces]

theorem shifts_restoring (front : Nat → Bool → List Bytes) (clearing : Connection.Clearing)
    (told ended : Option Connection) :
    let events := told.toList.map Event.data ++ ended.toList.map Event.finished
    Shifts clearing .none (restoring front)
      (restoring fun id side => front id side ++ events.flatMap (Event.pieces clearing id side))
      events := by
  intro events
  have news {connection : Connection} (member : .data connection ∈ events) :
      told = some connection := by
    simpa [events] using member
  refine ⟨?_, ?_⟩
  · intro id untold
    have nothing (side : Bool) : events.flatMap (Event.pieces clearing id side) = [] := by
      rw [pieces_events]
      cases told with
      | none => rfl
      | some connection =>
          have apart : connection.id ≠ id := untold connection (by simp [events])
          exact if_neg fun both => apart both.1
    funext side payload
    simp only [restoring, nothing, List.append_nil]
  · intro connection member
    have dropped (side : Bool) : events.flatMap (Event.pieces clearing connection.id side) =
        if clearing.drops side then [(connection.flow side).payload] else [] := by
      rw [pieces_events, news member]
      simp [Event.pieces]
    apply Connection.clear_mapPayloads
    intro side
    have kept : Connection.Clearing.none.drops side = false := by cases side <;> rfl
    simp only [restoring, Connection.id_clear, dropped, kept]
    cases clearing.drops side <;> simp

theorem Sound.id_of_told (sound : tracker.Sound) {packet : Packet} {connection : Connection}
    (told : .data connection ∈ (tracker.process clearing packet).2) :
    connection.id < tracker.nextId := by
  have of_news {segment : Segment} {place : Endpoints} {followed : Connection}
      (found : tracker.connections.get? place = some followed)
      (member : .data connection ∈ segment.news tracker.limits place followed) :
      connection.id < tracker.nextId := by
    have about : connection.id = followed.id := (Segment.connection_of_mem_news member).2.1
    rw [about]
    exact sound.fresh _ (Table.mem_of_get? found)
  rcases process_step tracker clearing packet with still | ⟨segment, step⟩
  · rw [still] at told
    cases told
  · generalize tracker.process clearing packet = result at told step
    cases step with
    | ignored _ _ => cases told
    | opened _ _ _ => cases told
    | continued _ found _ => exact of_news found told
    | ended _ found _ =>
        rcases List.mem_append.mp told with news | last
        · exact of_news found news
        · cases List.mem_singleton.mp last

theorem nextId_process (tracker : Tracker) (clearing : Connection.Clearing) (packet : Packet) :
    tracker.nextId ≤ (tracker.process clearing packet).1.nextId := by
  rcases process_step tracker clearing packet with still | ⟨segment, step⟩
  · exact Nat.le_of_eq (congrArg (·.1.nextId) still).symm
  · generalize tracker.process clearing packet = result at step
    cases step with
    | opened _ _ _ => exact Nat.le_succ _
    | _ => exact Nat.le_refl _

theorem pieces_of_new (limits : Flow.Limits) (maximum : Nat) (arrivals : List Arrival) {id : Nat}
    (new : ((idle limits maximum).takeAll arrivals).1.nextId ≤ id) (side : Bool) :
    (idle limits maximum).pieces arrivals id side = [] := by
  induction arrivals using List.reverseRecOn with
  | nil => rfl
  | append_singleton arrivals arrival ih =>
      rcases sound_takeAll limits maximum arrivals with ⟨_, _, sound, _⟩
      rw [takeAll_append] at new
      have later := Nat.le_trans (nextId_process _ arrival.clearing arrival.packet) new
      rw [pieces_append, ih later, List.nil_append]
      apply List.flatMap_eq_nil_iff.mpr
      intro event member
      cases event with
      | data connection =>
          have old := sound.id_of_told member
          have apart : connection.id ≠ id := fun same => Nat.not_lt_of_le later (same ▸ old)
          exact if_neg fun both => apart both.1
      | finished connection => rfl

section

variable (maximumBuffered maximum : Nat) (arrivals : List Arrival)

theorem process_restoring (arrival : Arrival) :
    let limits : Flow.Limits := ⟨maximumBuffered, true⟩
    let tracker := ((idle limits maximum).takeAll arrivals).1
    let result := tracker.process arrival.clearing arrival.packet
    let change := restoring ((idle limits maximum).pieces arrivals)
    let next := restoring ((idle limits maximum).pieces (arrivals ++ [arrival]))
    (tracker.mapPayloads limits change).process .none arrival.packet =
      (result.1.mapPayloads limits next, result.2.map (Event.mapPayloads change next)) := by
  intro limits tracker result change next
  rcases sound_takeAll limits maximum arrivals with ⟨config, _, sound, _⟩
  have commutes (id : Nat) (side : Bool) :
      Flow.Commutes tracker.limits limits (change id side) := by
    rw [config]
    exact Flow.commutes_append maximumBuffered _
  have nothing (side : Bool) : change tracker.nextId side [] = [] := by
    have none_dropped := pieces_of_new limits maximum arrivals (Nat.le_refl _) side
    simp only [change, restoring, tracker, none_dropped, List.flatten_nil, List.nil_append]
  have shifts : Shifts arrival.clearing .none change next result.2 := by
    rcases process_events tracker arrival.clearing arrival.packet with ⟨told, ended, events⟩
    have moved := shifts_restoring ((idle limits maximum).pieces arrivals) arrival.clearing told
      ended
    have after : next = restoring fun id side => (idle limits maximum).pieces arrivals id side ++
        result.2.flatMap (Event.pieces arrival.clearing id side) := by
      unfold next
      congr 1
      funext id side
      exact pieces_append _ _ _ _ _
    rw [after, events]
    exact moved
  exact process_mapPayloads sound commutes nothing arrival.packet shifts

theorem takeAll_restoring :
    ((idle ⟨maximumBuffered, true⟩ maximum).takeAll (arrivals.map Arrival.retaining)).1 =
      ((idle ⟨maximumBuffered, true⟩ maximum).takeAll arrivals).1.mapPayloads
        ⟨maximumBuffered, true⟩
        (restoring ((idle ⟨maximumBuffered, true⟩ maximum).pieces arrivals)) := by
  induction arrivals using List.reverseRecOn with
  | nil => rfl
  | append_singleton arrivals arrival ih =>
      have step := process_restoring maximumBuffered maximum arrivals arrival
      rw [List.map_append, List.map_singleton, takeAll_append, takeAll_append]
      simp only [ih]
      exact congrArg Prod.fst step

end

def IsWhole (tracker : Tracker) : Prop :=
  ∀ entry ∈ tracker.connections, entry.2.IsWhole

theorem isWhole_applied (keeps : limits.keepsPayload = true) {connection : Connection}
    (whole : connection.IsWhole) (place : Endpoints) (segment : Segment) :
    (segment.applied limits place connection).1.IsWhole :=
  whole.update keeps _ _ _

theorem isWhole_kept (keeps : limits.keepsPayload = true) {connection : Connection}
    (whole : connection.IsWhole) (place : Endpoints) (segment : Segment) :
    (segment.kept limits .none place connection).IsWhole := by
  unfold Segment.kept
  split <;> exact isWhole_applied keeps whole place segment

theorem isWhole_of_mem_news (keeps : limits.keepsPayload = true) {connection : Connection}
    (whole : connection.IsWhole) {place : Endpoints} {event : Event}
    (member : event ∈ segment.news limits place connection) : event.connection.IsWhole := by
  unfold Segment.news at member
  split at member
  · rw [List.mem_singleton.mp member]
    exact isWhole_applied keeps whole place segment
  · cases member

theorem IsWhole.step (whole : tracker.IsWhole) (keeps : tracker.limits.keepsPayload = true)
    {result : Tracker × List Event} (step : Step .none segment tracker result) :
    result.1.IsWhole ∧ ∀ event ∈ result.2, event.connection.IsWhole := by
  cases step with
  | ignored _ _ => exact ⟨whole, fun _ member => absurd member List.not_mem_nil⟩
  | opened _ _ _ =>
      refine ⟨?_, fun _ member => absurd member List.not_mem_nil⟩
      intro entry member
      rcases Table.mem_set member with rfl | old
      · exact Connection.isWhole_new _ _ _
      · exact whole entry old
  | @continued place connection _ found _ =>
      have before := whole _ (Table.mem_of_get? found)
      refine ⟨?_, fun event member => isWhole_of_mem_news keeps before member⟩
      intro entry member
      rcases Table.mem_set member with rfl | old
      · exact isWhole_kept keeps before place segment
      · exact whole entry old
  | @ended place connection _ found _ =>
      have before := whole _ (Table.mem_of_get? found)
      refine ⟨fun entry member => whole entry (List.mem_filter.mp member).1, ?_⟩
      intro event member
      rcases List.mem_append.mp member with news | last
      · exact isWhole_of_mem_news keeps before news
      · rw [List.mem_singleton.mp last]
        exact isWhole_kept keeps before place segment

theorem isWhole_takeAll (limits : Flow.Limits) (keeps : limits.keepsPayload = true)
    (maximum : Nat) (arrivals : List Arrival) :
    ((idle limits maximum).takeAll (arrivals.map Arrival.retaining)).1.IsWhole ∧
      ∀ event ∈ ((idle limits maximum).takeAll (arrivals.map Arrival.retaining)).2,
        event.connection.IsWhole := by
  induction arrivals using List.reverseRecOn with
  | nil =>
      exact ⟨fun _ member => absurd member List.not_mem_nil,
        fun _ member => absurd member List.not_mem_nil⟩
  | append_singleton arrivals arrival ih =>
      rcases ih with ⟨whole, told⟩
      have config := (sound_takeAll limits maximum (arrivals.map Arrival.retaining)).1
      rw [List.map_append, List.map_singleton, takeAll_append]
      simp only
      generalize (idle limits maximum).takeAll (arrivals.map Arrival.retaining) = taken at *
      rcases process_step taken.1 arrival.retaining.clearing arrival.retaining.packet
        with still | ⟨segment, step⟩
      · rw [still, List.append_nil]
        exact ⟨whole, told⟩
      · have after := whole.step (config ▸ keeps) step
        refine ⟨after.1, fun event member => ?_⟩
        exact (List.mem_append.mp member).elim (told event) (after.2 event)

/-- Whether and how long delivered bytes are kept is not seen in the rest of a run. With `bare` none
are kept, with `kept` they are kept until they are dropped, with `whole` they are never dropped. At
all times the same connections are followed in the same way, apart from the delivered bytes, and the
same is told of them. The pieces that were dropped and what is left of a direction make up all that
was delivered. -/
theorem retained_unobserved (maximumBuffered maximum : Nat) (arrivals others : List Arrival)
    (same : others.map Arrival.packet = arrivals.map Arrival.packet) :
    let limits : Flow.Limits := ⟨maximumBuffered, true⟩
    let bare := (idle ⟨maximumBuffered, false⟩ maximum).takeAll others
    let kept := (idle limits maximum).takeAll arrivals
    let whole := (idle limits maximum).takeAll (arrivals.map Arrival.retaining)
    let dropped := (idle limits maximum).pieces
    (bare.1 = kept.1.mapPayloads ⟨maximumBuffered, false⟩ erasing ∧
      bare.2 = kept.2.map (Event.mapPayloads erasing erasing)) ∧
    ((∀ entry ∈ bare.1.connections, ∀ side, (entry.2.flow side).payload = []) ∧
      ∀ event ∈ bare.2, ∀ side, (event.connection.flow side).payload = []) ∧
    (whole.1 = kept.1.mapPayloads limits (restoring (dropped arrivals)) ∧
      ∀ arrival : Arrival,
        (whole.1.process .none arrival.packet).2 =
          (kept.1.process arrival.clearing arrival.packet).2.map
            (Event.mapPayloads (restoring (dropped arrivals))
              (restoring (dropped (arrivals ++ [arrival]))))) ∧
    (∀ entry ∈ whole.1.connections, ∀ side,
        (entry.2.flow side).payload.length = (entry.2.flow side).delivered) ∧
      ∀ event ∈ whole.2, ∀ side,
        (event.connection.flow side).payload.length = (event.connection.flow side).delivered := by
  intro limits bare kept whole dropped
  have erased := takeAll_erasing maximumBuffered maximum arrivals others same
  have restored := takeAll_restoring maximumBuffered maximum arrivals
  have all := isWhole_takeAll limits rfl maximum arrivals
  refine ⟨⟨congrArg Prod.fst erased, congrArg Prod.snd erased⟩, ⟨?_, ?_⟩, ⟨restored, ?_⟩, ?_⟩
  · intro entry member side
    rw [show bare.1 = _ from congrArg Prod.fst erased] at member
    rcases List.mem_map.mp member with ⟨before, _, rfl⟩
    exact payload_erasing before.2 side
  · intro event member side
    rw [show bare.2 = _ from congrArg Prod.snd erased] at member
    rcases List.mem_map.mp member with ⟨before, _, rfl⟩
    cases before <;> exact payload_erasing _ side
  · intro arrival
    rw [show whole.1 = _ from restored]
    exact congrArg Prod.snd (process_restoring maximumBuffered maximum arrivals arrival)
  · exact ⟨all.1, all.2⟩

namespace OneClient

/-- The bytes 3 and 4 of the client arrive early. Its byte 1 and the byte 5 of the server are
dropped when they arrive, and by the time of the latter there is nothing else of the client. -/
def arrivals : List Arrival :=
  [TwoClients.sent 1 true .syn 10 [], TwoClients.sent 1 false ⟨0x12⟩ 20 [],
    TwoClients.sent 1 true .ack 13 [3, 4],
    { TwoClients.sent 1 true .ack 11 [1] with clearing := ⟨true, false⟩ },
    { TwoClients.sent 1 false .ack 21 [5] with clearing := ⟨true, false⟩ },
    { TwoClients.sent 1 true .ack 12 [2] with clearing := ⟨false, true⟩ }]

theorem dropped_restored :
    (arrivals.map Arrival.retaining).map Arrival.packet = arrivals.map Arrival.packet ∧
      ((idle ⟨8, false⟩ 2).takeAll (arrivals.map Arrival.retaining)).2 =
        ((idle ⟨8, true⟩ 2).takeAll arrivals).2.map (Event.mapPayloads erasing erasing) ∧
      (idle ⟨8, true⟩ 2).pieces arrivals 0 true = [[1], []] ∧
      (idle ⟨8, true⟩ 2).pieces arrivals 0 false = [[5]] ∧
      ((idle ⟨8, true⟩ 2).takeAll arrivals).1.connections.map (·.2.fromClient.payload) =
        [[2, 3, 4]] ∧
      ((idle ⟨8, true⟩ 2).takeAll (arrivals.map Arrival.retaining)).1.connections.map
        (·.2.fromClient.payload) = [[1, 2, 3, 4]] := by
  have same : (arrivals.map Arrival.retaining).map Arrival.packet =
      arrivals.map Arrival.packet := rfl
  have told := (retained_unobserved 8 2 arrivals (arrivals.map Arrival.retaining) same).1.2
  exact ⟨same, told, by decide +kernel, by decide +kernel, by decide +kernel, by decide +kernel⟩

end OneClient

end Tracker

end PacketStack
