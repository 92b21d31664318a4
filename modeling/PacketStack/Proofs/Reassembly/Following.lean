import Mathlib.Data.List.Induction
import Mathlib.Data.List.Nodup
import PacketStack.Reassembly.Tracker

/-!
The connections that are followed, and the events that tell of them.

`Tracker.Step` lists what a segment can do. Main statement: `followed_and_ended` says after packets
of any kind which connections are followed, and that each of them ends at most once, as the last
event that tells of it.
-/

namespace PacketStack

/-- A packet, and which delivered bytes are dropped after the event that tells of new ones. -/
structure Arrival where
  packet : Packet
  clearing : Connection.Clearing

namespace Connection

variable (limits : Flow.Limits) (isClient : Bool) (tcp : Tcp) (payload : Bytes)
variable (clearing : Clearing) (connection : Connection)

theorem id_settle : connection.settle.id = connection.id := by
  unfold settle
  split <;> rfl

theorem ends_settle : connection.settle.ends = connection.ends := by
  unfold settle
  split <;> rfl

@[simp] theorem id_update :
    (connection.update limits isClient tcp payload).1.id = connection.id := by
  unfold update
  split
  · rfl
  · split
    · rfl
    · split
      · split <;> rfl
      · split <;> exact id_settle _

@[simp] theorem ends_update :
    (connection.update limits isClient tcp payload).1.ends = connection.ends := by
  unfold update
  split
  · rfl
  · split
    · rfl
    · split
      · split <;> rfl
      · split <;> exact ends_settle _

@[simp] theorem id_clear : (connection.clear clearing).id = connection.id := rfl

@[simp] theorem ends_clear : (connection.clear clearing).ends = connection.ends := rfl

end Connection

namespace Tracker

/-- A tracker that follows nothing yet. -/
def idle (limits : Flow.Limits) (maximum : Nat) : Tracker := ⟨limits, maximum, [], 0⟩

/-- Takes packets one after the other, each with its own choice of what is dropped. -/
def takeAll (tracker : Tracker) (arrivals : List Arrival) : Tracker × List Event :=
  arrivals.foldl (fun (tracker, events) arrival =>
    let (tracker, more) := tracker.process arrival.clearing arrival.packet
    (tracker, events ++ more)) (tracker, [])

theorem takeAll_append (tracker : Tracker) (arrivals : List Arrival) (arrival : Arrival) :
    tracker.takeAll (arrivals ++ [arrival]) =
      let taken := tracker.takeAll arrivals
      let result := taken.1.process arrival.clearing arrival.packet
      (result.1, taken.2 ++ result.2) := by
  rw [takeAll, List.foldl_append]
  rfl

theorem takeAll_cons (tracker : Tracker) (arrival : Arrival) (arrivals : List Arrival) :
    tracker.takeAll (arrival :: arrivals) =
      let result := tracker.process arrival.clearing arrival.packet
      let taken := result.1.takeAll arrivals
      (taken.1, result.2 ++ taken.2) := by
  induction arrivals using List.reverseRecOn with
  | nil => simp [takeAll]
  | append_singleton arrivals last ih =>
      rw [← List.cons_append, takeAll_append, ih]
      simp only [takeAll_append, List.append_assoc]

namespace Event

def connection : Event → Connection
  | .data connection => connection
  | .finished connection => connection

def isEnd : Event → Bool
  | .data _ => false
  | .finished _ => true

end Event

namespace Segment

def ends (segment : Segment) : Endpoints := ⟨segment.source, segment.destination⟩

def opens (segment : Segment) : Bool :=
  segment.tcp.flags.contains .syn && !segment.tcp.flags.contains .ack

def applied (limits : Flow.Limits) (ends : Endpoints) (connection : Connection)
    (segment : Segment) : Connection × Bool :=
  connection.update limits (segment.source = ends.client) segment.tcp segment.payload

def kept (limits : Flow.Limits) (clearing : Connection.Clearing) (ends : Endpoints)
    (connection : Connection) (segment : Segment) : Connection :=
  if (segment.applied limits ends connection).2 then
    (segment.applied limits ends connection).1.clear clearing
  else (segment.applied limits ends connection).1

def news (limits : Flow.Limits) (ends : Endpoints) (connection : Connection)
    (segment : Segment) : List Event :=
  if (segment.applied limits ends connection).2 then
    [.data (segment.applied limits ends connection).1]
  else []

variable {limits : Flow.Limits} {clearing : Connection.Clearing} {place : Endpoints}
variable {connection : Connection} {segment : Segment} {event : Event}

@[simp] theorem id_kept : (segment.kept limits clearing place connection).id = connection.id := by
  unfold kept
  split <;> simp [applied]

@[simp] theorem ends_kept :
    (segment.kept limits clearing place connection).ends = connection.ends := by
  unfold kept
  split <;> simp [applied]

theorem connection_of_mem_news (member : event ∈ segment.news limits place connection) :
    event.isEnd = false ∧ event.connection.id = connection.id ∧
      event.connection.ends = connection.ends := by
  unfold news at member
  split at member
  · rw [List.mem_singleton] at member
    subst member
    simp [Event.isEnd, Event.connection, applied]
  · cases member

end Segment

/-- What becomes of a tracker with a segment, and of what that tells. -/
inductive Step (clearing : Connection.Clearing) (segment : Segment) (tracker : Tracker) :
    Tracker × List Event → Prop
  | ignored (unknown : tracker.endsOf? segment = none)
      (closed : segment.opens = true → tracker.maximumConnections ≤ tracker.connections.length) :
      Step clearing segment tracker (tracker, [])
  | opened (unknown : tracker.endsOf? segment = none) (opens : segment.opens = true)
      (room : tracker.connections.length < tracker.maximumConnections) :
      Step clearing segment tracker
        ({ tracker with
          connections := tracker.connections.set segment.ends
            (.new tracker.nextId segment.ends segment.tcp)
          nextId := tracker.nextId + 1 }, [])
  | continued {place : Endpoints} {connection : Connection}
      (known : tracker.endsOf? segment = some place)
      (found : tracker.connections.get? place = some connection)
      (goes_on : (segment.kept tracker.limits clearing place connection).isFinished = false) :
      Step clearing segment tracker
        ({ tracker with
          connections := tracker.connections.set place
            (segment.kept tracker.limits clearing place connection) },
          segment.news tracker.limits place connection)
  | ended {place : Endpoints} {connection : Connection}
      (known : tracker.endsOf? segment = some place)
      (found : tracker.connections.get? place = some connection)
      (ends : (segment.kept tracker.limits clearing place connection).isFinished = true) :
      Step clearing segment tracker
        ({ tracker with connections := tracker.connections.erase place },
          segment.news tracker.limits place connection ++
            [.finished (segment.kept tracker.limits clearing place connection)])

variable {tracker : Tracker} {segment : Segment} {clearing : Connection.Clearing}

theorem endsOf?_eq_some {place : Endpoints} (known : tracker.endsOf? segment = some place) :
    (place = segment.ends ∨ place = segment.ends.swap) ∧
      tracker.connections.contains place = true := by
  unfold endsOf? at known
  simp only at known
  split at known
  · rename_i forwards
    cases known
    exact ⟨.inl rfl, forwards⟩
  · split at known
    · rename_i backwards
      cases known
      exact ⟨.inr rfl, backwards⟩
    · cases known

theorem endsOf?_eq_none_iff :
    tracker.endsOf? segment = none ↔
      tracker.connections.contains segment.ends = false ∧
        tracker.connections.contains segment.ends.swap = false := by
  unfold endsOf?
  rw [← Bool.not_eq_true, ← Bool.not_eq_true]
  simp only
  split
  · rename_i forwards
    simp [Segment.ends, forwards]
  · rename_i forwards
    split
    · rename_i backwards
      simp [Segment.ends, backwards]
    · rename_i backwards
      simp [Segment.ends, forwards, backwards]

theorem advance_eq (tracker : Tracker) (clearing : Connection.Clearing) (segment : Segment)
    (place : Endpoints) (connection : Connection) :
    tracker.advance clearing segment place connection =
      if (segment.kept tracker.limits clearing place connection).isFinished then
        ({ tracker with connections := tracker.connections.erase place },
          segment.news tracker.limits place connection ++
            [.finished (segment.kept tracker.limits clearing place connection)])
      else
        ({ tracker with
          connections := tracker.connections.set place
            (segment.kept tracker.limits clearing place connection) },
          segment.news tracker.limits place connection) := rfl

theorem step_processSegment (tracker : Tracker) (clearing : Connection.Clearing)
    (segment : Segment) :
    Step clearing segment tracker (tracker.processSegment clearing segment) := by
  unfold processSegment
  cases known : tracker.endsOf? segment with
  | none =>
      simp only
      unfold follow
      simp only
      split
      · rename_i both
        exact .opened known both.1 both.2
      · rename_i neither
        apply Step.ignored known
        intro opens
        exact Nat.le_of_not_lt fun room => neither ⟨opens, room⟩
  | some place =>
      rcases Option.isSome_iff_exists.mp (endsOf?_eq_some known).2 with ⟨connection, found⟩
      simp only [found]
      rw [advance_eq]
      split
      · rename_i ends
        exact .ended known found ends
      · rename_i open_still
        exact .continued known found (Bool.eq_false_iff.mpr open_still)

theorem Step.eq {result : Tracker × List Event} (step : Step clearing segment tracker result) :
    tracker.processSegment clearing segment = result := by
  unfold processSegment
  cases step with
  | ignored unknown closed =>
      have stays : ¬ (segment.opens = true ∧
          tracker.connections.length < tracker.maximumConnections) := by
        rintro ⟨opens, room⟩
        exact Nat.not_lt_of_le (closed opens) room
      rw [unknown]
      exact congrArg (·, []) (if_neg stays)
  | opened unknown opens room =>
      rw [unknown]
      exact congrArg (·, []) (if_pos ⟨opens, room⟩)
  | continued known found goes_on =>
      simp only [known, found]
      rw [advance_eq, if_neg (Bool.eq_false_iff.mp goes_on)]
  | ended known found ends =>
      simp only [known, found]
      rw [advance_eq, if_pos ends]

theorem process_of_segment {packet : Packet} (read : Segment.ofPacket? packet = some segment)
    (tracker : Tracker) (clearing : Connection.Clearing) :
    tracker.process clearing packet = tracker.processSegment clearing segment := by
  rw [process, read]

theorem process_of_none {packet : Packet} (read : Segment.ofPacket? packet = none)
    (tracker : Tracker) (clearing : Connection.Clearing) :
    tracker.process clearing packet = (tracker, []) := by
  rw [process, read]

theorem Step.config {result : Tracker × List Event} (step : Step clearing segment tracker result) :
    result.1.limits = tracker.limits ∧
      result.1.maximumConnections = tracker.maximumConnections := by
  cases step <;> exact ⟨rfl, rfl⟩

/-- What is known of the connections that are followed. -/
structure Sound (tracker : Tracker) : Prop where
  room : tracker.connections.length ≤ tracker.maximumConnections
  distinct : tracker.connections.keys.Nodup
  one_way : ∀ place : Endpoints, place.client ≠ place.server →
    tracker.connections.contains place = true → tracker.connections.contains place.swap = false
  own : ∀ entry ∈ tracker.connections, entry.2.ends = entry.1
  unfinished : ∀ entry ∈ tracker.connections, entry.2.isFinished = false
  rising : (tracker.connections.values.map Connection.id).Pairwise (· < ·)
  fresh : ∀ entry ∈ tracker.connections, entry.2.id < tracker.nextId

theorem sound_idle (limits : Flow.Limits) (maximum : Nat) : (idle limits maximum).Sound where
  room := Nat.zero_le _
  distinct := .nil
  one_way _ _ held := absurd held Bool.false_ne_true
  own _ member := absurd member List.not_mem_nil
  unfinished _ member := absurd member List.not_mem_nil
  rising := .nil
  fresh _ member := absurd member List.not_mem_nil

theorem Sound.own_of_get? (sound : tracker.Sound) {place : Endpoints} {connection : Connection}
    (found : tracker.connections.get? place = some connection) : connection.ends = place :=
  sound.own _ (Table.mem_of_get? found)

theorem Sound.unique (sound : tracker.Sound) {left right : Endpoints × Connection}
    (first : left ∈ tracker.connections) (second : right ∈ tracker.connections)
    (same : left.2.id = right.2.id) : left = right := by
  have rising := sound.rising
  rw [Table.values, List.map_map] at rising
  have distinct := rising.imp fun {_ _} less => Nat.ne_of_lt less
  exact List.inj_on_of_nodup_map distinct first second same

theorem Sound.open (sound : tracker.Sound) (unknown : tracker.endsOf? segment = none)
    (room : tracker.connections.length < tracker.maximumConnections) :
    Sound { tracker with
      connections := tracker.connections.set segment.ends
        (.new tracker.nextId segment.ends segment.tcp)
      nextId := tracker.nextId + 1 } := by
  rcases endsOf?_eq_none_iff.mp unknown with ⟨forwards, backwards⟩
  have last := Table.set_of_absent forwards (.new tracker.nextId segment.ends segment.tcp)
  refine ⟨?_, ?_, ?_, ?_, ?_, ?_, ?_⟩
  · simp only [last, List.length_append, List.length_singleton]
    omega
  · have absent : segment.ends ∉ tracker.connections.keys := by
      rw [← Table.contains_eq_true_iff, forwards]
      exact Bool.false_ne_true
    simp only [Table.keys_set, if_neg absent]
    exact List.nodup_append.mpr ⟨sound.distinct, List.nodup_singleton _, by
      rintro place member _ single rfl
      exact absent (List.mem_singleton.mp single ▸ member)⟩
  · intro place apart
    simp only [Table.contains_set, Bool.or_eq_true, decide_eq_true_eq, Bool.or_eq_false_iff,
      decide_eq_false_iff_not]
    rintro (same | held)
    · subst same
      exact ⟨fun same => apart (congrArg Endpoints.client same), backwards⟩
    · refine ⟨?_, sound.one_way place apart held⟩
      intro same
      have place_eq : segment.ends.swap = place := by rw [same]; rfl
      rw [place_eq, held] at backwards
      cases backwards
  · intro entry member
    rcases Table.mem_set member with rfl | old
    · rfl
    · exact sound.own entry old
  · intro entry member
    rcases Table.mem_set member with rfl | old
    · rfl
    · exact sound.unfinished entry old
  · simp only [last, Table.values, List.map_append, List.map_cons, List.map_nil]
    refine List.pairwise_append.mpr ⟨sound.rising, List.pairwise_singleton _ _, ?_⟩
    intro id member other single
    rw [List.mem_singleton.mp single]
    simp only [List.map_map, List.mem_map] at member
    rcases member with ⟨entry, inside, rfl⟩
    exact sound.fresh entry inside
  · intro entry member
    rcases Table.mem_set member with rfl | old
    · exact Nat.lt_succ_self _
    · exact Nat.lt_succ_of_lt (sound.fresh entry old)

theorem Sound.continue (sound : tracker.Sound) {place : Endpoints} {connection next : Connection}
    (found : tracker.connections.get? place = some connection) (id : next.id = connection.id)
    (ends : next.ends = connection.ends) (goes_on : next.isFinished = false) :
    Sound { tracker with connections := tracker.connections.set place next } := by
  have known := Table.mem_of_get? found
  have held : tracker.connections.contains place = true := by rw [Table.contains, found]; rfl
  have present : place ∈ tracker.connections.keys := Table.contains_eq_true_iff _ _ |>.mp held
  have keys : (tracker.connections.set place next).keys = tracker.connections.keys := by
    rw [Table.keys_set, if_pos present]
  have contains (other : Endpoints) : (tracker.connections.set place next).contains other =
      tracker.connections.contains other := by
    rw [Table.contains_set]
    by_cases same : place = other
    · rw [← same, held, Bool.or_true]
    · rw [decide_eq_false same, Bool.false_or]
  refine ⟨?_, ?_, ?_, ?_, ?_, ?_, ?_⟩
  · have size := congrArg List.length keys
    simp only [Table.keys, List.length_map] at size
    simp only [size]
    exact sound.room
  · simp only [keys]
    exact sound.distinct
  · simp only [contains]
    exact sound.one_way
  · intro entry member
    rcases Table.mem_set member with rfl | old
    · exact ends.trans (sound.own _ known)
    · exact sound.own entry old
  · intro entry member
    rcases Table.mem_set member with rfl | old
    · exact goes_on
    · exact sound.unfinished entry old
  · simp only [Table.map_values_set found Connection.id id]
    exact sound.rising
  · intro entry member
    rcases Table.mem_set member with rfl | old
    · exact id ▸ sound.fresh _ known
    · exact sound.fresh entry old

theorem Sound.erase (sound : tracker.Sound) (place : Endpoints) :
    Sound { tracker with connections := tracker.connections.erase place } := by
  have fewer : (tracker.connections.erase place).Sublist tracker.connections :=
    List.filter_sublist
  refine ⟨Nat.le_trans fewer.length_le sound.room, (fewer.map _).nodup sound.distinct, ?_,
    fun entry member => sound.own entry (fewer.subset member),
    fun entry member => sound.unfinished entry (fewer.subset member),
    sound.rising.sublist ((fewer.map _).map _),
    fun entry member => sound.fresh entry (fewer.subset member)⟩
  intro other apart
  simp only [Table.contains_erase, Bool.and_eq_true, Bool.and_eq_false_iff]
  rintro ⟨_, held⟩
  exact .inr (sound.one_way other apart held)

theorem Sound.step (sound : tracker.Sound) {result : Tracker × List Event}
    (step : Step clearing segment tracker result) : result.1.Sound := by
  cases step with
  | ignored _ _ => exact sound
  | opened unknown _ room => exact sound.open unknown room
  | continued _ found goes_on =>
      exact sound.continue found Segment.id_kept Segment.ends_kept goes_on
  | ended _ _ _ => exact sound.erase _

theorem Sound.process (sound : tracker.Sound) (arrival : Arrival) :
    (tracker.process arrival.clearing arrival.packet).1.Sound := by
  cases read : Segment.ofPacket? arrival.packet with
  | none =>
      rw [process_of_none read]
      exact sound
  | some segment =>
      rw [process_of_segment read]
      exact sound.step (step_processSegment tracker arrival.clearing segment)

/-- What is known of the events so far: the last one of a connection that has ended tells of its
end, and the connection is not followed any longer. -/
structure Told (events : List Event) (tracker : Tracker) : Prop where
  ends : ∀ connection, .finished connection ∈ events → connection.isFinished = true
  old : ∀ connection, .finished connection ∈ events → connection.id < tracker.nextId
  gone : ∀ connection, .finished connection ∈ events →
    ∀ entry ∈ tracker.connections, entry.2.id ≠ connection.id
  last : events.Pairwise fun earlier later =>
    earlier.isEnd = true → later.connection.id ≠ earlier.connection.id

theorem Event.eq_finished {event : Event} (ends : event.isEnd = true) :
    event = .finished event.connection := by
  cases event with
  | data _ => cases ends
  | finished _ => rfl

theorem finished_not_mem_news {limits : Flow.Limits} {place : Endpoints}
    {connection other : Connection} :
    Event.finished other ∉ segment.news limits place connection := by
  intro member
  exact absurd (Segment.connection_of_mem_news member).1 (by simp [Event.isEnd])

theorem Told.later {events : List Event} (told : Told events tracker)
    {entry : Endpoints × Connection} (followed : entry ∈ tracker.connections)
    {earlier later : Event} (before : earlier ∈ events) (about : later.connection.id = entry.2.id)
    (ends : earlier.isEnd = true) : later.connection.id ≠ earlier.connection.id := by
  rw [Event.eq_finished ends] at before
  rw [about]
  exact told.gone _ before entry followed

theorem Told.news {events : List Event} (told : Told events tracker) (limits : Flow.Limits)
    {place : Endpoints} {connection : Connection}
    (followed : (place, connection) ∈ tracker.connections) (segment : Segment) :
    Told (events ++ segment.news limits place connection) tracker := by
  have earlier {other : Connection}
      (member : Event.finished other ∈ events ++ segment.news limits place connection) :
      Event.finished other ∈ events := by
    rcases List.mem_append.mp member with before | now
    · exact before
    · exact absurd now finished_not_mem_news
  refine ⟨fun other ended => told.ends other (earlier ended),
    fun other ended => told.old other (earlier ended),
    fun other ended => told.gone other (earlier ended), ?_⟩
  have about {event : Event} (member : event ∈ segment.news limits place connection) :=
    Segment.connection_of_mem_news member
  refine List.pairwise_append.mpr ⟨told.last, ?_, ?_⟩
  · apply List.pairwise_of_forall_mem_list
    intro first member _ _ ends
    rw [(about member).1] at ends
    cases ends
  · intro first before second member ends
    exact told.later followed before (about member).2.1 ends

theorem Told.replace {events : List Event} (told : Told events tracker) {place : Endpoints}
    {connection next : Connection} (followed : (place, connection) ∈ tracker.connections)
    (id : next.id = connection.id) :
    Told events { tracker with connections := tracker.connections.set place next } := by
  refine ⟨told.ends, told.old, ?_, told.last⟩
  intro other ended entry member
  rcases Table.mem_set member with rfl | before
  · rw [id]
    exact told.gone other ended _ followed
  · exact told.gone other ended entry before

theorem Told.finish {events : List Event} (told : Told events tracker) (sound : tracker.Sound)
    {place : Endpoints} {connection last : Connection}
    (followed : (place, connection) ∈ tracker.connections) (id : last.id = connection.id)
    (ends : last.isFinished = true) :
    Told (events ++ [.finished last])
      { tracker with connections := tracker.connections.erase place } := by
  have origin {other : Connection} (member : Event.finished other ∈ events ++ [.finished last]) :
      Event.finished other ∈ events ∨ other = last := by
    rcases List.mem_append.mp member with before | now
    · exact .inl before
    · exact .inr (Event.finished.inj (List.mem_singleton.mp now))
  refine ⟨?_, ?_, ?_, List.pairwise_append.mpr ⟨told.last, List.pairwise_singleton _ _, ?_⟩⟩
  · intro other member
    rcases origin member with before | rfl
    · exact told.ends other before
    · exact ends
  · intro other member
    rcases origin member with before | rfl
    · exact told.old other before
    · rw [id]
      exact sound.fresh _ followed
  · intro other member entry left
    rcases List.mem_filter.mp left with ⟨inside, elsewhere⟩
    rcases origin member with before | rfl
    · exact told.gone other before entry inside
    · rw [id]
      intro same
      have equal := sound.unique inside followed same
      simp [equal] at elsewhere
  · intro first before second member closes
    rw [List.mem_singleton.mp member]
    exact told.later followed before id closes

theorem Told.step {events : List Event} (told : Told events tracker) (sound : tracker.Sound)
    {result : Tracker × List Event} (step : Step clearing segment tracker result) :
    Told (events ++ result.2) result.1 := by
  cases step with
  | ignored _ _ =>
      rw [List.append_nil]
      exact told
  | opened _ _ _ =>
      rw [List.append_nil]
      refine ⟨told.ends, fun other ended => Nat.lt_succ_of_lt (told.old other ended), ?_, told.last⟩
      intro other ended entry member
      rcases Table.mem_set member with rfl | before
      · exact Nat.ne_of_gt (told.old other ended)
      · exact told.gone other ended entry before
  | continued _ found _ =>
      have followed := Table.mem_of_get? found
      exact (told.news _ followed segment).replace followed Segment.id_kept
  | ended _ found ends =>
      have followed := Table.mem_of_get? found
      rw [← List.append_assoc]
      exact (told.news _ followed segment).finish sound followed Segment.id_kept ends

theorem told_nil (tracker : Tracker) : Told [] tracker where
  ends _ member := absurd member List.not_mem_nil
  old _ member := absurd member List.not_mem_nil
  gone _ member := absurd member List.not_mem_nil
  last := .nil

theorem sound_takeAll (limits : Flow.Limits) (maximum : Nat) (arrivals : List Arrival) :
    ((idle limits maximum).takeAll arrivals).1.limits = limits ∧
      ((idle limits maximum).takeAll arrivals).1.maximumConnections = maximum ∧
      ((idle limits maximum).takeAll arrivals).1.Sound ∧
      Told ((idle limits maximum).takeAll arrivals).2
        ((idle limits maximum).takeAll arrivals).1 := by
  induction arrivals using List.reverseRecOn with
  | nil => exact ⟨rfl, rfl, sound_idle limits maximum, told_nil _⟩
  | append_singleton arrivals arrival ih =>
      rcases ih with ⟨sameLimits, sameMaximum, sound, told⟩
      rw [takeAll_append]
      simp only
      cases read : Segment.ofPacket? arrival.packet with
      | none =>
          rw [process_of_none read, List.append_nil]
          exact ⟨sameLimits, sameMaximum, sound, told⟩
      | some segment =>
          rw [process_of_segment read]
          have step := step_processSegment ((idle limits maximum).takeAll arrivals).1
            arrival.clearing segment
          exact ⟨step.config.1.trans sameLimits, step.config.2.trans sameMaximum,
            sound.step step, told.step sound step⟩

/-- After any packets no more connections are followed than may be, each under its own ends, in one
direction and before its end, in the order of their identifiers. A connection that has ended is told
of as such once, is not followed any longer, and no event tells of it again. -/
theorem followed_and_ended (limits : Flow.Limits) (maximum : Nat) (arrivals : List Arrival) :
    let tracker := ((idle limits maximum).takeAll arrivals).1
    let events := ((idle limits maximum).takeAll arrivals).2
    tracker.maximumConnections = maximum ∧
      tracker.Sound ∧
      (∀ connection, .finished connection ∈ events →
        connection.isFinished = true ∧
          ∀ entry ∈ tracker.connections, entry.2.id ≠ connection.id) ∧
      events.Pairwise fun earlier later =>
        earlier.isEnd = true → later.connection.id ≠ earlier.connection.id := by
  intro tracker events
  rcases sound_takeAll limits maximum arrivals with ⟨_, sameMaximum, sound, told⟩
  refine ⟨sameMaximum, sound, ?_, told.last⟩
  intro connection ended
  exact ⟨told.ends connection ended, told.gone connection ended⟩

end Tracker

end PacketStack
