import Mathlib.Data.List.Induction
import PacketStack.Protection.Handshake

/-!
Which handshakes a capture recognises.

A capture keeps for every pair of stations what its messages come to, which is `reached`, and takes
notice of messages only. Main statement: `recognises_in_order` says that a packet completes a
handshake exactly if the messages of its pair came in order since the latest first one, which
handshake that is, and that no packets count but those of the pair.
-/

namespace PacketStack

theorem KeyFrame.ofEapol?_eq_some_iff {eapol : Eapol} {frame : KeyFrame} :
    ofEapol? eapol = some frame ↔ eapol = frame.eapol := by
  rcases eapol with ⟨version, body⟩
  rcases frame with ⟨other, key⟩
  cases body <;> simp [ofEapol?, Eapol.rsnKey?, KeyFrame.eapol]

namespace Handshake

/-- The message stands in the first key frame of a packet, whose first wireless frame is data
between the stations. -/
structure Message.CarriedBy (message : Message) (packet : Packet) : Prop where
  key : packet.findLayer? .eapol = some (.eapol message.frame.eapol)
  place : Place.ofInformation? message.frame.key.info = some message.place
  stations : ∃ frame source destination, packet.findLayer? .dot11 = some (.dot11 frame) ∧
    frame.data?.isSome = true ∧ frame.source? = some source ∧
    frame.destination? = some destination ∧ message.stations = .of source destination

theorem Message.ofPacket?_eq_some_iff {packet : Packet} {message : Message} :
    Message.ofPacket? packet = some message ↔ message.CarriedBy packet := by
  constructor
  · intro found
    simp only [ofPacket?, Option.bind_eq_bind, Option.bind_eq_some_iff, Option.pure_def] at found
    rcases found with ⟨layer, key, found⟩
    split at found
    · simp only [Option.bind_eq_some_iff, KeyFrame.ofEapol?_eq_some_iff] at found
      rcases found with ⟨frame, rfl, layer, wireless, found⟩
      split at found
      · simp only [Option.bind_eq_some_iff, Option.some.injEq] at found
        rcases found with ⟨data, isData, source, sent, destination, meant, place, stands, rfl⟩
        exact ⟨key, stands, _, source, destination, wireless, by rw [isData]; rfl, sent, meant, rfl⟩
      · cases found
    · cases found
  · intro carried
    rcases carried with ⟨key, place, frame, source, destination, wireless, isData, sent, meant, of⟩
    rcases Option.isSome_iff_exists.mp isData with ⟨data, isData⟩
    simp [ofPacket?, key, wireless, isData, sent, meant, place, ← of]

/-- The messages between two stations. -/
def between (stations : StationPair) (packets : List Packet) : List Message :=
  (packets.filterMap Message.ofPacket?).filter fun message => message.stations = stations

/-- Whether a packet carries a message between two stations. -/
def concerns (stations : StationPair) (packet : Packet) : Bool :=
  (Message.ofPacket? packet).any fun message => message.stations = stations

theorem between_append (stations : StationPair) (packets : List Packet) (packet : Packet) :
    between stations (packets ++ [packet]) =
      between stations packets ++
        (Message.ofPacket? packet).toList.filter fun message => message.stations = stations := by
  cases carried : Message.ofPacket? packet <;> simp [between, List.filterMap_append, carried]

/-- Messages from a first one on, until a last one. The second one and the third one may come
again. -/
structure Exchange where
  first : Message
  seconds : List Message
  thirds : List Message

namespace Exchange

def messages (exchange : Exchange) : List Message :=
  exchange.first :: (exchange.seconds ++ exchange.thirds)

/-- No message but the first one is of the first place, and none of the third comes before one of
the second. -/
structure InOrder (exchange : Exchange) : Prop where
  first : exchange.first.place = .first
  seconds : ∀ message ∈ exchange.seconds, message.place = .second
  thirds : ∀ message ∈ exchange.thirds, message.place = .third
  after : exchange.thirds ≠ [] → exchange.seconds ≠ []

end Exchange

/-- A packet after others carries the last message of a handshake: the messages between its
stations, from the latest first one on, are in order and end in that one. Of the messages that came
again the first ones count. -/
def Completes (packets : List Packet) (packet : Packet) (handshake : Handshake) : Prop :=
  ∃ (exchange : Exchange) (second third fourth : Message),
    exchange.InOrder ∧ fourth.place = .fourth ∧ fourth.CarriedBy packet ∧
      exchange.messages ++ [fourth] <:+ between fourth.stations (packets ++ [packet]) ∧
      exchange.seconds.head? = some second ∧ exchange.thirds.head? = some third ∧
      handshake =
        ⟨fourth.stations, exchange.first.frame, second.frame, third.frame, fourth.frame⟩

def Message.advance (progress? : Option Progress) (message : Message) : Option Progress :=
  match message.place, progress? with
  | .first, _ => some (.one message.frame)
  | .second, progress? => progress?.map (.second message.frame)
  | .third, progress? => progress?.map (.third message.frame)
  | .fourth, some (.three _ _ _) => none
  | .fourth, progress? => progress?.map fun _ => .broken

section Advance

variable {message : Message} {progress : Progress} {progress? : Option Progress}

theorem Message.advance_of_first (place : message.place = .first) :
    message.advance progress? = some (.one message.frame) := by
  simp [advance, place]

theorem Message.advance_of_second (place : message.place = .second) :
    message.advance progress? = progress?.map (.second message.frame) := by
  simp [advance, place]

theorem Message.advance_of_third (place : message.place = .third) :
    message.advance progress? = progress?.map (.third message.frame) := by
  simp [advance, place]

theorem Message.eq_broken_of_fourth (place : message.place = .fourth)
    (left : message.advance progress? = some progress) : progress = .broken := by
  unfold advance at left
  split at left
  all_goals simp_all

end Advance

def reached (messages : List Message) : Option Progress := messages.foldl Message.advance none

theorem reached_append (messages : List Message) (message : Message) :
    reached (messages ++ [message]) = message.advance (reached messages) := by
  rw [reached, List.foldl_append]
  rfl

namespace Exchange

def progress (exchange : Exchange) : Progress :=
  match exchange.seconds, exchange.thirds with
  | [], _ => .one exchange.first.frame
  | second :: _, [] => .two exchange.first.frame second.frame
  | second :: _, third :: _ => .three exchange.first.frame second.frame third.frame

def addSecond (exchange : Exchange) (message : Message) : Exchange :=
  { exchange with seconds := exchange.seconds ++ [message] }

def addThird (exchange : Exchange) (message : Message) : Exchange :=
  { exchange with thirds := exchange.thirds ++ [message] }

variable {exchange : Exchange} {message : Message}

theorem progress_addSecond (early : exchange.thirds = []) :
    (exchange.addSecond message).progress = exchange.progress.second message.frame := by
  rcases exchange with ⟨first, seconds, thirds⟩
  subst early
  cases seconds <;> rfl

theorem progress_addThird (late : exchange.seconds ≠ []) :
    (exchange.addThird message).progress = exchange.progress.third message.frame := by
  rcases exchange with ⟨first, seconds, thirds⟩
  cases seconds with
  | nil => exact absurd rfl late
  | cons second seconds => cases thirds <;> rfl

theorem progress_eq_three_iff {first second third : KeyFrame} :
    exchange.progress = .three first second third ↔
      exchange.first.frame = first ∧ (exchange.seconds.head?.map (·.frame)) = some second ∧
        (exchange.thirds.head?.map (·.frame)) = some third := by
  rcases exchange with ⟨own, seconds, thirds⟩
  cases seconds with
  | nil => simp [progress]
  | cons => cases thirds <;> simp [progress]

theorem messages_addSecond (early : exchange.thirds = []) :
    (exchange.addSecond message).messages = exchange.messages ++ [message] := by
  simp [messages, addSecond, early]

theorem messages_addThird :
    (exchange.addThird message).messages = exchange.messages ++ [message] := by
  simp [messages, addThird]

theorem InOrder.addSecond (ordered : exchange.InOrder) (early : exchange.thirds = [])
    (place : message.place = .second) : (exchange.addSecond message).InOrder where
  first := ordered.first
  seconds := by
    intro other member
    rcases List.mem_append.mp member with member | member
    · exact ordered.seconds other member
    · rwa [List.mem_singleton.mp member]
  thirds := ordered.thirds
  after late := absurd early late

theorem InOrder.addThird (ordered : exchange.InOrder) (late : exchange.seconds ≠ [])
    (place : message.place = .third) : (exchange.addThird message).InOrder where
  first := ordered.first
  seconds := ordered.seconds
  thirds := by
    intro other member
    rcases List.mem_append.mp member with member | member
    · exact ordered.thirds other member
    · rwa [List.mem_singleton.mp member]
  after _ := late

theorem InOrder.thirds_eq_nil (ordered : exchange.InOrder)
    (follows : exchange.progress.second message.frame ≠ .broken) : exchange.thirds = [] := by
  rcases exchange with ⟨first, seconds, thirds⟩
  cases thirds with
  | nil => rfl
  | cons third thirds =>
      cases seconds with
      | nil => exact absurd rfl (ordered.after (List.cons_ne_nil _ _))
      | cons second seconds => exact absurd rfl follows

theorem seconds_ne_nil (follows : exchange.progress.third message.frame ≠ .broken) :
    exchange.seconds ≠ [] := by
  intro early
  rcases exchange with ⟨first, seconds, thirds⟩
  subst early
  exact follows rfl

theorem InOrder.reached (ordered : exchange.InOrder) (before : List Message) :
    reached (before ++ exchange.messages) = some exchange.progress := by
  rcases exchange with ⟨first, seconds, thirds⟩
  induction thirds using List.reverseRecOn with
  | nil =>
      induction seconds using List.reverseRecOn with
      | nil =>
          have place : first.place = .first := ordered.first
          rw [show (⟨first, [], []⟩ : Exchange).messages = [first] from rfl, reached_append,
            Message.advance_of_first place]
          rfl
      | append_singleton seconds message ih =>
          have place : message.place = .second := ordered.seconds message (by simp)
          have shorter : (⟨first, seconds, []⟩ : Exchange).InOrder :=
            ⟨ordered.first, fun other member => ordered.seconds other (by simp [member]),
              ordered.thirds, fun late => absurd rfl late⟩
          rw [show (⟨first, seconds ++ [message], []⟩ : Exchange) =
            (⟨first, seconds, []⟩ : Exchange).addSecond message from rfl, messages_addSecond rfl,
            ← List.append_assoc, reached_append, ih shorter, progress_addSecond rfl,
            Message.advance_of_second place]
          rfl
  | append_singleton thirds message ih =>
      have place : message.place = .third := ordered.thirds message (by simp)
      have late : seconds ≠ [] := ordered.after (by simp)
      have shorter : (⟨first, seconds, thirds⟩ : Exchange).InOrder :=
        ⟨ordered.first, ordered.seconds,
          fun other member => ordered.thirds other (by simp [member]), fun _ => late⟩
      rw [show (⟨first, seconds, thirds ++ [message]⟩ : Exchange) =
        (⟨first, seconds, thirds⟩ : Exchange).addThird message from rfl, messages_addThird,
        ← List.append_assoc, reached_append, ih shorter, progress_addThird late,
        Message.advance_of_third place]
      rfl

end Exchange

theorem reached_eq_some_iff {history : List Message} {progress : Progress}
    (whole : progress ≠ .broken) :
    reached history = some progress ↔
      ∃ exchange : Exchange, exchange.InOrder ∧ exchange.messages <:+ history ∧
        exchange.progress = progress := by
  constructor
  · intro arrived
    induction history using List.reverseRecOn generalizing progress with
    | nil => cases arrived
    | append_singleton history message ih =>
        rw [reached_append] at arrived
        cases place : message.place with
        | first =>
            rw [Message.advance_of_first place, Option.some.injEq] at arrived
            have ordered : (⟨message, [], []⟩ : Exchange).InOrder :=
              ⟨place, by simp, by simp, fun late => absurd rfl late⟩
            exact ⟨_, ordered, List.suffix_append history [message], arrived⟩
        | second =>
            rw [Message.advance_of_second place, Option.map_eq_some_iff] at arrived
            rcases arrived with ⟨old, kept, rfl⟩
            have unbroken : old ≠ .broken := by
              rintro rfl
              exact whole rfl
            rcases ih unbroken kept with ⟨exchange, ordered, ⟨before, rfl⟩, rfl⟩
            have early := ordered.thirds_eq_nil whole
            refine ⟨exchange.addSecond message, ordered.addSecond early place, ⟨before, ?_⟩,
              Exchange.progress_addSecond early⟩
            rw [Exchange.messages_addSecond early, List.append_assoc]
        | third =>
            rw [Message.advance_of_third place, Option.map_eq_some_iff] at arrived
            rcases arrived with ⟨old, kept, rfl⟩
            have unbroken : old ≠ .broken := by
              rintro rfl
              exact whole rfl
            rcases ih unbroken kept with ⟨exchange, ordered, ⟨before, rfl⟩, rfl⟩
            have late := Exchange.seconds_ne_nil whole
            refine ⟨exchange.addThird message, ordered.addThird late place, ⟨before, ?_⟩,
              Exchange.progress_addThird late⟩
            rw [Exchange.messages_addThird, List.append_assoc]
        | fourth => exact absurd (Message.eq_broken_of_fourth place arrived) whole
  · intro follows
    rcases follows with ⟨exchange, ordered, ⟨before, rfl⟩, rfl⟩
    exact ordered.reached before

def Message.completed? (progress? : Option Progress) (message : Message) : Option Handshake :=
  match message.place, progress? with
  | .fourth, some (.three first second third) =>
      some ⟨message.stations, first, second, third, message.frame⟩
  | _, _ => none

theorem Message.completed?_eq_some_iff {message : Message} {progress? : Option Progress}
    {handshake : Handshake} :
    message.completed? progress? = some handshake ↔
      message.place = .fourth ∧ message.stations = handshake.stations ∧
        message.frame = handshake.fourth ∧
        progress? = some (.three handshake.first handshake.second handshake.third) := by
  rcases handshake with ⟨stations, first, second, third, fourth⟩
  unfold completed?
  split <;> grind

namespace Capture

variable {capture left right : Capture} {packets : List Packet} {packet : Packet}
variable {message : Message} {stations : StationPair} {handshake : Handshake}

theorem get?_progress (capture : Capture) (own stations : StationPair)
    (step : Progress → Progress) :
    (capture.progress own step).pending.get? stations =
      if own = stations then (capture.pending.get? stations).map step
      else capture.pending.get? stations := by
  unfold progress
  split
  · rename_i missing
    split
    · rename_i same
      rw [← same, missing]
      rfl
    · rfl
  · rename_i found
    rw [Table.get?_set]
    split
    · rename_i same
      rw [← same, found]
      rfl
    · rfl

@[simp] theorem complete_progress (capture : Capture) (own : StationPair)
    (step : Progress → Progress) : (capture.progress own step).complete = capture.complete := by
  unfold progress
  split <;> rfl

theorem get?_receive (capture : Capture) (message : Message) (stations : StationPair) :
    (capture.receive message).2.pending.get? stations =
      if message.stations = stations then message.advance (capture.pending.get? stations)
      else capture.pending.get? stations := by
  rcases message with ⟨own, place, frame⟩
  cases place with
  | first => exact Table.get?_set _ _ _ _
  | second => exact get?_progress _ _ _ _
  | third => exact get?_progress _ _ _ _
  | fourth =>
      simp only [receive, handshake?, Message.advance]
      split
      · rename_i unfinished
        split at unfinished
        · cases unfinished
        · rename_i other
          rw [get?_progress]
          split
          · rename_i same
            subst same
            cases kept : capture.pending.get? own with
            | none => rfl
            | some progress =>
                cases progress with
                | three first second third => exact absurd kept (other _ _ _)
                | _ => rfl
          · rfl
      · rename_i finished
        split at finished
        · rename_i kept
          rw [Table.get?_erase]
          split
          · rename_i same
            rw [← same, kept]
          · rfl
        · cases finished

theorem complete_receive (capture : Capture) (message : Message) :
    (capture.receive message).2.complete =
      capture.complete ++
        (message.completed? (capture.pending.get? message.stations)).toList := by
  rcases message with ⟨own, place, frame⟩
  cases place with
  | first => exact (List.append_nil _).symm
  | second => simp [receive, Message.completed?]
  | third => simp [receive, Message.completed?]
  | fourth =>
      simp only [receive, handshake?, Message.completed?]
      split <;> split <;> simp_all

theorem receive_fst (capture : Capture) (message : Message) :
    (capture.receive message).1 =
      (message.completed? (capture.pending.get? message.stations)).isSome := by
  rcases message with ⟨own, place, frame⟩
  cases place with
  | first => rfl
  | second => rfl
  | third => rfl
  | fourth =>
      simp only [receive, handshake?, Message.completed?]
      split <;> split <;> simp_all

theorem process_of_unread (unread : Message.ofPacket? packet = none) :
    capture.process packet = (false, capture) := by
  rw [process, unread]

theorem process_of_carried (carried : Message.ofPacket? packet = some message) :
    capture.process packet = capture.receive message := by
  rw [process, carried]

def processAll (capture : Capture) (packets : List Packet) : Capture :=
  packets.foldl (fun capture packet => (capture.process packet).2) capture

theorem processAll_append (capture : Capture) (packets : List Packet) (packet : Packet) :
    capture.processAll (packets ++ [packet]) = ((capture.processAll packets).process packet).2 := by
  rw [processAll, List.foldl_append]
  rfl

def Follows (capture : Capture) (packets : List Packet) : Prop :=
  ∀ stations, capture.pending.get? stations = reached (between stations packets)

theorem follows_empty : empty.Follows [] := fun _ => rfl

theorem Follows.process (follows : capture.Follows packets) (packet : Packet) :
    (capture.process packet).2.Follows (packets ++ [packet]) := by
  intro stations
  rw [between_append]
  cases carried : Message.ofPacket? packet with
  | none =>
      rw [process_of_unread carried]
      simpa using follows stations
  | some message =>
      rw [process_of_carried carried, get?_receive, follows stations]
      by_cases own : message.stations = stations
      · simp [own, reached_append]
      · simp [own]

theorem Follows.clear (follows : capture.Follows packets) : capture.clear.Follows packets := follows

theorem follows_processAll (packets : List Packet) :
    (empty.processAll packets).Follows packets := by
  induction packets using List.reverseRecOn with
  | nil => exact follows_empty
  | append_singleton packets packet ih =>
      rw [processAll_append]
      exact ih.process packet

theorem Follows.completes_iff (follows : capture.Follows packets) :
    Completes packets packet handshake ↔
      ∃ message, Message.ofPacket? packet = some message ∧
        message.completed? (capture.pending.get? message.stations) = some handshake := by
  have ends {message : Message} (carried : Message.ofPacket? packet = some message) :
      between message.stations (packets ++ [packet]) =
        between message.stations packets ++ [message] := by
    simp [between_append, carried]
  constructor
  · intro completes
    rcases completes with ⟨exchange, second, third, fourth, ordered, place, carried,
      ⟨before, suffix⟩, early, late, rfl⟩
    have found := Message.ofPacket?_eq_some_iff.mpr carried
    rw [ends found, ← List.append_assoc] at suffix
    have history := List.append_cancel_right suffix
    refine ⟨fourth, found, Message.completed?_eq_some_iff.mpr ⟨place, rfl, rfl, ?_⟩⟩
    rw [follows, ← history, ordered.reached, Option.some.injEq, Exchange.progress_eq_three_iff,
      early, late]
    exact ⟨rfl, rfl, rfl⟩
  · intro completes
    rcases completes with ⟨fourth, found, completed⟩
    rcases Message.completed?_eq_some_iff.mp completed with ⟨place, own, frame, kept⟩
    rw [follows, reached_eq_some_iff (by simp)] at kept
    rcases kept with ⟨exchange, ordered, ⟨before, history⟩, progress⟩
    rcases Exchange.progress_eq_three_iff.mp progress with ⟨first, early, late⟩
    rcases Option.map_eq_some_iff.mp early with ⟨second, early, secondFrame⟩
    rcases Option.map_eq_some_iff.mp late with ⟨third, late, thirdFrame⟩
    refine ⟨exchange, second, third, fourth, ordered, place, Message.ofPacket?_eq_some_iff.mp found,
      ⟨before, ?_⟩, early, late, ?_⟩
    · rw [ends found, ← history, List.append_assoc]
    · rw [own, first, secondFrame, thirdFrame, frame]

theorem Follows.process_eq (follows : capture.Follows packets) (packet : Packet) :
    ((capture.process packet).1 = true ↔ ∃ handshake, Completes packets packet handshake) ∧
      (∀ handshake, Completes packets packet handshake →
        (capture.process packet).2.complete = capture.complete ++ [handshake]) ∧
      ((capture.process packet).1 = false →
        (capture.process packet).2.complete = capture.complete) := by
  simp only [follows.completes_iff]
  cases carried : Message.ofPacket? packet with
  | none => simp [process_of_unread carried]
  | some message =>
      simp only [process_of_carried carried, receive_fst, complete_receive, Option.some.injEq,
        exists_eq_left']
      cases message.completed? (capture.pending.get? message.stations) <;> simp

theorem Follows.complete_of_not_completes (follows : capture.Follows packets)
    (unfinished : ∀ handshake, ¬ Completes packets packet handshake) :
    (capture.process packet).2.complete = capture.complete := by
  rcases follows.process_eq packet with ⟨finishes, _, keeps⟩
  apply keeps
  cases finished : (capture.process packet).1 with
  | false => rfl
  | true =>
      rcases finishes.mp finished with ⟨handshake, completes⟩
      exact absurd completes (unfinished handshake)

theorem Follows.eq_of_completes (follows : capture.Follows packets) {other : Handshake}
    (first : Completes packets packet handshake) (second : Completes packets packet other) :
    handshake = other := by
  rcases follows.process_eq packet with ⟨_, adds, _⟩
  have same := (adds handshake first).symm.trans (adds other second)
  simpa using same

/-- What a capture has of a pair: the progress of its handshake and its complete ones. -/
def share (capture : Capture) (stations : StationPair) : Option Progress × List Handshake :=
  (capture.pending.get? stations,
    capture.complete.filter fun handshake => handshake.stations = stations)

theorem share_process_of_other (capture : Capture) (other : concerns stations packet = false) :
    (capture.process packet).2.share stations = capture.share stations := by
  cases carried : Message.ofPacket? packet with
  | none => rw [process_of_unread carried]
  | some message =>
      have different : message.stations ≠ stations := by simpa [concerns, carried] using other
      have nothing : (message.completed? (capture.pending.get? message.stations)).toList.filter
          (fun handshake => handshake.stations = stations) = [] := by
        cases completed : message.completed? (capture.pending.get? message.stations) with
        | none => rfl
        | some handshake =>
            have own := (Message.completed?_eq_some_iff.mp completed).2.1
            simp [← own, different]
      rw [process_of_carried carried, share, share, get?_receive, if_neg different,
        complete_receive, List.filter_append, nothing, List.append_nil]

theorem share_process_congr (own : concerns stations packet = true)
    (same : left.share stations = right.share stations) :
    (left.process packet).2.share stations = (right.process packet).2.share stations := by
  cases carried : Message.ofPacket? packet with
  | none => simp [concerns, carried] at own
  | some message =>
      have equal : message.stations = stations := by simpa [concerns, carried] using own
      rcases Prod.mk.inj same with ⟨progress, complete⟩
      rw [process_of_carried carried, process_of_carried carried, share, share, get?_receive,
        get?_receive, complete_receive, complete_receive, List.filter_append, List.filter_append,
        equal, progress, complete]

theorem share_processAll_filter (packets : List Packet) (stations : StationPair) :
    (empty.processAll packets).share stations =
      (empty.processAll (packets.filter (concerns stations))).share stations := by
  induction packets using List.reverseRecOn with
  | nil => rfl
  | append_singleton packets packet ih =>
      rw [processAll_append, List.filter_append]
      cases own : concerns stations packet with
      | false =>
          have dropped : [packet].filter (concerns stations) = [] := by simp [own]
          rw [share_process_of_other _ own, dropped, List.append_nil, ih]
      | true =>
          have kept : [packet].filter (concerns stations) = [packet] := by simp [own]
          rw [kept, processAll_append]
          exact share_process_congr own ih

/-- A packet completes a handshake exactly if it carries the last message of one whose messages
came in order since the latest first one. That handshake is added then, and nothing otherwise. What
a capture has of a pair comes from the messages of the pair alone. -/
theorem recognises_in_order (packets : List Packet) (packet : Packet) :
    let capture := empty.processAll packets
    let result := capture.process packet
    (∀ message, Message.ofPacket? packet = some message ↔ message.CarriedBy packet) ∧
      (result.1 = true ↔ ∃ handshake, Completes packets packet handshake) ∧
      (∀ handshake, Completes packets packet handshake →
        result.2.complete = capture.complete ++ [handshake]) ∧
      (result.1 = false → result.2.complete = capture.complete) ∧
      ∀ stations,
        ((∀ message : Message, message.CarriedBy packet → message.stations ≠ stations) →
          result.2.share stations = capture.share stations) ∧
        capture.share stations =
          (empty.processAll (packets.filter (concerns stations))).share stations := by
  intro capture result
  have follows : capture.Follows packets := follows_processAll packets
  rcases follows.process_eq packet with ⟨completes, adds, keeps⟩
  refine ⟨fun message => Message.ofPacket?_eq_some_iff, completes, adds, keeps, ?_⟩
  intro stations
  refine ⟨?_, share_processAll_filter packets stations⟩
  intro others
  apply share_process_of_other
  cases carried : Message.ofPacket? packet with
  | none => simp [concerns, carried]
  | some message =>
      have different := others message (Message.ofPacket?_eq_some_iff.mp carried)
      simp [concerns, carried, different]

end Capture

namespace Joining

def packet (flags : UInt16) : Packet :=
  .over (.dot11 ⟨0, .toDs, 0, .ofNat 1, .data ⟨0, ⟨.ofNat 2, .ofNat 1, 0, 0, .zero⟩, 0⟩⟩)
    (.single (.eapol ⟨1, .rsnKey
      ⟨2, ⟨flags⟩, 16, 0, .zero 32, .zero 16, .zero 8, .zero 8, .zero 16, []⟩⟩))

def captured (flags : List UInt16) : Capture := Capture.empty.processAll (flags.map packet)

/-- The second and the third message may come again. -/
example : ((captured [0x088, 0x108, 0x108, 0x3c8, 0x3c8]).process (packet 0x308)).1 = true := by
  decide

/-- A second message does not follow a third one. -/
example : ((captured [0x088, 0x108, 0x3c8, 0x108]).process (packet 0x308)).1 = false := by decide

end Joining

end Handshake

end PacketStack
