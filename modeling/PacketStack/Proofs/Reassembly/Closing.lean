import Mathlib.Data.List.Induction
import PacketStack.Proofs.Reassembly.Clearing
import PacketStack.Proofs.Reassembly.Conversation
import PacketStack.Proofs.Reassembly.Delivery

/-!
A connection is finished once each end has told its end and everything in front of it has arrived.

Main statement: `finished_iff_all_arrived` says this after every run in which nothing is reset and
nothing dropped for want of room. `Hears.receive` is what a segment preserves of the direction it
belongs to, `Connection.Hears.take` what it preserves of the connection.
-/

namespace PacketStack

namespace Flow

section

variable {limits : Limits} {flow : Flow}

theorem finish_deliverFragment (next : UInt32) (fragment : Fragment) :
    (flow.deliverFragment limits next fragment).finish = flow.finish := by
  unfold Flow.deliverFragment
  split <;> rfl

theorem finish_drain : (flow.drain limits).finish = flow.finish := by
  fun_induction Flow.drain limits flow with
  | case1 => rfl
  | case2 => rfl
  | case3 flow next known fragment due rest ih => exact ih.trans (finish_deliverFragment _ _)

theorem finish_receive (start : UInt32) (data : Bytes) :
    (flow.receive limits start data).1.finish = flow.finish := by
  unfold Flow.receive
  split
  · rfl
  · split
    · rfl
    · split
      · unfold Flow.hold
        simp only
        split
        · rfl
        · split <;> rfl
      · exact finish_drain

end

/-- What is known of a direction after slices of the bytes of its sender. The direction `whole` is
what it would be if no delivered bytes had been dropped. -/
structure Hears (limits : Limits) (stream : Bytes) (start : UInt32) (seen : Nat → Prop)
    (told kept : Prop) (count : Nat) (flow whole : Flow) : Prop where
  alike : flow.Alike whole
  same : kept → flow = whole
  follows : whole.Follows limits.keepsPayload stream start seen count count
  complete : whole.Complete stream start seen count count
  finish : told → flow.finish = some (Serial.advance start stream.length)
  open_end : ¬ told → flow.finish = none
  near : told → stream.length < count + 0x80000000

namespace Hears

variable {limits : Limits} {stream : Bytes} {start : UInt32} {seen : Nat → Prop}
variable {told kept : Prop} {whole flow : Flow} {count : Nat} {piece : Piece}

theorem init (limits : Limits) (stream : Bytes) (start : UInt32) (kept : Prop) :
    (empty.begin start).Hears limits stream start (fun _ => False) False kept 0
      (empty.begin start) where
  alike := alike_refl _
  same := fun _ => rfl
  follows := follows_begin limits.keepsPayload stream start
  complete := fun _ none => none.elim
  finish := fun none => none.elim
  open_end := fun _ => rfl
  near := fun none => none.elim

theorem delivered_eq (hears : flow.Hears limits stream start seen told kept count whole) :
    flow.delivered = count := hears.alike.delivered.trans hears.follows.delivered

theorem count_eq_iff (hears : flow.Hears limits stream start seen told kept count whole) :
    count = stream.length ↔ ∀ position < stream.length, seen position := by
  constructor
  · rintro rfl
    exact hears.follows.arrived
  · intro all
    apply Nat.le_antisymm hears.follows.inside
    apply Nat.le_of_not_lt
    intro missing
    rcases hears.complete count (all count missing) with before | held
    · exact Nat.lt_irrefl count before
    · rcases held with ⟨fragment, _, offset, early, first, _⟩
      have ahead := early.ahead
      omega

theorem isFinished_iff (hears : flow.Hears limits stream start seen told kept count whole) :
    flow.isFinished = true ↔ told ∧ count = stream.length := by
  have inside := hears.follows.inside
  unfold isFinished
  rw [hears.alike.expected, hears.follows.expected]
  by_cases known : told
  · have order : Serial.isBefore (Serial.advance start count)
        (Serial.advance start stream.length) = decide (count < stream.length) := by
      apply Serial.isBefore_advance
      have near := hears.near known
      unfold Serial.Near
      omega
    rw [hears.finish known]
    simp only [order, known, true_and, Bool.not_eq_true', decide_eq_false_iff_not]
    omega
  · rw [hears.open_end known]
    simp [known]

theorem receive (hears : flow.Hears limits stream start seen told kept count whole)
    (proper : (Sent.slice piece).Proper limits stream start flow) :
    ∃ received final,
      (Connection.receive limits piece.tcp (piece.payload stream) flow).1.Hears limits stream start
        (fun position => seen position ∨ piece.Covers position)
        (told ∨ piece.tcp.flags.contains .fin = true) kept final received := by
  rcases proper with ⟨fits, close, stops, room⟩
  rw [hears.delivered_eq] at close
  rw [hears.alike.drops_iff] at room
  rcases hears.follows.receive fits close with ⟨final, received⟩
  have advances := received.of_receive
  have further := advances.further
  have finish : (Connection.receive limits piece.tcp (piece.payload stream) flow).1.finish =
      if piece.tcp.flags.contains .fin then some (Serial.advance start stream.length)
      else flow.finish := by
    unfold Connection.receive
    simp only
    split
    · rename_i tells
      rw [markFinish, fits.placed, Piece.length_payload fits, Serial.advance_advance,
        ← stops tells, Piece.stop]
    · exact finish_receive _ _
  refine ⟨_, final, (hears.alike.receive_segment rfl _ _).1, ?_, advances.follows,
    advances.complete hears.complete room, ?_, ?_, ?_⟩
  · intro same
    rw [hears.same same]
  · intro known
    rw [finish]
    split
    · rfl
    · rename_i silent
      rcases known with before | tells
      · exact hears.finish before
      · exact absurd tells silent
  · intro unknown
    rw [finish, if_neg fun tells => unknown (.inr tells)]
    exact hears.open_end fun before => unknown (.inl before)
  · rintro (before | tells)
    · have near := hears.near before
      omega
    · have near := close.stop.1
      rw [stops tells] at near
      omega

theorem repeated (hears : flow.Hears limits stream start seen told kept count whole)
    (finished : flow.isFinished = true) (fits : piece.Fits stream start) :
    flow.Hears limits stream start (fun position => seen position ∨ piece.Covers position)
      (told ∨ piece.tcp.flags.contains .fin = true) kept count whole := by
  rcases hears.isFinished_iff.mp finished with ⟨known, all⟩
  refine ⟨hears.alike, hears.same, hears.follows.mono fun _ before => .inl before, ?_,
    fun _ => hears.finish known, fun unknown => absurd (.inl known) unknown,
    fun _ => hears.near known⟩
  rintro position (before | ⟨_, last⟩)
  · exact hears.complete position before
  · have inside := fits.inside
    left
    omega

theorem clear (hears : flow.Hears limits stream start seen told kept count whole) :
    flow.clear.Hears limits stream start seen told False count whole where
  alike := hears.alike.clear
  same := fun none => none.elim
  follows := hears.follows
  complete := hears.complete
  finish := hears.finish
  open_end := hears.open_end
  near := hears.near

theorem congr {others : Nat → Prop} {tells keeps : Prop}
    (hears : flow.Hears limits stream start seen told kept count whole)
    (positions : ∀ position, others position ↔ seen position) (ends : tells ↔ told)
    (fewer : keeps → kept) :
    flow.Hears limits stream start others tells keeps count whole := by
  have equal : others = seen := funext fun position => propext (positions position)
  rw [equal, propext ends]
  exact ⟨hears.alike, fun keeps => hears.same (fewer keeps), hears.follows, hears.complete,
    hears.finish, hears.open_end, hears.near⟩

end Hears

theorem receive_bare (limits : Limits) {tcp : Tcp} (silent : tcp.flags.contains .fin = false)
    (flow : Flow) : (Connection.receive limits tcp [] flow).1 = flow := by
  have nothing : (flow.receive limits tcp.sequence []).1 = flow := by
    unfold Flow.receive
    split <;> simp
  unfold Connection.receive
  simp only [silent, Bool.false_eq_true, if_false]
  exact nothing

end Flow

namespace Connection

open Turn

/-- What is known of a connection after turns of its ends. -/
structure Hears (limits : Flow.Limits) (conversation : Conversation) (turns : List Turn)
    (connection : Connection) : Prop where
  answered : connection.state ≠ .opening
  finished : connection.isFinished = true ↔
    ∀ side, (connection.flow side).isFinished = true
  flows : ∀ side, ∃ whole count, (connection.flow side).Hears limits (conversation.bytes side)
    (conversation.start side) (Arrived side turns) (Told side turns) (Kept side turns) count whole

variable {limits : Flow.Limits} {conversation : Conversation} {turns : List Turn}
variable {connection : Connection} {turn : Turn}

theorem Hears.flow_update (hears : connection.Hears limits conversation turns)
    (proper : turn.Proper limits conversation connection) (side : Bool) :
    ∃ whole count,
      ((connection.update limits turn.isClient turn.sent.tcp
        (turn.sent.payload (conversation.bytes turn.isClient))).1.flow side).Hears limits
        (conversation.bytes side) (conversation.start side)
        (fun position => Arrived side turns position ∨
          (turn.isClient = side ∧ turn.sent.Covers position))
        (Told side turns ∨ (turn.isClient = side ∧ turn.sent.tellsEnd = true))
        (Kept side turns) count whole := by
  rcases turn with ⟨isClient, sent, clearing⟩
  rcases proper with ⟨sending, keeps⟩
  simp only at sending keeps ⊢
  rcases hears.flows side with ⟨whole, count, known⟩
  rw [update_eq hears.answered keeps]
  by_cases same : isClient = side
  · subst same
    cases sent with
    | slice piece =>
        simp only [true_and]
        split
        · rename_i ended
          have finished := hears.finished.mp ended isClient
          exact ⟨whole, count, known.repeated finished sending.1⟩
        · rw [flow_settle, flow_setFlow, if_pos rfl]
          exact known.receive sending
    | bare tcp =>
        have silent : (Sent.bare tcp).tellsEnd = false := sending
        have unchanged : (receive limits tcp [] (connection.flow isClient)).1 =
            connection.flow isClient := Flow.receive_bare limits sending _
        refine ⟨whole, count, ?_⟩
        simp only [Sent.Covers, silent, and_false, or_false, Bool.false_eq_true]
        split
        · exact known
        · rw [flow_settle, flow_setFlow, if_pos rfl]
          change (receive limits tcp [] (connection.flow isClient)).1.Hears _ _ _ _ _ _ _ _
          rw [unchanged]
          exact known
  · refine ⟨whole, count, ?_⟩
    simp only [same, false_and, or_false]
    split
    · exact known
    · rw [flow_settle, flow_setFlow, if_neg same]
      exact known

theorem Hears.take (hears : connection.Hears limits conversation turns)
    (proper : turn.Proper limits conversation connection) :
    (Turn.take limits conversation connection turn).Hears limits conversation
      (turns ++ [turn]) := by
  have updated : (connection.update limits turn.isClient turn.sent.tcp
      (turn.sent.payload (conversation.bytes turn.isClient))).1 = _ :=
    update_eq hears.answered proper.keeps
  have clears (side : Bool) :
      ((Turn.take limits conversation connection turn).flow side).isFinished =
        ((connection.update limits turn.isClient turn.sent.tcp
          (turn.sent.payload (conversation.bytes turn.isClient))).1.flow side).isFinished := by
    rw [Turn.take, flow_clear]
    split
    · exact (Flow.alike_refl _).clear.isFinished_eq
    · rfl
  refine ⟨?_, ?_, ?_⟩
  · change (connection.update _ _ _ _).1.state ≠ .opening
    rw [updated]
    split
    · exact hears.answered
    · apply state_settle
      rw [state_setFlow]
      exact hears.answered
  · simp only [clears]
    change (connection.update _ _ _ _).1.isFinished = true ↔ _
    rw [updated]
    split
    · exact hears.finished
    · rename_i unfinished
      have continues : (connection.setFlow turn.isClient (receive limits turn.sent.tcp
          (turn.sent.payload (conversation.bytes turn.isClient))
          (connection.flow turn.isClient)).1).isFinished = connection.isFinished := by
        rw [isFinished, state_setFlow]
        rfl
      rw [isFinished_settle, continues]
      simp only [unfinished, Bool.false_eq_true, false_or, flow_settle]
  · intro side
    rcases hears.flow_update proper side with ⟨whole, count, known⟩
    refine ⟨whole, count, ?_⟩
    rw [Turn.take, flow_clear]
    split
    · rename_i drops
      apply known.clear.congr (fun _ => arrived_append) told_append
      intro keeps
      exact absurd ((kept_append.mp keeps).2.symm.trans drops) Bool.false_ne_true
    · exact known.congr (fun _ => arrived_append) told_append
        fun keeps => (kept_append.mp keeps).1

theorem Hears.takeAll (hears : connection.Hears limits conversation [])
    (proper : AllProper limits conversation turns connection) :
    (Turn.takeAll limits conversation turns connection).Hears limits conversation turns := by
  induction turns using List.reverseRecOn with
  | nil => exact hears
  | append_singleton turns turn ih =>
      rcases allProper_append.mp proper with ⟨before, last⟩
      rw [takeAll_append]
      exact (ih before).take last

theorem hears_opened (limits : Flow.Limits) (id : Nat) (ends : Endpoints) {question answer : Tcp}
    (payload : Bytes) (opens : conversation.Opens question answer) :
    (opened limits id ends question answer payload).Hears limits conversation [] := by
  have equal : opened limits id ends question answer payload =
      ⟨id, ends, .established, Flow.empty.begin conversation.clientStart,
        Flow.empty.begin conversation.serverStart⟩ := by
    unfold opened update
    rw [if_neg (by simp [opens.keeps]), if_neg (by simp [isFinished, new]), if_pos (by simp [new]),
      if_pos (by rw [opens.synchronizes, opens.acknowledges]; rfl), opens.asked, opens.answered]
    rfl
  rw [equal]
  refine ⟨by simp, ?_, ?_⟩
  · rw [Bool.forall_bool]
    exact ⟨fun finished => absurd finished Bool.false_ne_true,
      fun finished => absurd finished.1 Bool.false_ne_true⟩
  · intro side
    refine ⟨Flow.empty.begin (conversation.start side), 0, ?_⟩
    have begins := Flow.Hears.init limits (conversation.bytes side) (conversation.start side)
      (Kept side [])
    cases side <;>
      exact begins.congr (fun _ => by simp [Arrived]) (by simp [Told]) fun kept => kept

end Connection

/-- After every run of segments the connection is finished just if each end has told its end and
all of its bytes have arrived. Then all of them were delivered, and they are held if delivered bytes
are kept and have never been dropped. -/
theorem finished_iff_all_arrived (limits : Flow.Limits) (id : Nat) (ends : Endpoints)
    (conversation : Conversation) (question answer : Tcp) (payload : Bytes) (turns : List Turn)
    (opens : conversation.Opens question answer)
    (proper : Turn.AllProper limits conversation turns
      (Connection.opened limits id ends question answer payload)) :
    let connection := Turn.takeAll limits conversation turns
      (Connection.opened limits id ends question answer payload)
    (connection.isFinished = true ↔
      ∀ isClient, Turn.Told isClient turns ∧
        ∀ position < (conversation.bytes isClient).length, Turn.Arrived isClient turns position) ∧
      (connection.isFinished = true → ∀ isClient,
        (connection.flow isClient).delivered = (conversation.bytes isClient).length ∧
        (limits.keepsPayload = true → Turn.Kept isClient turns →
          (connection.flow isClient).payload = conversation.bytes isClient)) := by
  intro connection
  have hears := (Connection.hears_opened limits id ends payload opens).takeAll proper
  constructor
  · rw [hears.finished]
    apply forall_congr'
    intro isClient
    rcases hears.flows isClient with ⟨whole, count, known⟩
    rw [known.isFinished_iff, known.count_eq_iff]
  · intro finished isClient
    rcases hears.flows isClient with ⟨whole, count, known⟩
    rcases known.isFinished_iff.mp (hears.finished.mp finished isClient) with ⟨_, all⟩
    refine ⟨known.delivered_eq.trans all, ?_⟩
    intro keeps kept
    calc (connection.flow isClient).payload
      _ = whole.payload := by rw [known.same kept]
      _ = (conversation.bytes isClient).take count := known.follows.payload keeps
      _ = conversation.bytes isClient := by rw [all, List.take_length]

namespace ShortConversation

/-- The first byte of the client has the last but one of all numbers. -/
def question : Tcp := { (default : Tcp) with sequence := 0xfffffffd, flags := .syn }

def answer : Tcp := { (default : Tcp) with sequence := 6, flags := ⟨0x12⟩ }

def conversation : Conversation := ⟨[10, 11, 12], [20], 0xfffffffe, 7⟩

def connection : Connection :=
  .opened ⟨8, true⟩ 0 ⟨⟨.v4 (.ofNat 1), 1000⟩, ⟨.v4 (.ofNat 2), 80⟩⟩ question answer []

def lastByte : Piece := ⟨{ (default : Tcp) with sequence := 0, flags := .fin }, 2, 1⟩

def reply : Piece := ⟨{ (default : Tcp) with sequence := 7, flags := .fin }, 0, 1⟩

def everything : Piece := ⟨{ (default : Tcp) with sequence := 0xfffffffe }, 0, 3⟩

/-- The end of the client comes first, and the client opens a second time. -/
def turns : List Turn :=
  [⟨true, .slice lastByte, .none⟩, ⟨false, .slice reply, .none⟩, ⟨true, .bare question, .none⟩,
    ⟨true, .slice everything, .none⟩]

theorem turns_proper :
    Turn.AllProper ⟨8, true⟩ conversation turns connection := by
  have kept {flow : Flow} {start : UInt32} {data : Bytes}
      (room : flow.buffered + data.length ≤ 8) : ¬ flow.Drops ⟨8, true⟩ start data := by
    rintro ⟨_, _, _, _, _, _, full⟩
    simp only at full
    omega
  have early : (Sent.slice lastByte).Proper ⟨8, true⟩ [10, 11, 12] 0xfffffffe
      (Flow.empty.begin 0xfffffffe) :=
    ⟨⟨by decide, by decide⟩, ⟨by decide, by decide⟩, fun _ => rfl, kept (by decide)⟩
  have answered : (Sent.slice reply).Proper ⟨8, true⟩ [20] 7 (Flow.empty.begin 7) :=
    ⟨⟨by decide, by decide⟩, ⟨by decide, by decide⟩, fun _ => rfl, kept (by decide)⟩
  have whole : (Sent.slice everything).Proper ⟨8, true⟩ [10, 11, 12] 0xfffffffe
      (lastByte.receive ⟨8, true⟩ [10, 11, 12] (Flow.empty.begin 0xfffffffe)).1 :=
    ⟨⟨by decide, by decide⟩, ⟨by decide, by decide⟩, nofun, kept (by decide)⟩
  exact ⟨⟨early, rfl⟩, ⟨answered, rfl⟩, ⟨rfl, rfl⟩, ⟨whole, rfl⟩, trivial⟩

theorem all_arrived :
    conversation.Opens question answer ∧
      Turn.AllProper ⟨8, true⟩ conversation turns connection ∧
      (Turn.takeAll ⟨8, true⟩ conversation turns connection).isFinished = true ∧
      ((Turn.takeAll ⟨8, true⟩ conversation turns connection).flow true).payload =
        [10, 11, 12] := by
  have opens : conversation.Opens question answer := ⟨rfl, rfl, rfl, rfl, rfl⟩
  obtain ⟨finishes, delivers⟩ := finished_iff_all_arrived ⟨8, true⟩ 0
    ⟨⟨.v4 (.ofNat 1), 1000⟩, ⟨.v4 (.ofNat 2), 80⟩⟩ conversation question answer []
    turns opens turns_proper
  have finished := finishes.mpr (by
    rw [Bool.forall_bool]
    refine ⟨⟨⟨⟨false, .slice reply, .none⟩, by simp [turns], rfl, rfl⟩, ?_⟩,
      ⟨⟨true, .slice lastByte, .none⟩, by simp [turns], rfl, rfl⟩, ?_⟩
    · intro position inside
      exact ⟨⟨false, .slice reply, .none⟩, by simp [turns], rfl, Nat.zero_le _, inside⟩
    · intro position inside
      exact ⟨⟨true, .slice everything, .none⟩, by simp [turns], rfl, Nat.zero_le _, inside⟩)
  refine ⟨opens, turns_proper, finished, (delivers finished true).2 rfl ?_⟩
  intro turn member
  simp only [turns, List.mem_cons, List.not_mem_nil, or_false] at member
  rcases member with rfl | rfl | rfl | rfl <;> rfl

end ShortConversation

end PacketStack
