import PacketStack.Proofs.Reassembly.Conversation
import PacketStack.Proofs.Reassembly.Delivery

/-!
Segments that open a direction once more and already carry its first bytes.

The number of such a segment stands in front of that of its first byte, so its bytes are taken to
start one place too early. Main statement: `payload_prefix_iff` says for which runs this goes
unnoticed, `reopened_misplaced` shows that it may not.
-/

namespace PacketStack

namespace Serial

theorem compare_before_first (start : UInt32) {count : Nat} (near : count < 0x80000000) :
    compare (start - 1) (advance start count) = .lt := by
  have behind : ¬ (distance (advance start count) (start - 1)).toNat < 0x80000000 := by
    simp only [distance, UInt32.toNat_sub, toNat_advance, UInt32.toNat_one]
    omega
  have apart : start - 1 ≠ advance start count := by
    intro same
    have numbers := congrArg UInt32.toNat same
    simp only [UInt32.toNat_sub, toNat_advance, UInt32.toNat_one] at numbers
    omega
  rw [compare, if_neg apart, if_neg behind]

theorem isAfter_before_first (start : UInt32) {count : Nat} (near : count < 0x80000000) :
    isAfter (start - 1) (advance start count) = false := by
  rw [isAfter, compare_before_first start near]
  rfl

theorem toNat_distance_before_first (start : UInt32) {count : Nat} (near : count < 0x80000000) :
    (distance (start - 1) (advance start count)).toNat = count + 1 := by
  simp only [distance, UInt32.toNat_sub, toNat_advance, UInt32.toNat_one]
  omega

theorem advance_before_first (start : UInt32) (count : Nat) :
    advance (start - 1) (count + 1) = advance start count := by
  apply UInt32.toNat.inj
  simp only [toNat_advance, UInt32.toNat_sub, UInt32.toNat_one]
  omega

end Serial

namespace Piece

/-- The first bytes of the sender, in a segment that opens the direction and so has the number in
front of them. -/
structure Reopens (stream : Bytes) (start : UInt32) (piece : Piece) : Prop where
  synchronizes : piece.tcp.flags.contains .syn = true
  first : piece.offset = 0
  inside : piece.stop ≤ stream.length
  placed : Connection.firstByte piece.tcp = start

/-- From a position on all bytes of the piece are the same. -/
def Uniform (stream : Bytes) (count : Nat) (piece : Piece) : Prop :=
  ∀ position, count ≤ position → position + 1 < piece.stop →
    stream[position]? = stream[position + 1]?

variable {stream : Bytes} {start : UInt32} {count : Nat} {piece : Piece}

theorem uniform_iff : piece.Uniform stream count ↔
    stream.window count (piece.stop - (count + 1)) =
      stream.window (count + 1) (piece.stop - (count + 1)) := by
  constructor
  · intro uniform
    apply List.ext_getElem?
    intro index
    simp only [Bytes.window, List.getElem?_take, List.getElem?_drop]
    split
    · rw [uniform (count + index) (by omega) (by omega)]
      congr 1
      omega
    · rfl
  · intro same position ahead inside
    have bytes := congrArg (·[position - count]?) same
    simp only [Bytes.window, List.getElem?_take, List.getElem?_drop] at bytes
    rw [if_pos (by omega), if_pos (by omega)] at bytes
    have here : count + (position - count) = position := by omega
    have next : count + 1 + (position - count) = position + 1 := by omega
    rwa [here, next] at bytes

theorem Reopens.sequence (reopens : piece.Reopens stream start) :
    piece.tcp.sequence = start - 1 := by
  rw [← reopens.placed, Connection.firstByte, UInt32.add_sub_cancel]

end Piece

namespace Flow

section

variable {limits : Limits} {stream : Bytes} {start : UInt32} {seen : Nat → Prop}
variable {count : Nat} {flow : Flow} {piece : Piece}

theorem receive_nil (limits : Limits) (start : UInt32) (flow : Flow) :
    flow.receive limits start [] = (flow, false) := by
  unfold Flow.receive
  split
  · rfl
  · exact if_pos rfl

theorem overlap_before_first (start : UInt32) (near : count < 0x80000000) :
    overlap (Serial.advance start count) (start - 1) = count + 1 := by
  have before : Serial.isBefore (start - 1) (Serial.advance start count) = true := by
    rw [Serial.isBefore, Serial.compare_before_first start near]
    rfl
  rw [overlap, if_pos before, Serial.toNat_distance_before_first start near]

theorem receive_reopening (expected : flow.expected = some (Serial.advance start count))
    (reopens : piece.Reopens stream start) (close : piece.Close count) :
    flow.receive limits piece.tcp.sequence (piece.payload stream) =
      if piece.stop ≤ count + 1 then (flow, false)
      else ((flow.deliver limits
        (stream.window (count + 1) (piece.stop - (count + 1)))).drain limits, true) := by
  have stop : piece.stop = piece.length := by rw [Piece.stop, reopens.first, Nat.zero_add]
  have inside := reopens.inside
  have near : count < 0x80000000 := by
    have start := close.start.2
    rw [reopens.first] at start
    omega
  have length : (piece.payload stream).length = piece.length := by
    rw [Piece.payload, Bytes.length_window, reopens.first]
    omega
  cases size : piece.length with
  | zero =>
      have nothing : piece.payload stream = [] := List.eq_nil_of_length_eq_zero (length.trans size)
      rw [nothing, receive_nil, if_pos (by omega)]
  | succ more =>
      have close' : Serial.Near more count := by
        have limit := close.stop
        unfold Serial.Near at limit ⊢
        omega
      have filled : (piece.payload stream).isEmpty = false := by
        rw [List.isEmpty_eq_false_iff, ← List.length_pos_iff]
        omega
      have ends : Serial.isAfter (Serial.advance piece.tcp.sequence (piece.payload stream).length)
          (Serial.advance start count) = decide (count < more) := by
        rw [reopens.sequence, length, size, Serial.advance_before_first]
        exact Serial.isAfter_advance start close'
      have starts := Serial.isAfter_before_first start near
      have skipped := overlap_before_first start near
      rw [← reopens.sequence] at starts skipped
      have rest : (piece.payload stream).drop (count + 1) =
          stream.window (count + 1) (piece.stop - (count + 1)) := by
        rw [Piece.payload, Bytes.drop_window, reopens.first, Nat.zero_add, stop]
      unfold Flow.receive
      simp only [expected, filled, ends, starts, skipped, rest]
      by_cases old : piece.stop ≤ count + 1
      · have settled : ¬ count < more := by omega
        simp [old, settled]
      · have new : count < more := by omega
        simp [old, new]

theorem Follows.reopen
    (follows : flow.Follows limits.keepsPayload stream start seen count count)
    (reopens : piece.Reopens stream start) (close : piece.Close count)
    (uniform : piece.Uniform stream count) :
    ∃ seen final, (flow.receive limits piece.tcp.sequence (piece.payload stream)).1.Follows
      limits.keepsPayload stream start seen final final := by
  rw [receive_reopening follows.expected reopens close]
  have inside := reopens.inside
  have near := close.stop.1
  by_cases old : piece.stop ≤ count + 1
  · rw [if_pos old]
    exact ⟨seen, count, follows⟩
  · rw [if_neg old, ← Piece.uniform_iff.mp uniform]
    have grown : flow.Follows limits.keepsPayload stream start (fun _ => True) count count :=
      follows.mono fun _ _ => trivial
    have delivered := grown.deliver (piece.stop - (count + 1)) (by omega) (by omega)
      fun _ _ _ => trivial
    rcases delivered.drain with ⟨final, _, result, ahead, _⟩
    exact ⟨_, final, result.rebase ahead⟩

theorem payload_prefix_drain : flow.payload <+: (flow.drain limits).payload := by
  fun_induction Flow.drain limits flow with
  | case1 => exact List.prefix_refl _
  | case2 => exact List.prefix_refl _
  | case3 flow next known fragment due rest =>
      rename_i ih
      refine List.IsPrefix.trans ?_ ih
      unfold Flow.deliverFragment Flow.deliver
      split
      · simp only
        split
        · exact List.prefix_append _ _
        · exact List.prefix_refl _
      · exact List.prefix_refl _

theorem Follows.uniform_of_prefix
    (follows : flow.Follows limits.keepsPayload stream start seen count count)
    (keeps : limits.keepsPayload = true) (reopens : piece.Reopens stream start)
    (close : piece.Close count)
    (first : (flow.receive limits piece.tcp.sequence (piece.payload stream)).1.payload <+: stream) :
    piece.Uniform stream count := by
  rw [receive_reopening follows.expected reopens close] at first
  rw [Piece.uniform_iff]
  have inside := reopens.inside
  by_cases old : piece.stop ≤ count + 1
  · have nothing : piece.stop - (count + 1) = 0 := by omega
    rw [nothing]
    rfl
  · rw [if_neg old] at first
    obtain ⟨more, more_eq⟩ : ∃ more, more = piece.stop - (count + 1) := ⟨_, rfl⟩
    rw [← more_eq] at first ⊢
    have delivered : stream.take count ++ stream.window (count + 1) more <+: stream := by
      have start := List.IsPrefix.trans payload_prefix_drain first
      simpa [Flow.deliver, keeps, follows.payload keeps] using start
    have length : (stream.take count ++ stream.window (count + 1) more).length = count + more := by
      rw [List.length_append, List.length_take, Bytes.length_window]
      omega
    have equal : stream.take count ++ stream.window (count + 1) more =
        stream.take count ++ stream.window count more := by
      rw [List.prefix_iff_eq_take.mp delivered, length, Bytes.take_append_window]
    exact (List.append_cancel_left equal).symm

theorem payload_receive_of_not_keeps (keeps : limits.keepsPayload = false) (place : UInt32)
    (data : Bytes) : (flow.receive limits place data).1.payload = flow.payload := by
  have deliver (flow : Flow) (data : Bytes) :
      (flow.deliver limits data).payload = flow.payload := by
    simp [Flow.deliver, keeps]
  have drain (flow : Flow) : (flow.drain limits).payload = flow.payload := by
    fun_induction Flow.drain limits flow with
    | case1 => rfl
    | case2 => rfl
    | case3 flow next known fragment due rest =>
        rename_i ih
        rw [ih, Flow.deliverFragment]
        split
        · exact deliver _ _
        · rfl
  have step := flow.received limits place data
  generalize flow.receive limits place data = result at step
  cases step with
  | unknown | repeated => rfl
  | early =>
      unfold Flow.hold
      simp only
      split
      · rfl
      · split <;> rfl
  | delivered => exact (drain _).trans (deliver _ _)

theorem payload_receive_segment (tcp : Tcp) (payload : Bytes) (flow : Flow) :
    (Connection.receive limits tcp payload flow).1.payload =
      (flow.receive limits tcp.sequence payload).1.payload := by
  unfold Connection.receive
  simp only
  split <;> rfl

theorem exists_follows_receive {tcp : Tcp} {payload : Bytes} {keeps : Bool}
    (received : ∃ seen final, (flow.receive limits tcp.sequence payload).1.Follows keeps stream
      start seen final final) :
    ∃ seen final, (Connection.receive limits tcp payload flow).1.Follows keeps stream
      start seen final final := by
  rcases received with ⟨seen, final, follows⟩
  refine ⟨seen, final, ?_⟩
  unfold Connection.receive
  simp only
  split
  · exact follows.markFinish
  · exact follows

end

end Flow

namespace Connection

def Speaks (side : Bool) (connection : Connection) : Prop :=
  side = true ∨ connection.state ≠ .opening

/-- The direction of a side has only just begun at the number of its first byte. -/
structure Begun (side : Bool) (start : UInt32) (connection : Connection) : Prop where
  speaks : connection.Speaks side
  flow : connection.flow side = Flow.empty.begin start

variable {limits : Flow.Limits} {connection : Connection} {side : Bool}
variable {tcp : Tcp} {payload : Bytes}

theorem begun_new (id : Nat) (ends : Endpoints) (opening : Tcp) :
    (new id ends opening).Begun true (firstByte opening) := ⟨.inl rfl, rfl⟩

theorem flow_update_not (side : Bool) :
    (connection.update limits (!side) tcp payload).1.flow side = connection.flow side := by
  unfold update
  split
  · rfl
  · split
    · rfl
    · split
      · rename_i waiting
        cases side
        · exact absurd waiting.2 Bool.false_ne_true
        · split <;> rfl
      · cases side <;> exact flow_settle _ _

theorem flow_update_self (speaks : connection.Speaks side) :
    (connection.update limits side tcp payload).1.flow side =
      if tcp.flags.contains .rst = true ∨ connection.isFinished = true then connection.flow side
      else (receive limits tcp payload (connection.flow side)).1 := by
  have heard : ¬ (connection.state = .opening ∧ (!side) = true) := by
    rintro ⟨waits, server⟩
    rcases speaks with rfl | answered
    · cases server
    · exact answered waits
  unfold update
  by_cases resets : tcp.flags.contains .rst = true
  · rw [if_pos resets, if_pos (.inl resets)]
    rfl
  · rw [if_neg resets]
    by_cases finished : connection.isFinished = true
    · rw [if_pos finished, if_pos (.inr finished)]
    · rw [if_neg finished, if_neg (not_or.mpr ⟨resets, finished⟩), if_neg heard]
      cases side <;> exact flow_settle _ _

theorem Speaks.update (speaks : connection.Speaks side) (isClient : Bool) :
    (connection.update limits isClient tcp payload).1.Speaks side := by
  refine speaks.elim .inl fun answered => .inr ?_
  unfold Connection.update
  split
  · exact nofun
  · split
    · exact answered
    · rw [if_neg fun waiting => answered waiting.1]
      split <;> exact state_settle answered

end Connection

/-- A segment between two ends, of which the bytes of one are followed. -/
inductive Passed where
  /-- Of that end, with a slice of its bytes. -/
  | own (piece : Piece)
  | other (tcp : Tcp) (payload : Bytes)

namespace Passed

/-- The connection after a segment. -/
def take (limits : Flow.Limits) (stream : Bytes) (side : Bool) (connection : Connection) :
    Passed → Connection
  | .own piece => (connection.update limits side piece.tcp (piece.payload stream)).1
  | .other tcp payload => (connection.update limits (!side) tcp payload).1

/-- A slice stands at the sequence number of its place, or in a segment that opens the direction
once more. Unless it is empty, it is close to what was delivered. -/
def Proper (stream : Bytes) (start : UInt32) (side : Bool) (connection : Connection) :
    Passed → Prop
  | .own piece =>
      (piece.Fits stream start ∨ piece.Reopens stream start) ∧
        (piece.length = 0 ∨ piece.Close (connection.flow side).delivered)
  | .other _ _ => True

/-- A segment that opens the direction once more is not heard, or it does not matter that its bytes
are taken to start one place too early: from the first undelivered byte on they are the same. -/
def Harmless (stream : Bytes) (start : UInt32) (side : Bool) (connection : Connection) :
    Passed → Prop
  | .own piece =>
      piece.Reopens stream start → piece.tcp.flags.contains .rst = false →
        connection.isFinished = false → piece.Uniform stream (connection.flow side).delivered
  | .other _ _ => True

/-- Every segment meets a condition when it comes. -/
def AllMeet (limits : Flow.Limits) (stream : Bytes) (side : Bool)
    (meets : Connection → Passed → Prop) : List Passed → Connection → Prop
  | [], _ => True
  | passed :: rest, connection =>
      meets connection passed ∧
        AllMeet limits stream side meets rest (passed.take limits stream side connection)

/-- The connection meets a condition before the first segment and after each one. -/
def Throughout (limits : Flow.Limits) (stream : Bytes) (side : Bool) (meets : Connection → Prop) :
    List Passed → Connection → Prop
  | [], connection => meets connection
  | passed :: rest, connection =>
      meets connection ∧
        Throughout limits stream side meets rest (passed.take limits stream side connection)

section

variable {limits : Flow.Limits} {stream : Bytes} {start : UInt32} {side : Bool}
variable {seen : Nat → Prop} {count : Nat} {connection : Connection} {passed : Passed}

theorem speaks_take (speaks : connection.Speaks side) :
    (passed.take limits stream side connection).Speaks side := by
  cases passed with
  | own piece => exact speaks.update side
  | other tcp payload => exact speaks.update (!side)

theorem payload_take_of_not_keeps (speaks : connection.Speaks side)
    (keeps : limits.keepsPayload = false) :
    ((passed.take limits stream side connection).flow side).payload =
      (connection.flow side).payload := by
  cases passed with
  | other tcp payload => rw [take, Connection.flow_update_not]
  | own piece =>
      rw [take, Connection.flow_update_self speaks]
      split
      · rfl
      · rw [Flow.payload_receive_segment, Flow.payload_receive_of_not_keeps keeps]

theorem throughout_of_not_keeps (speaks : connection.Speaks side)
    (keeps : limits.keepsPayload = false) (nothing : (connection.flow side).payload = [])
    (run : List Passed) :
    Throughout limits stream side (fun connection => (connection.flow side).payload <+: stream)
      run connection := by
  have first : (connection.flow side).payload <+: stream := by
    rw [nothing]
    exact List.nil_prefix
  induction run generalizing connection with
  | nil => exact first
  | cons passed rest ih =>
      have same : ((passed.take limits stream side connection).flow side).payload =
          (connection.flow side).payload := payload_take_of_not_keeps speaks keeps
      rw [nothing] at same
      exact ⟨first, ih (speaks_take speaks) same (by rw [same]; exact List.nil_prefix)⟩

theorem follows_take (speaks : connection.Speaks side)
    (follows : (connection.flow side).Follows limits.keepsPayload stream start seen count count)
    (proper : passed.Proper stream start side connection)
    (harmless : passed.Harmless stream start side connection) :
    ∃ seen final, ((passed.take limits stream side connection).flow side).Follows
      limits.keepsPayload stream start seen final final := by
  cases passed with
  | other tcp payload =>
      rw [take, Connection.flow_update_not]
      exact ⟨seen, count, follows⟩
  | own piece =>
      rw [take, Connection.flow_update_self speaks]
      split
      · exact ⟨seen, count, follows⟩
      · rename_i heard
        rw [not_or, Bool.not_eq_true, Bool.not_eq_true] at heard
        rcases proper with ⟨placed, close⟩
        rw [follows.delivered] at close
        apply Flow.exists_follows_receive
        rcases close with empty | close
        · have nothing : piece.payload stream = [] := by
            rw [Piece.payload, empty, Bytes.window, List.take_zero]
          rw [nothing, Flow.receive_nil]
          exact ⟨seen, count, follows⟩
        · rcases placed with fits | reopens
          · rcases follows.receive fits close with ⟨final, advances⟩
            exact ⟨_, final, advances.follows⟩
          · have uniform := harmless reopens heard.1 heard.2
            rw [follows.delivered] at uniform
            exact follows.reopen reopens close uniform

theorem harmless_of_prefix (keeps : limits.keepsPayload = true) (speaks : connection.Speaks side)
    (follows : (connection.flow side).Follows limits.keepsPayload stream start seen count count)
    (proper : passed.Proper stream start side connection)
    (first : ((passed.take limits stream side connection).flow side).payload <+: stream) :
    passed.Harmless stream start side connection := by
  cases passed with
  | other tcp payload => trivial
  | own piece =>
      intro reopens lasts goes_on
      rcases proper.2 with empty | close
      · intro position _ inside
        rw [Piece.stop, reopens.first, empty] at inside
        cases inside
      · rw [take, Connection.flow_update_self speaks, if_neg (by simp [lasts, goes_on]),
          Flow.payload_receive_segment] at first
        rw [follows.delivered] at close ⊢
        exact follows.uniform_of_prefix keeps reopens close first

theorem throughout_iff (keeps : limits.keepsPayload = true) (speaks : connection.Speaks side)
    (follows : (connection.flow side).Follows limits.keepsPayload stream start seen count count)
    (run : List Passed)
    (proper : AllMeet limits stream side (Proper stream start side) run connection) :
    Throughout limits stream side (fun connection => (connection.flow side).payload <+: stream)
        run connection ↔
      AllMeet limits stream side (Harmless stream start side) run connection := by
  have first : (connection.flow side).payload <+: stream := by
    rw [follows.payload keeps]
    exact List.take_prefix _ _
  induction run generalizing connection seen count with
  | nil => exact iff_of_true first trivial
  | cons passed rest ih =>
      rcases proper with ⟨now, later⟩
      constructor
      · rintro ⟨_, after⟩
        have next : ((passed.take limits stream side connection).flow side).payload <+: stream := by
          cases rest with
          | nil => exact after
          | cons => exact after.1
        have harmless := harmless_of_prefix keeps speaks follows now next
        rcases follows_take speaks follows now harmless with ⟨_, _, follows'⟩
        exact ⟨harmless, (ih (speaks_take speaks) follows' later next).mp after⟩
      · rintro ⟨harmless, others⟩
        rcases follows_take speaks follows now harmless with ⟨_, _, follows'⟩
        have next : ((passed.take limits stream side connection).flow side).payload <+: stream := by
          rw [follows'.payload keeps]
          exact List.take_prefix _ _
        exact ⟨first, (ih (speaks_take speaks) follows' later next).mpr others⟩

end

/-- What is delivered of a side stays the start of its bytes just if every segment that opens its
direction once more is harmless, or delivered bytes are not kept. -/
theorem payload_prefix_iff (limits : Flow.Limits) (stream : Bytes) (start : UInt32) (side : Bool)
    (connection : Connection) (begun : connection.Begun side start) (run : List Passed)
    (proper : AllMeet limits stream side (Proper stream start side) run connection) :
    Throughout limits stream side (fun connection => (connection.flow side).payload <+: stream)
        run connection ↔
      (limits.keepsPayload = true →
        AllMeet limits stream side (Harmless stream start side) run connection) := by
  cases keeps : limits.keepsPayload with
  | true =>
      have follows := Flow.follows_begin limits.keepsPayload stream start
      rw [← begun.flow] at follows
      simp only [true_imp_iff]
      exact throughout_iff keeps begun.speaks follows run proper
  | false =>
      have nothing : (connection.flow side).payload = [] := by
        rw [begun.flow]
        rfl
      exact iff_of_true (throughout_of_not_keeps begun.speaks keeps nothing run) nofun

def ends : Endpoints := ⟨⟨.v4 (.ofNat 0x0a000001), 40000⟩, ⟨.v4 (.ofNat 0x0a000002), 80⟩⟩

def opening : Tcp := { (default : Tcp) with sequence := 99, flags := .syn }

def answer : Tcp := { (default : Tcp) with sequence := 499, flags := ⟨0x12⟩ }

/-- Where the first two bytes are the same it goes unnoticed that the first one is lost. -/
def evenRun : List Passed :=
  [.own ⟨opening, 0, 2⟩, .other answer [],
    .own ⟨{ opening with sequence := 101, flags := .ack }, 1, 2⟩]

theorem payload_prefix_of_even_run :
    (Connection.new 0 ends opening).Begun true 100 ∧
      AllMeet ⟨8, true⟩ [7, 7, 8] true (Proper [7, 7, 8] 100 true) evenRun
        (.new 0 ends opening) ∧
      Throughout ⟨8, true⟩ [7, 7, 8] true
        (fun connection => (connection.flow true).payload <+: [7, 7, 8]) evenRun
        (.new 0 ends opening) := by
  have begun := Connection.begun_new 0 ends opening
  have proper : AllMeet ⟨8, true⟩ [7, 7, 8] true (Proper [7, 7, 8] 100 true) evenRun
      (.new 0 ends opening) :=
    ⟨⟨.inr ⟨by decide, rfl, by decide, rfl⟩, .inr ⟨by decide, by decide⟩⟩, trivial,
      ⟨.inl ⟨by decide, by decide⟩, .inr ⟨by decide +kernel, by decide +kernel⟩⟩, trivial⟩
  refine ⟨begun, proper, ?_⟩
  refine (payload_prefix_iff _ _ _ _ _ begun evenRun proper).mpr fun _ => ⟨?_, trivial, ?_, trivial⟩
  · intro _ _ _ position _ inside
    have first : position = 0 := by
      simp only [Piece.stop] at inside
      omega
    subst first
    rfl
  · intro reopens
    exact absurd reopens.first (by decide)

/-- A segment that opens the direction once more, with the two bytes that the client sends: the
first one is lost. -/
theorem reopened_misplaced :
    (Connection.new 0 ends opening).Begun true 100 ∧
      Proper [97, 98] 100 true (.new 0 ends opening) (.own ⟨opening, 0, 2⟩) ∧
      ((Connection.new 0 ends opening).flow true).payload = [] ∧
      ((take ⟨8, true⟩ [97, 98] true (.new 0 ends opening)
        (.own ⟨opening, 0, 2⟩)).flow true).payload = [98] ∧
      ¬ [98] <+: ([97, 98] : Bytes) :=
  ⟨Connection.begun_new 0 ends opening,
    ⟨.inr ⟨by decide, rfl, by decide, rfl⟩, .inr ⟨by decide, by decide⟩⟩, rfl,
    by decide +kernel, by decide⟩

end Passed

end PacketStack
