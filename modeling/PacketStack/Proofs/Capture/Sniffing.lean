import PacketStack.Proofs.Capture.Reading
import PacketStack.Proofs.Checked.Packet

/-!
The packets of a source, taken one by one or handed on to a handler.

A source gives finitely many frames and then ends or fails. Main statement:
`FrameSource.hands_on_packets` says that both ways lead through the packets of these frames, and how
far the second one goes.
-/

namespace PacketStack

namespace CapturedFrame

/-- The packets in frames, without the frames that are no packet. -/
def packets (frames : List CapturedFrame) : List Packet :=
  frames.filterMap fun frame => frame.packet.value?

variable {frame : CapturedFrame} {frames : List CapturedFrame}

theorem packets_cons_of_ok {packet : Packet} (read : frame.packet = .ok packet) :
    packets (frame :: frames) = packet :: packets frames :=
  List.filterMap_cons_some (Outcome.value?_eq_some_iff.mpr read)

theorem packets_cons_of_error {failure : Failure} (flawed : frame.packet = .error failure) :
    packets (frame :: frames) = packets frames :=
  List.filterMap_cons_none (by rw [flawed]; rfl)

theorem packets_append (front back : List CapturedFrame) :
    packets (front ++ back) = packets front ++ packets back :=
  List.filterMap_append

theorem packet_answers (frame : CapturedFrame) :
    (∃ packet, frame.packet = .ok packet) ∨ ∃ cause, frame.packet = .error (.refused cause) :=
  (Packet.safe_ofLinkBytes frame.link frame.bytes).faultless.answers

end CapturedFrame

/-- Calls of a handler with one packet after the other. Each but the last is answered by wanting
more; it is told whether the last is too. -/
inductive HandlerCalls {τ : Type} (handler : τ → Packet → Bool × τ) :
    τ → List Packet → Bool → τ → Prop where
  | nil (seen : τ) : HandlerCalls handler seen [] true seen
  | stop {seen after : τ} {packet : Packet} (answer : handler seen packet = (false, after)) :
      HandlerCalls handler seen [packet] false after
  | cons {seen between after : τ} {packet : Packet} {packets : List Packet} {more : Bool}
      (answer : handler seen packet = (true, between))
      (others : HandlerCalls handler between packets more after) :
      HandlerCalls handler seen (packet :: packets) more after

theorem HandlerCalls.of_tireless {τ : Type} {observe : τ → Packet → τ} {seen after : τ}
    {packets : List Packet} {more : Bool}
    (calls : HandlerCalls (fun seen packet => (true, observe seen packet)) seen packets more
      after) :
    more = true ∧ after = packets.foldl observe seen := by
  induction calls with
  | nil seen => exact ⟨rfl, rfl⟩
  | stop answer => cases answer
  | cons answer others ih =>
      cases answer
      exact ih

namespace FrameSource

variable {σ τ : Type} {source : FrameSource σ} {state behind last : σ} {frame : CapturedFrame}
  {frames : List CapturedFrame} {packet : Packet} {handler : τ → Packet → Bool × τ}

/-- The source has ended, or it fails. -/
def Over (source : FrameSource σ) (last : σ) : Prop :=
  source.next last = .ok none ∨ ∃ cause, source.next last = .error cause

theorem Over.next_ne (spent : source.Over last) (frame : CapturedFrame) (behind : σ) :
    source.next last ≠ .ok (some (frame, behind)) := by
  rcases spent with ended | ⟨cause, failed⟩
  · simp [ended]
  · simp [failed]

theorem Gives.last_eq {other : σ} (given : source.Gives state frames last)
    (also : source.Gives state frames other) : last = other := by
  induction given with
  | nil state => cases also; rfl
  | cons read others ih =>
      cases also with
      | cons again also =>
          cases read.symm.trans again
          exact ih also

theorem exists_gives (source : FrameSource σ) (state : σ) :
    ∃ frames last, source.Gives state frames last ∧ source.Over last := by
  match read : source.next state with
  | .error cause => exact ⟨[], state, .nil state, .inr ⟨cause, read⟩⟩
  | .ok none => exact ⟨[], state, .nil state, .inl read⟩
  | .ok (some (frame, behind)) =>
      rcases source.exists_gives behind with ⟨frames, last, given, spent⟩
      exact ⟨frame :: frames, last, .cons read given, spent⟩
termination_by source.size state
decreasing_by exact source.size_lt read

theorem nextPacket_eq (read : source.next state = .ok (some (frame, behind))) :
    source.nextPacket state = match frame.packet with
      | .ok packet => (some packet, behind)
      | .error _ => source.nextPacket behind := by
  rw [nextPacket]
  split
  · rename_i same
    cases read.symm.trans same
    rfl
  · rename_i other
    exact absurd read (other frame behind)

theorem nextPacket_of_over (spent : source.Over last) : source.nextPacket last = (none, last) := by
  rw [nextPacket]
  split
  · rename_i same
    exact absurd same (spent.next_ne _ _)
  · rfl

/-- The packets that a source yields one after the other, until it has none any more. -/
inductive Yields (source : FrameSource σ) : σ → List Packet → σ → Prop where
  | nil {state last : σ} (taken : source.nextPacket state = (none, last)) :
      Yields source state [] last
  | cons {state behind last : σ} {packet : Packet} {packets : List Packet}
      (taken : source.nextPacket state = (some packet, behind))
      (others : Yields source behind packets last) : Yields source state (packet :: packets) last

theorem Yields.of_nextPacket_eq {packets : List Packet}
    (same : source.nextPacket state = source.nextPacket behind)
    (yields : source.Yields behind packets last) : source.Yields state packets last := by
  cases yields with
  | nil taken => exact .nil (same.trans taken)
  | cons taken others => exact .cons (same.trans taken) others

theorem yields_of_gives (given : source.Gives state frames last) (spent : source.Over last) :
    source.Yields state (CapturedFrame.packets frames) last := by
  induction given with
  | nil state => exact .nil (nextPacket_of_over spent)
  | @cons state behind last frame frames read others ih =>
      have taken := nextPacket_eq read
      cases decoded : frame.packet with
      | ok packet =>
          rw [CapturedFrame.packets_cons_of_ok decoded]
          rw [decoded] at taken
          exact .cons taken (ih spent)
      | error failure =>
          rw [CapturedFrame.packets_cons_of_error decoded]
          rw [decoded] at taken
          exact (ih spent).of_nextPacket_eq taken

theorem packets_eq (read : source.next state = .ok (some (frame, behind))) :
    source.packets state = (CapturedFrame.packets [frame] ++ (source.packets behind).1,
      (source.packets behind).2) := by
  rw [packets]
  split
  · rename_i same
    cases read.symm.trans same
    cases decoded : frame.packet with
    | ok packet => rw [CapturedFrame.packets_cons_of_ok decoded]; rfl
    | error failure => rw [CapturedFrame.packets_cons_of_error decoded]; rfl
  · rename_i other
    exact absurd read (other frame behind)

theorem packets_of_over (spent : source.Over last) : source.packets last = ([], last) := by
  rw [packets]
  split
  · rename_i same
    exact absurd same (spent.next_ne _ _)
  · rfl

theorem packets_of_gives (given : source.Gives state frames last) (spent : source.Over last) :
    source.packets state = (CapturedFrame.packets frames, last) := by
  induction given with
  | nil state => exact packets_of_over spent
  | @cons state behind last frame frames read others ih =>
      rw [packets_eq read, ih spent]
      exact congrArg (·, last) (CapturedFrame.packets_append [frame] frames).symm

theorem sniff_of_error {failure : Failure} (read : source.next state = .ok (some (frame, behind)))
    (flawed : frame.packet = .error failure) (delivered : Nat) (seen : τ) :
    source.sniff handler delivered state seen = source.sniff handler delivered behind seen := by
  rw [sniff]
  split
  · rename_i same
    cases read.symm.trans same
  · rename_i same
    cases read.symm.trans same
  · rename_i same
    cases read.symm.trans same
    simp only [flawed]

theorem sniff_of_ok {seen after : τ} {more : Bool}
    (read : source.next state = .ok (some (frame, behind))) (decoded : frame.packet = .ok packet)
    (answer : handler seen packet = (more, after)) (delivered : Nat) :
    source.sniff handler delivered state seen =
      if more then source.sniff handler (delivered + 1) behind after
      else ⟨.ok (delivered + 1), behind, after⟩ := by
  rw [sniff]
  split
  · rename_i same
    cases read.symm.trans same
  · rename_i same
    cases read.symm.trans same
  · rename_i same
    cases read.symm.trans same
    cases more with
    | false => simp [decoded, answer]
    | true => simp [decoded, answer]

theorem sniff_of_over (spent : source.Over last) (delivered : Nat) (seen : τ) :
    source.sniff handler delivered last seen =
      ⟨(source.next last).map fun _ => delivered, last, seen⟩ := by
  rw [sniff]
  split
  · rename_i failed
    rw [failed]
    rfl
  · rename_i ended
    rw [ended]
    rfl
  · rename_i same
    exact absurd same (spent.next_ne _ _)

/-- Handing on the packets in the first of some frames: all of them if the handler wants more to the
last, else up to the one after which it wants no more. -/
structure HandsOn (source : FrameSource σ) (handler : τ → Packet → Bool × τ)
    (frames : List CapturedFrame) (state : σ) (seen : τ) (read : List CapturedFrame) (more : Bool)
    (rest : σ) (after : τ) : Prop where
  front : read <+: frames
  given : source.Gives state read rest
  calls : HandlerCalls handler seen (CapturedFrame.packets read) more after
  whole : more = true → read = frames
  stopped : more = false → ∃ before frame packet, read = before ++ [frame] ∧
    frame.packet = .ok packet

namespace HandsOn

variable {seen between after : τ} {read : List CapturedFrame} {more : Bool} {rest : σ}

theorem nil (source : FrameSource σ) (handler : τ → Packet → Bool × τ) (state : σ) (seen : τ) :
    HandsOn source handler [] state seen [] true state seen :=
  ⟨List.prefix_rfl, .nil state, .nil seen, fun _ => rfl, nofun⟩

theorem stop (given : source.next state = .ok (some (frame, behind)))
    (decoded : frame.packet = .ok packet) (answer : handler seen packet = (false, after)) :
    HandsOn source handler (frame :: frames) state seen [frame] false behind after where
  front := ⟨frames, rfl⟩
  given := .cons given (.nil behind)
  calls := by
    rw [CapturedFrame.packets_cons_of_ok decoded]
    exact .stop answer
  whole := nofun
  stopped _ := ⟨[], frame, packet, rfl, decoded⟩

theorem cons (given : source.next state = .ok (some (frame, behind)))
    (hands : HandsOn source handler frames behind between read more rest after)
    (calls : HandlerCalls handler seen (CapturedFrame.packets (frame :: read)) more after) :
    HandsOn source handler (frame :: frames) state seen (frame :: read) more rest after where
  front := List.cons_prefix_cons.mpr ⟨rfl, hands.front⟩
  given := .cons given hands.given
  calls := calls
  whole wants := congrArg (frame :: ·) (hands.whole wants)
  stopped ends := by
    rcases hands.stopped ends with ⟨before, last, packet, rfl, decoded⟩
    exact ⟨frame :: before, last, packet, rfl, decoded⟩

end HandsOn

def resultAt (source : FrameSource σ) (last : σ) (more : Bool) (count : Nat) :
    Except CaptureError Nat :=
  if more then (source.next last).map fun _ => count else .ok count

theorem resultAt_eq_error_iff {more : Bool} {count : Nat} {cause : CaptureError} :
    source.resultAt last more count = .error cause ↔
      more = true ∧ source.next last = .error cause := by
  cases more with
  | false => simp [resultAt]
  | true => cases read : source.next last <;> simp [resultAt, read, Except.map]

theorem eq_of_resultAt_eq_ok {more : Bool} {count total : Nat}
    (result : source.resultAt last more count = .ok total) : total = count := by
  cases more with
  | false => exact (Except.ok.inj result).symm
  | true =>
      cases read : source.next last with
      | error cause => simp [resultAt, read, Except.map] at result
      | ok found =>
          simp only [resultAt, read, Except.map, if_pos] at result
          exact (Except.ok.inj result).symm

theorem exists_handsOn (given : source.Gives state frames last) (spent : source.Over last)
    (handler : τ → Packet → Bool × τ) (delivered : Nat) (seen : τ) :
    ∃ read more rest after, source.HandsOn handler frames state seen read more rest after ∧
      source.sniff handler delivered state seen =
        ⟨source.resultAt last more (delivered + (CapturedFrame.packets read).length), rest,
          after⟩ := by
  -- For any number of packets handed on before: a frame that is no packet leaves the rest as it is,
  -- and behind a packet it is the answer of the handler that counts.
  induction given generalizing delivered seen with
  | nil state =>
      exact ⟨[], true, state, seen, .nil source handler state seen, sniff_of_over spent _ _⟩
  | @cons state behind last frame frames read others ih =>
      cases decoded : frame.packet with
      | error failure =>
          rcases ih spent delivered seen with ⟨front, more, rest, after, hands, result⟩
          have same : CapturedFrame.packets (frame :: front) = CapturedFrame.packets front :=
            CapturedFrame.packets_cons_of_error decoded
          refine ⟨frame :: front, more, rest, after, hands.cons read (same ▸ hands.calls), ?_⟩
          rw [sniff_of_error read decoded, same]
          exact result
      | ok packet =>
          cases answer : handler seen packet with
          | mk wants between =>
              cases wants with
              | false =>
                  refine ⟨[frame], false, behind, between, .stop read decoded answer, ?_⟩
                  rw [sniff_of_ok read decoded answer, CapturedFrame.packets_cons_of_ok decoded]
                  rfl
              | true =>
                  rcases ih spent (delivered + 1) between with
                    ⟨front, more, rest, after, hands, result⟩
                  have same : CapturedFrame.packets (frame :: front) =
                      packet :: CapturedFrame.packets front :=
                    CapturedFrame.packets_cons_of_ok decoded
                  refine ⟨frame :: front, more, rest, after,
                    hands.cons read (same ▸ .cons answer hands.calls), ?_⟩
                  rw [sniff_of_ok read decoded answer, if_pos rfl, result, same, List.length_cons,
                    Nat.add_right_comm delivered, Nat.add_assoc]

theorem sniff_of_tireless (given : source.Gives state frames last) (spent : source.Over last)
    (observe : τ → Packet → τ) (seen : τ) :
    source.sniff (fun seen packet => (true, observe seen packet)) 0 state seen =
      ⟨(source.next last).map fun _ => (CapturedFrame.packets frames).length, last,
        (CapturedFrame.packets frames).foldl observe seen⟩ := by
  rcases exists_handsOn given spent (fun seen packet => (true, observe seen packet)) 0 seen with
    ⟨read, more, rest, after, hands, result⟩
  rcases hands.calls.of_tireless with ⟨wanted, observed⟩
  have whole := hands.whole wanted
  subst whole wanted observed
  rw [result, hands.given.last_eq given, Nat.zero_add]
  rfl

/-- A source gives frames, each of which is a packet or is refused, and then it ends or fails. The
packets handed on are those of the frames in their order, up to the first after which the handler
wants no more; no frame behind that one is read. The outcome is their number, or the failure of the
source where the handler still wants more. What is taken one by one is what a handler that always
wants more is called with, and both come to where the source ends or fails. -/
theorem hands_on_packets (source : FrameSource σ) (state : σ) :
    ∃ frames last, source.Gives state frames last ∧ source.Over last ∧
      (∀ frame ∈ frames, (∃ packet, frame.packet = .ok packet) ∨
        ∃ cause, frame.packet = .error (.refused cause)) ∧
      (∀ (τ : Type) (handler : τ → Packet → Bool × τ) (seen : τ),
        ∃ read more rest after result,
          source.HandsOn handler frames state seen read more rest after ∧
          source.sniff handler 0 state seen = ⟨result, rest, after⟩ ∧
          (∀ cause, result = .error cause ↔ more = true ∧ source.next last = .error cause) ∧
          ∀ count, result = .ok count → count = (CapturedFrame.packets read).length) ∧
      source.Yields state (CapturedFrame.packets frames) last ∧
      source.packets state = (CapturedFrame.packets frames, last) ∧
      ∀ (τ : Type) (observe : τ → Packet → τ) (seen : τ),
        source.sniff (fun seen packet => (true, observe seen packet)) 0 state seen =
          ⟨(source.next last).map fun _ => (CapturedFrame.packets frames).length, last,
            (CapturedFrame.packets frames).foldl observe seen⟩ := by
  rcases source.exists_gives state with ⟨frames, last, given, spent⟩
  refine ⟨frames, last, given, spent, fun frame _ => frame.packet_answers,
    fun τ handler seen => ?_, yields_of_gives given spent, packets_of_gives given spent,
    fun τ => sniff_of_tireless given spent⟩
  rcases exists_handsOn given spent handler 0 seen with ⟨read, more, rest, after, hands, result⟩
  rw [Nat.zero_add] at result
  exact ⟨read, more, rest, after, _, hands, result, fun cause => resultAt_eq_error_iff,
    fun count => eq_of_resultAt_eq_ok⟩

end FrameSource

end PacketStack
