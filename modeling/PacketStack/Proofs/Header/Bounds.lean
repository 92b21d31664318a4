import PacketStack.Assembly
import PacketStack.Options
import PacketStack.Proofs.Header.Checksums
import PacketStack.Proofs.Outcome

/-!
How far a write reaches.

A write `Spares` what is behind the first `head` bytes of a frame and in front of the last `tail`
ones: these stay as they are whether or not it succeeds, and it never reaches past the end of a
frame that has room for both. There is one law for each of the steps writes are made of.
-/

namespace PacketStack

namespace Bytes

variable {bytes data : Bytes} {start offset size : Nat}

theorem window_splice_behind (inside : start + data.length ≤ bytes.length)
    (behind : start + data.length ≤ offset) :
    (bytes.splice start data).window offset size = bytes.window offset size := by
  rcases Nat.exists_eq_add_of_le behind with ⟨more, rfl⟩
  rw [window, window, ← List.drop_drop, drop_splice _ _ inside, List.drop_drop]

theorem window_splice_before (inside : start + data.length ≤ bytes.length)
    (before : offset + size ≤ start) :
    (bytes.splice start data).window offset size = bytes.window offset size := by
  rw [← window_take _ _ _ _ before, take_splice _ _ inside, window_take _ _ _ _ before]

end Bytes

namespace Span

theorem window_put_behind (span : Span) (value : Nat) {bytes : Bytes} {offset size : Nat}
    (behind : span.endByte ≤ offset) :
    (span.put value bytes).window offset size = bytes.window offset size := by
  have order := span.firstByte_le_endByte
  unfold put
  split
  · rename_i inside
    have reach : span.firstByte + (Bytes.ofNatBE span.byteCount
        (span.merge value (span.around bytes))).length = span.endByte := by
      rw [Bytes.length_ofNatBE, byteCount]
      omega
    apply Bytes.window_splice_behind
    · rwa [reach]
    · rwa [reach]
  · rfl

end Span

namespace Write

variable {α β : Type}

/-- What a write into one frame leaves alone. -/
structure SparesIn (head tail : Nat) (frame : Bytes) (write : Write α) : Prop where
  length : (write.run.run frame).2.length = frame.length
  middle : (write.run.run frame).2.window head (frame.length - tail - head) =
    frame.window head (frame.length - tail - head)
  faultless : Outcome.Faultless (write.run.run frame).1

def Spares (head tail : Nat) (write : Write α) : Prop :=
  ∀ frame : Bytes, head + tail ≤ frame.length → frame.length < 2 ^ 32 →
    write.SparesIn head tail frame

variable {head tail : Nat}

theorem run_bind_ok {write : Write α} {next : α → Write β} {frame after : Bytes} {value : α}
    (step : write.run.run frame = (.ok value, after)) :
    (write >>= next).run.run frame = (next value).run.run after := by
  simp only [ExceptT.run_bind, StateT.run_bind, step]
  rfl

theorem run_bind_error {write : Write α} {next : α → Write β} {frame after : Bytes}
    {failure : Failure} (step : write.run.run frame = (.error failure, after)) :
    (write >>= next).run.run frame = (.error failure, after) := by
  simp only [ExceptT.run_bind, StateT.run_bind, step]
  rfl

theorem SparesIn.bind {write : Write α} {next : α → Write β} {frame : Bytes}
    (first : write.SparesIn head tail frame)
    (rest : ∀ value after, write.run.run frame = (.ok value, after) →
      after.length = frame.length → (next value).SparesIn head tail after) :
    (write >>= next).SparesIn head tail frame := by
  rcases first with ⟨length, middle, faultless⟩
  cases step : write.run.run frame with
  | mk outcome after =>
      rw [step] at length middle faultless
      cases outcome with
      | error failure =>
          have run : (write >>= next).run.run frame = (.error failure, after) :=
            run_bind_error step
          constructor
          · rw [run]
            exact length
          · rw [run]
            exact middle
          · rw [run]
            exact faultless.error
      | ok value =>
          have run : (write >>= next).run.run frame = (next value).run.run after :=
            run_bind_ok step
          rcases rest value after step length with ⟨size, same, sound⟩
          rw [show after.length = frame.length from length] at size same
          constructor
          · rw [run]
            exact size
          · rw [run, same]
            exact middle
          · rw [run]
            exact sound

theorem Spares.bind {write : Write α} {next : α → Write β} (first : write.Spares head tail)
    (rest : ∀ value, (next value).Spares head tail) : (write >>= next).Spares head tail := by
  intro frame room small
  apply (first frame room small).bind
  intro value after _ same
  exact rest value after (by rwa [same]) (by rwa [same])

theorem spares_pure (value : α) : (pure value : Write α).Spares head tail :=
  fun _ _ _ => ⟨rfl, rfl, Outcome.faultless_ok value⟩

theorem spares_refused (cause : PacketError) :
    (throw (.refused cause) : Write α).Spares head tail :=
  fun _ _ _ => ⟨rfl, rfl, Outcome.faultless_refused cause⟩

theorem spares_frame : Write.frame.Spares head tail :=
  fun frame _ _ => ⟨rfl, rfl, Outcome.faultless_ok frame⟩

theorem spares_lift {outcome : Outcome α} (faultless : outcome.Faultless) :
    (lift outcome).Spares head tail :=
  fun _ _ _ => ⟨rfl, rfl, faultless⟩

theorem spares_demand {condition : Prop} [Decidable condition] {cause : Malformation} :
    (demand condition cause).Spares head tail := by
  unfold demand
  split
  · exact spares_pure ()
  · exact spares_refused _

theorem run_require_of_lt {part : Part} {minimum : Nat} {frame : Bytes}
    (short : frame.length < minimum) :
    (require part minimum).run.run frame =
      (.error (.refused (.shortBuffer part minimum frame.length)), frame) := by
  change (if frame.length < minimum then
    throw (.refused (.shortBuffer part minimum frame.length)) else pure () :
      Write PUnit).run.run frame = _
  rw [if_pos short]
  rfl

theorem spares_require {part : Part} {minimum : Nat} :
    (require part minimum).Spares head tail := by
  apply spares_frame.bind
  intro frame
  dsimp only
  split
  · exact spares_refused _
  · exact spares_pure ()

theorem run_reach {size : Nat} {frame : Bytes} (inside : size ≤ frame.length) :
    (reach size).run.run frame = (.ok (), frame) := by
  have long : ¬ frame.length < size := Nat.not_lt.mpr inside
  change (if frame.length < size then throw (.fault .outOfBounds) else pure () :
    Write PUnit).run.run frame = _
  rw [if_neg long]
  rfl

theorem sparesIn_reach {size : Nat} {frame : Bytes} (inside : size ≤ frame.length) :
    (reach size).SparesIn head tail frame := by
  constructor
  · rw [run_reach inside]
  · rw [run_reach inside]
  · rw [run_reach inside]
    exact Outcome.faultless_ok ()

theorem spares_reach {size : Nat} (inside : size ≤ head) : (reach size).Spares head tail :=
  fun _ room _ => sparesIn_reach (by omega)

theorem sparesIn_modify {change : Bytes → Bytes} {frame : Bytes}
    (length : (change frame).length = frame.length)
    (middle : (change frame).window head (frame.length - tail - head) =
      frame.window head (frame.length - tail - head)) :
    (modify change : Write PUnit).SparesIn head tail frame :=
  ⟨length, middle, Outcome.faultless_ok PUnit.unit⟩

theorem spares_store {field : HeaderField} {value : Nat} (inside : field.endByte ≤ head) :
    (store field value).Spares head tail := by
  apply (spares_reach inside).bind
  intro _ frame _ _
  apply sparesIn_modify
  · exact Span.length_put _ _ _
  · exact Span.window_put_behind _ _ inside

theorem sparesIn_put {offset : Nat} {data frame : Bytes} (room : head + tail ≤ frame.length)
    (inside : offset + data.length ≤ frame.length)
    (apart : offset + data.length ≤ head ∨ frame.length - tail ≤ offset) :
    (put offset data).SparesIn head tail frame := by
  apply (sparesIn_reach inside).bind
  intro _ after reached _
  have unchanged : frame = after := congrArg Prod.snd ((run_reach inside).symm.trans reached)
  subst unchanged
  apply sparesIn_modify
  · exact Bytes.length_splice _ _ _ inside
  · rcases apart with front | back
    · exact Bytes.window_splice_behind inside front
    · exact Bytes.window_splice_before inside (by omega)

theorem spares_put {offset : Nat} {data : Bytes} (inside : offset + data.length ≤ head) :
    (put offset data).Spares head tail :=
  fun _ room _ => sparesIn_put room (by omega) (.inl inside)

variable {next : Unit → Write β}

theorem spares_demand_bind {condition : Prop} [Decidable condition] {cause : Malformation}
    (rest : (next ()).Spares head tail) : (demand condition cause >>= next).Spares head tail :=
  spares_demand.bind fun _ => rest

theorem spares_require_bind {part : Part} {minimum : Nat} (rest : (next ()).Spares head tail) :
    (require part minimum >>= next).Spares head tail :=
  spares_require.bind fun _ => rest

theorem spares_reach_bind {size : Nat} (inside : size ≤ head)
    (rest : (next ()).Spares head tail) : (reach size >>= next).Spares head tail :=
  (spares_reach inside).bind fun _ => rest

theorem spares_store_bind {field : HeaderField} {value : Nat} (inside : field.endByte ≤ head)
    (rest : (next ()).Spares head tail) : (store field value >>= next).Spares head tail :=
  (spares_store inside).bind fun _ => rest

theorem spares_put_bind {offset : Nat} {data : Bytes} (inside : offset + data.length ≤ head)
    (rest : (next ()).Spares head tail) : (put offset data >>= next).Spares head tail :=
  (spares_put inside).bind fun _ => rest

end Write

end PacketStack
