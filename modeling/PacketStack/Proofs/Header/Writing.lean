import PacketStack.Options

/-!
What a write that succeeds has done to its frame, one law for each of the steps writes are made of.
-/

namespace PacketStack.Write

def Turns {α : Type} (write : Write α) (frame : Bytes) (answer : α) (written : Bytes) : Prop :=
  write.run.run frame = (.ok answer, written)

theorem turns_bind {α β : Type} {write : Write α} {next : α → Write β} {frame written : Bytes}
    {answer : β} :
    (write >>= next).Turns frame answer written ↔
      ∃ value middle, write.Turns frame value middle ∧
        (next value).Turns middle answer written := by
  have bind : (write >>= next).run.run frame =
      match write.run.run frame with
      | (.ok value, middle) => (next value).run.run middle
      | (.error failure, middle) => (.error failure, middle) := by
    simp only [ExceptT.run_bind, StateT.run_bind]
    rcases result : write.run.run frame with ⟨outcome, middle⟩
    cases outcome <;> rfl
  rcases result : write.run.run frame with ⟨outcome, middle⟩
  rw [Turns, bind, result]
  cases outcome with
  | error failure =>
      constructor
      · intro turned
        cases turned
      · intro holds
        rcases holds with ⟨value, next, turned, _⟩
        cases result.symm.trans turned
  | ok value =>
      constructor
      · intro turned
        exact ⟨value, middle, result, turned⟩
      · intro holds
        rcases holds with ⟨other, place, turned, rest⟩
        cases result.symm.trans turned
        exact rest

theorem turns_pure {α : Type} {value answer : α} {frame written : Bytes} :
    (pure value : Write α).Turns frame answer written ↔ answer = value ∧ written = frame := by
  constructor
  · intro turned
    cases turned
    exact ⟨rfl, rfl⟩
  · intro holds
    rcases holds with ⟨rfl, rfl⟩
    rfl

theorem turns_frame {frame answer written : Bytes} :
    Write.frame.Turns frame answer written ↔ answer = frame ∧ written = frame := turns_pure

theorem turns_get {frame answer written : Bytes} :
    (get : Write Bytes).Turns frame answer written ↔ answer = frame ∧ written = frame := turns_pure

theorem turns_modify {change : Bytes → Bytes} {frame written : Bytes} {answer : PUnit} :
    (modify change : Write PUnit).Turns frame answer written ↔ written = change frame := by
  constructor
  · intro turned
    cases turned
    rfl
  · rintro rfl
    rfl

theorem not_turns_throw {α : Type} {failure : Failure} {frame written : Bytes} {answer : α} :
    ¬ (throw failure : Write α).Turns frame answer written := nofun

theorem turns_throw_if {condition : Prop} [Decidable condition] {failure : Failure}
    {frame written : Bytes} {answer : Unit} :
    (if condition then throw failure else pure () : Write Unit).Turns frame answer written ↔
      ¬ condition ∧ written = frame := by
  split
  · rename_i holds
    constructor
    · intro turned
      exact absurd turned not_turns_throw
    · intro turned
      exact absurd holds turned.1
  · rename_i fails
    rw [turns_pure]
    constructor
    · intro turned
      exact ⟨fails, turned.2⟩
    · intro turned
      exact ⟨rfl, turned.2⟩

theorem turns_demand {condition : Prop} [Decidable condition] {cause : Malformation}
    {frame written : Bytes} {answer : Unit} :
    (Write.demand condition cause).Turns frame answer written ↔ condition ∧ written = frame := by
  have refusing : Write.demand condition cause =
      if ¬ condition then throw (.refused (.malformed cause)) else pure () := (ite_not ..).symm
  rw [refusing, turns_throw_if, Decidable.not_not]

theorem turns_require {part : Part} {minimum : Nat} {frame written : Bytes} {answer : Unit} :
    (Write.require part minimum).Turns frame answer written ↔
      minimum ≤ frame.length ∧ written = frame := by
  simp only [Write.require, turns_bind, turns_get, and_assoc, exists_and_left, exists_eq_left]
  exact turns_throw_if.trans (and_congr_left' Nat.not_lt)

theorem turns_reach {size : Nat} {frame written : Bytes} {answer : Unit} :
    (Write.reach size).Turns frame answer written ↔ size ≤ frame.length ∧ written = frame := by
  simp only [Write.reach, turns_bind, turns_get, and_assoc, exists_and_left, exists_eq_left]
  exact turns_throw_if.trans (and_congr_left' Nat.not_lt)

theorem turns_then {step : Write Unit} {next : Unit → Write Unit} {frame middle written : Bytes}
    {answer : Unit} {condition : Prop}
    (law : ∀ done after, step.Turns frame done after ↔ condition ∧ after = middle) :
    (step >>= next).Turns frame answer written ↔
      condition ∧ (next ()).Turns middle answer written := by
  rw [turns_bind]
  constructor
  · intro holds
    rcases holds with ⟨done, after, stepped, turned⟩
    rcases (law done after).mp stepped with ⟨holds, same⟩
    rw [same] at turned
    exact ⟨holds, turned⟩
  · intro both
    rcases both with ⟨holds, turned⟩
    exact ⟨(), middle, (law () middle).mpr ⟨holds, rfl⟩, turned⟩

variable {next : Unit → Write Unit} {frame written : Bytes} {answer : Unit}

theorem turns_demand_bind {condition : Prop} [Decidable condition] {cause : Malformation} :
    (Write.demand condition cause >>= next).Turns frame answer written ↔
      condition ∧ (next ()).Turns frame answer written :=
  turns_then fun _ _ => turns_demand

theorem turns_require_bind {part : Part} {minimum : Nat} :
    (Write.require part minimum >>= next).Turns frame answer written ↔
      minimum ≤ frame.length ∧ (next ()).Turns frame answer written :=
  turns_then fun _ _ => turns_require

theorem turns_reach_bind {size : Nat} :
    (Write.reach size >>= next).Turns frame answer written ↔
      size ≤ frame.length ∧ (next ()).Turns frame answer written :=
  turns_then fun _ _ => turns_reach

theorem turns_store {field : HeaderField} {value : Nat} :
    (Write.store field value).Turns frame answer written ↔
      field.endByte ≤ frame.length ∧ written = field.put value frame :=
  turns_reach_bind.trans (and_congr_right' turns_modify)

theorem turns_put {offset : Nat} {data : Bytes} :
    (Write.put offset data).Turns frame answer written ↔
      offset + data.length ≤ frame.length ∧ written = frame.splice offset data :=
  turns_reach_bind.trans (and_congr_right' turns_modify)

theorem turns_store_bind {field : HeaderField} {value : Nat} :
    (Write.store field value >>= next).Turns frame answer written ↔
      field.endByte ≤ frame.length ∧ (next ()).Turns (field.put value frame) answer written :=
  turns_then fun _ _ => turns_store

theorem turns_put_bind {offset : Nat} {data : Bytes} :
    (Write.put offset data >>= next).Turns frame answer written ↔
      offset + data.length ≤ frame.length ∧
        (next ()).Turns (frame.splice offset data) answer written :=
  turns_then fun _ _ => turns_put

theorem turns_frame_bind {next : Bytes → Write Unit} :
    (Write.frame >>= next).Turns frame answer written ↔
      (next frame).Turns frame answer written := by
  rw [turns_bind]
  constructor
  · intro holds
    rcases holds with ⟨found, middle, read, turned⟩
    rw [(turns_frame.mp read).1, (turns_frame.mp read).2] at turned
    exact turned
  · intro turned
    exact ⟨frame, frame, turns_frame.mpr ⟨rfl, rfl⟩, turned⟩

end PacketStack.Write
