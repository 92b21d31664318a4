import PacketStack.Frame

/-!
Outcomes without a fault: values, and the refusals that are answers of the library.
-/

namespace PacketStack.Outcome

variable {α β : Type}

def Faultless (outcome : Outcome α) : Prop := ∀ fault, outcome ≠ .error (.fault fault)

theorem faultless_ok (value : α) : Faultless (.ok value) := nofun

theorem faultless_refused (cause : PacketError) :
    Faultless (.error (.refused cause) : Outcome α) := nofun

theorem faultless_malformed (cause : Malformation) : Faultless (malformed cause : Outcome α) :=
  nofun

theorem faultless_demand {condition : Prop} [Decidable condition] {cause : Malformation} :
    (demand condition cause).Faultless := by
  unfold demand
  split
  · exact faultless_ok ()
  · exact faultless_malformed cause

theorem faultless_requireSize {part : Part} {minimum : Nat} {bytes : Bytes} :
    (requireSize part minimum bytes).Faultless := by
  unfold requireSize
  split
  · exact faultless_refused _
  · exact faultless_ok ()

theorem Faultless.error {failure : Failure} (sound : Faultless (.error failure : Outcome α)) :
    Faultless (.error failure : Outcome β) := by
  intro fault same
  cases same
  exact sound fault rfl

theorem Faultless.bind {first : Outcome α} {next : α → Outcome β} (sound : first.Faultless)
    (sounds : ∀ value, first = .ok value → (next value).Faultless) :
    (first >>= next).Faultless := by
  cases first with
  | error failure => exact sound.error
  | ok value => exact sounds value rfl

theorem Faultless.map {outcome : Outcome α} (sound : outcome.Faultless) (change : α → β) :
    Faultless (outcome.map change) := by
  cases outcome with
  | error failure => exact sound.error
  | ok value => exact faultless_ok _

end PacketStack.Outcome
