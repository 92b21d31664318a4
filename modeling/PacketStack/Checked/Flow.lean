import PacketStack.Checked.Access
import PacketStack.Reassembly.Flow

/-!
One direction of a connection in which every slice and every difference is checked.

The number of bytes held early is counted along here and not summed up, and the delivery of held
fragments is a loop whose turns are steps of their own.
-/

namespace PacketStack

namespace Flow

/-- What happens to a direction once it has begun. -/
inductive Input where
  | segment (start : UInt32) (data : Bytes)
  /-- The end follows after so many bytes from a sequence number on. -/
  | finish (start : UInt32) (length : Nat)
  | clear
  deriving DecidableEq, Repr

def take (limits : Limits) (flow : Flow) : Input → Flow
  | .segment start data => (flow.receive limits start data).1
  | .finish start length => flow.markFinish start length
  | .clear => flow.clear

def takeAll (limits : Limits) (inputs : List Input) (flow : Flow) : Flow :=
  inputs.foldl (take limits) flow

def startingAt (begun : Option UInt32) : Flow := { empty with expected := begun }

end Flow

/-- A direction with the number of bytes that it holds early. -/
structure CountedFlow where
  flow : Flow
  count : Nat
  deriving DecidableEq, Repr

namespace CountedFlow

def startingAt (begun : Option UInt32) : CountedFlow := ⟨.startingAt begun, 0⟩

def hold (limits : Flow.Limits) (fragment : Fragment) (counted : CountedFlow) :
    Outcome CountedFlow :=
  let held := counted.flow.heldAt fragment.start
  if fragment.data.length ≤ held then return counted
  else do
    let others ← Outcome.minus counted.count held
    let count := others + fragment.data.length
    if limits.maximumBuffered < count then return counted
    else
      let fragments := Flow.insertFragment fragment counted.flow.fragments
      return ⟨{ counted.flow with fragments := fragments }, count⟩

def deliverFragment (limits : Flow.Limits) (next : UInt32) (fragment : Fragment) (flow : Flow) :
    Outcome Flow :=
  if Serial.isAfter (Serial.advance fragment.start fragment.data.length) next then do
    let new ← fragment.data.rest (Serial.distance fragment.start next).toNat
    return flow.deliver limits new
  else return flow

/-- One turn of the delivery of held fragments, unless none is due. -/
def turn (limits : Flow.Limits) (counted : CountedFlow) : Outcome (Option CountedFlow) :=
  match counted.flow.expected with
  | none => return none
  | some next =>
      match counted.flow.fragments.find? (Flow.isDue next) with
      | none => return none
      | some fragment => do
          let count ← Outcome.minus counted.count fragment.data.length
          let fragments := counted.flow.fragments.erase fragment
          let flow ← deliverFragment limits next fragment
            { counted.flow with fragments := fragments }
          return some ⟨flow, count⟩

theorem fragments_of_deliverFragment {limits : Flow.Limits} {next : UInt32} {fragment : Fragment}
    {flow result : Flow} (delivered : deliverFragment limits next fragment flow = .ok result) :
    result.fragments = flow.fragments := by
  unfold deliverFragment at delivered
  split at delivered
  · rcases Outcome.bind_eq_ok.mp delivered with ⟨new, _, same⟩
    cases same
    rfl
  · cases delivered
    rfl

theorem fewer_of_turn {limits : Flow.Limits} {counted next : CountedFlow}
    (turned : counted.turn limits = .ok (some next)) :
    next.flow.fragments.length < counted.flow.fragments.length := by
  unfold turn at turned
  split at turned
  · cases turned
  · split at turned
    · cases turned
    · rename_i fragment found
      rcases Outcome.bind_eq_ok.mp turned with ⟨count, _, turned⟩
      rcases Outcome.bind_eq_ok.mp turned with ⟨flow, delivered, same⟩
      cases same
      have member := List.mem_of_find?_eq_some found
      have shorter := List.length_erase_of_mem member
      have positive := List.length_pos_of_mem member
      rw [fragments_of_deliverFragment delivered]
      simp only
      omega

def drain (limits : Flow.Limits) (counted : CountedFlow) : Outcome CountedFlow :=
  match _turned : counted.turn limits with
  | .error failure => .error failure
  | .ok none => .ok counted
  | .ok (some next) => drain limits next
termination_by counted.flow.fragments.length
decreasing_by exact fewer_of_turn _turned

def receive (limits : Flow.Limits) (start : UInt32) (data : Bytes) (counted : CountedFlow) :
    Outcome (CountedFlow × Bool) :=
  match counted.flow.expected with
  | none => return (counted, false)
  | some expected =>
      if data.isEmpty || !Serial.isAfter (Serial.advance start data.length) expected then
        return (counted, false)
      else if Serial.isAfter start expected then
        return (← counted.hold limits ⟨start, data⟩, false)
      else do
        let new ← data.rest (Flow.overlap expected start)
        let drained ← drain limits ⟨counted.flow.deliver limits new, counted.count⟩
        return (drained, true)

def take (limits : Flow.Limits) (counted : CountedFlow) : Flow.Input → Outcome CountedFlow
  | .segment start data => (counted.receive limits start data).map Prod.fst
  | .finish start length => return ⟨counted.flow.markFinish start length, counted.count⟩
  | .clear => return ⟨counted.flow.clear, counted.count⟩

def takeAll (limits : Flow.Limits) (inputs : List Flow.Input) (counted : CountedFlow) :
    Outcome CountedFlow :=
  inputs.foldlM (take limits) counted

end CountedFlow

end PacketStack
