import PacketStack.Proofs.Reassembly.Slice

/-!
Directions that differ only in which of the delivered bytes they still hold.

Main statements: `Commutes.receive_segment` says when delivered bytes may be changed before a
segment is taken or afterwards, `Alike.receive_segment` that directions which differ in these bytes
take a segment in the same way, also where one keeps delivered bytes and the other does not. So
dropping what was delivered changes nothing of what is delivered afterwards.
-/

namespace PacketStack.Flow

theorem drain_of_unknown {flow : Flow} (unknown : flow.expected = none) :
    flow.drain limits = flow := by
  rw [drain]
  split
  · rfl
  · rename_i known
    cases known.symm.trans unknown

theorem drain_of_none_due {flow : Flow} {next : UInt32} (known : flow.expected = some next)
    (none_due : flow.fragments.find? (isDue next) = none) : flow.drain limits = flow := by
  rw [drain]
  split
  · rfl
  · rename_i again
    cases again.symm.trans known
    split
    · rfl
    · rename_i found
      cases found.symm.trans none_due

theorem drain_of_due {flow : Flow} {next : UInt32} {fragment : Fragment}
    (known : flow.expected = some next)
    (due : flow.fragments.find? (isDue next) = some fragment) :
    flow.drain limits =
      (({ flow with fragments := flow.fragments.erase fragment } : Flow).deliverFragment limits next
        fragment).drain limits := by
  rw [drain]
  split
  · rename_i unknown
    cases unknown.symm.trans known
  · rename_i again
    cases again.symm.trans known
    split
    · rename_i none_due
      cases none_due.symm.trans due
    · rename_i found
      cases found.symm.trans due
      rfl

def Limits.grown (limits : Limits) (payload data : Bytes) : Bytes :=
  if limits.keepsPayload then payload ++ data else payload

def mapPayload (change : Bytes → Bytes) (flow : Flow) : Flow :=
  { flow with payload := change flow.payload }

/-- A change of the delivered bytes may be made before more are delivered, or afterwards. -/
structure Commutes (limits others : Limits) (change : Bytes → Bytes) : Prop where
  room : limits.maximumBuffered = others.maximumBuffered
  grown : ∀ payload data, change (limits.grown payload data) = others.grown (change payload) data

theorem commutes_erase (limits : Limits) :
    Commutes limits ⟨limits.maximumBuffered, false⟩ (fun _ => []) :=
  ⟨rfl, fun _ _ => rfl⟩

theorem commutes_append (maximumBuffered : Nat) (front : Bytes) :
    Commutes ⟨maximumBuffered, true⟩ ⟨maximumBuffered, true⟩ (front ++ ·) :=
  ⟨rfl, fun _ _ => (List.append_assoc _ _ _).symm⟩

variable {limits others : Limits} {change : Bytes → Bytes} {flow : Flow}

theorem mapPayload_self (unchanged : change flow.payload = flow.payload) :
    flow.mapPayload change = flow := by
  rw [mapPayload, unchanged]

theorem clear_mapPayload {next : Bytes → Bytes} {drops again : Bool}
    (same : next (if drops then [] else flow.payload) =
      if again then [] else change flow.payload) :
    (if drops then flow.clear else flow).mapPayload next =
      if again then (flow.mapPayload change).clear else flow.mapPayload change := by
  have put := congrArg (fun payload => ({ flow with payload := payload } : Flow)) same
  cases drops <;> cases again <;> exact put

namespace Commutes

variable (commutes : Commutes limits others change)
include commutes

theorem deliver (data : Bytes) :
    (flow.mapPayload change).deliver others data = (flow.deliver limits data).mapPayload change :=
  congrArg (fun payload => ({ flow with
    payload := payload
    delivered := flow.delivered + data.length
    expected := flow.expected.map (Serial.advance · data.length) } : Flow))
    (commutes.grown flow.payload data).symm

theorem deliverFragment (next : UInt32) (fragment : Fragment) :
    (flow.mapPayload change).deliverFragment others next fragment =
      (flow.deliverFragment limits next fragment).mapPayload change := by
  unfold Flow.deliverFragment
  split
  · exact commutes.deliver _
  · rfl

theorem hold (fragment : Fragment) :
    (flow.mapPayload change).hold others fragment =
      (flow.hold limits fragment).mapPayload change := by
  have held : (flow.mapPayload change).heldAt fragment.start = flow.heldAt fragment.start := rfl
  have buffered : (flow.mapPayload change).buffered = flow.buffered := rfl
  unfold Flow.hold
  rw [held, buffered, ← commutes.room]
  simp only
  split
  · rfl
  · split <;> rfl

theorem drain : (flow.mapPayload change).drain others = (flow.drain limits).mapPayload change := by
  fun_induction Flow.drain limits flow with
  | case1 flow unknown => exact drain_of_unknown unknown
  | case2 flow next known none_due => exact drain_of_none_due known none_due
  | case3 flow next known fragment due rest ih =>
      calc
        (flow.mapPayload change).drain others
          = ((rest.mapPayload change).deliverFragment others next fragment).drain others :=
            drain_of_due known due
        _ = ((rest.deliverFragment limits next fragment).mapPayload change).drain others := by
            rw [commutes.deliverFragment]
        _ = ((rest.deliverFragment limits next fragment).drain limits).mapPayload change := ih

theorem receive (start : UInt32) (data : Bytes) :
    (flow.mapPayload change).receive others start data =
      ((flow.receive limits start data).1.mapPayload change,
        (flow.receive limits start data).2) := by
  have expected : (flow.mapPayload change).expected = flow.expected := rfl
  unfold Flow.receive
  rw [expected]
  split
  · rfl
  · split
    · rfl
    · split
      · exact congrArg (·, false) (commutes.hold _)
      · rw [commutes.deliver, commutes.drain]

theorem receive_segment (tcp : Tcp) (payload : Bytes) :
    Connection.receive others tcp payload (flow.mapPayload change) =
      ((Connection.receive limits tcp payload flow).1.mapPayload change,
        (Connection.receive limits tcp payload flow).2) := by
  unfold Connection.receive
  rw [commutes.receive]
  simp only
  split <;> rfl

end Commutes

/-- The directions differ at most in the delivered bytes that they hold. -/
structure Alike (left right : Flow) : Prop where
  expected : left.expected = right.expected
  fragments : left.fragments = right.fragments
  delivered : left.delivered = right.delivered
  finish : left.finish = right.finish

variable {left right : Flow}

theorem alike_refl (flow : Flow) : flow.Alike flow := ⟨rfl, rfl, rfl, rfl⟩

theorem alike_iff :
    left.Alike right ↔ left.mapPayload (fun _ => []) = right.mapPayload (fun _ => []) := by
  constructor
  · rintro ⟨expected, fragments, delivered, finish⟩
    rw [mapPayload, mapPayload, expected, fragments, delivered, finish]
  · intro same
    rw [mapPayload, mapPayload] at same
    injection same with expected _ fragments delivered finish
    exact ⟨expected, fragments, delivered, finish⟩

theorem Alike.clear (alike : left.Alike right) : left.clear.Alike right :=
  ⟨alike.expected, alike.fragments, alike.delivered, alike.finish⟩

theorem Alike.isFinished_eq (alike : left.Alike right) : left.isFinished = right.isFinished := by
  rw [isFinished, isFinished, alike.finish, alike.expected]

theorem Alike.heldAt_eq (alike : left.Alike right) (start : UInt32) :
    left.heldAt start = right.heldAt start := by
  rw [heldAt, heldAt, alike.fragments]

theorem Alike.buffered_eq (alike : left.Alike right) : left.buffered = right.buffered := by
  rw [buffered, buffered, alike.fragments]

theorem Alike.drops_iff (alike : left.Alike right) (start : UInt32) (data : Bytes) :
    left.Drops limits start data ↔ right.Drops limits start data := by
  rw [Drops, Drops, alike.expected, alike.heldAt_eq, alike.buffered_eq]

theorem Alike.receive_segment (alike : left.Alike right)
    (room : limits.maximumBuffered = others.maximumBuffered) (tcp : Tcp) (payload : Bytes) :
    (Connection.receive limits tcp payload left).1.Alike
        (Connection.receive others tcp payload right).1 ∧
      (Connection.receive limits tcp payload left).2 =
        (Connection.receive others tcp payload right).2 := by
  have same :=
    calc ((Connection.receive limits tcp payload left).1.mapPayload (fun _ => []),
          (Connection.receive limits tcp payload left).2)
      _ = Connection.receive ⟨limits.maximumBuffered, false⟩ tcp payload
            (left.mapPayload fun _ => []) :=
          ((commutes_erase limits).receive_segment tcp payload).symm
      _ = Connection.receive ⟨others.maximumBuffered, false⟩ tcp payload
            (right.mapPayload fun _ => []) := by rw [alike_iff.mp alike, room]
      _ = ((Connection.receive others tcp payload right).1.mapPayload (fun _ => []),
            (Connection.receive others tcp payload right).2) :=
          (commutes_erase others).receive_segment tcp payload
  rcases Prod.mk.inj same with ⟨flows, told⟩
  exact ⟨alike_iff.mpr flows, told⟩

end PacketStack.Flow
