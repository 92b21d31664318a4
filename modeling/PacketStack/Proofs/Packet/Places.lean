import PacketStack.Packet

/-!
Where a packet is found and changed.

Main statements: `exists_front_of_find?` says that the packet which starts with the first layer of a
kind is found behind layers of other kinds, and that a change of it leaves these as they are;
`find?_of_front` that no other packet is found.
-/

namespace PacketStack.Packet

variable {kind : Kind} {packet found : Packet}

theorem toList_injective {first second : Packet} (same : first.toList = second.toList) :
    first = second := by
  induction first generalizing second with
  | single layer =>
      cases second with
      | single other => exact congrArg Packet.single (List.cons.inj same).1
      | «over» other inner => exact absurd (List.cons.inj same).2.symm inner.toList_ne_nil
  | «over» layer inner ih =>
      cases second with
      | single other => exact absurd (List.cons.inj same).2 inner.toList_ne_nil
      | «over» other content =>
          rcases List.cons.inj same with ⟨rfl, rest⟩
          rw [ih rest]

theorem exists_front_of_find? (search : packet.find? kind = some found) :
    ∃ front : List Layer, (∀ layer ∈ front, layer.kind ≠ kind) ∧
      packet.toList = front ++ found.toList ∧
      ∀ change : Packet → Packet, ∃ changed, packet.modify? kind change = some changed ∧
        changed.toList = front ++ (change found).toList := by
  -- On the layers before the first one of the kind.
  induction packet with
  | single layer =>
      unfold find? at search
      split at search
      · rename_i same
        cases search
        refine ⟨[], nofun, rfl, fun change => ⟨change (.single layer), ?_, rfl⟩⟩
        exact if_pos same
      · cases search
  | «over» layer inner ih =>
      unfold find? at search
      split at search
      · rename_i same
        cases search
        refine ⟨[], nofun, rfl, fun change => ⟨change (.over layer inner), ?_, rfl⟩⟩
        exact if_pos same
      · rename_i different
        rcases ih search with ⟨front, others, place, changes⟩
        refine ⟨layer :: front, ?_, congrArg (layer :: ·) place, ?_⟩
        · intro outer member
          rcases List.mem_cons.mp member with rfl | inside
          · exact different
          · exact others outer inside
        · intro change
          rcases changes change with ⟨changed, result, list⟩
          refine ⟨.over layer changed, ?_, congrArg (layer :: ·) list⟩
          rw [modify?, if_neg different, result]
          rfl

theorem find?_of_kind (same : packet.kind = kind) : packet.find? kind = some packet := by
  cases packet with
  | single layer => exact if_pos same
  | «over» layer inner => exact if_pos same

theorem find?_over_of_ne {layer : Layer} (different : layer.kind ≠ kind) (inner : Packet) :
    (Packet.over layer inner).find? kind = inner.find? kind := if_neg different

theorem kind_of_find? (search : packet.find? kind = some found) : found.kind = kind := by
  induction packet with
  | single layer =>
      unfold find? at search
      split at search
      · rename_i same
        cases search
        exact same
      · cases search
  | «over» layer inner ih =>
      unfold find? at search
      split at search
      · rename_i same
        cases search
        exact same
      · exact ih search

theorem find?_of_front {front : List Layer} (place : packet.toList = front ++ found.toList)
    (others : ∀ layer ∈ front, layer.kind ≠ kind) (starts : found.kind = kind) :
    packet.find? kind = some found := by
  induction front generalizing packet with
  | nil =>
      rw [toList_injective place]
      exact find?_of_kind starts
  | cons first front ih =>
      cases packet with
      | single layer =>
          have nothing := (List.cons.inj place).2
          exact absurd (List.append_eq_nil_iff.mp nothing.symm).2 found.toList_ne_nil
      | «over» layer inner =>
          rcases List.cons.inj place with ⟨rfl, rest⟩
          rw [find?_over_of_ne (others _ List.mem_cons_self)]
          exact ih rest fun layer member => others layer (List.mem_cons_of_mem _ member)

end PacketStack.Packet
