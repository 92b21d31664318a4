import Mathlib.Logic.ExistsUnique
import PacketStack.Proofs.Packet.Assembly
import PacketStack.Proofs.Packet.Places

/-!
A packet as the list of its layers.

Main statement: `acts_as_list` says what each operation on packets does to that list, and that a
list of at least one layer is the list of just one packet.
-/

namespace PacketStack

/-- The longest end of a list that starts with a layer of a kind. -/
structure LongestFrom (kind : Kind) (layers found : List Layer) : Prop where
  suffix : found <:+ layers
  starts : found.head?.map Layer.kind = some kind
  longest : ∀ other, other <:+ layers → other.head?.map Layer.kind = some kind → other <:+ found

theorem longestFrom_iff {kind : Kind} {layers found : List Layer} :
    LongestFrom kind layers found ↔
      found.head?.map Layer.kind = some kind ∧
        ∃ front, layers = front ++ found ∧ ∀ layer ∈ front, layer.kind ≠ kind := by
  constructor
  · intro best
    rcases best.suffix with ⟨front, rfl⟩
    refine ⟨best.starts, front, rfl, ?_⟩
    rintro layer member rfl
    rcases List.append_of_mem member with ⟨before, behind, rfl⟩
    have larger : layer :: (behind ++ found) <:+ before ++ layer :: behind ++ found :=
      ⟨before, by simp⟩
    have short := (best.longest _ larger rfl).length_le
    simp only [List.length_cons, List.length_append] at short
    omega
  · rintro ⟨starts, front, rfl, others⟩
    refine ⟨List.suffix_append front found, starts, ?_⟩
    intro other part begins
    rcases List.suffix_or_suffix_of_suffix part (List.suffix_append front found) with
      inside | ⟨middle, rfl⟩
    · exact inside
    · cases middle with
      | nil => exact List.suffix_rfl
      | cons first middle =>
          have ends : first :: middle <:+ front :=
            ((List.suffix_append_inj_of_length_eq rfl).mp part).1
          exact absurd (Option.some.inj begins) (others first (ends.subset List.mem_cons_self))

namespace Packet

variable {kind : Kind} {packet found changed : Packet}

theorem toList_eq_cons (packet : Packet) :
    packet.toList = packet.layer :: ((packet.inner?.map toList).getD []) := by
  cases packet <;> rfl

@[simp] theorem head?_toList (packet : Packet) :
    packet.toList.head?.map Layer.kind = some packet.kind := by
  cases packet <;> rfl

@[simp] theorem toList_push (packet more : Packet) :
    (packet.push more).toList = packet.toList ++ more.toList := by
  induction packet with
  | single layer => rfl
  | «over» layer inner ih => exact congrArg (layer :: ·) ih

theorem find?_eq_some_iff :
    packet.find? kind = some found ↔ LongestFrom kind packet.toList found.toList := by
  rw [longestFrom_iff, head?_toList]
  constructor
  · intro search
    rcases exists_front_of_find? search with ⟨front, others, place, _⟩
    exact ⟨congrArg some (kind_of_find? search), front, place, others⟩
  · rintro ⟨starts, front, place, others⟩
    exact find?_of_front place others (Option.some.inj starts)

theorem find?_nodes (kind : Kind) (packet : Packet) :
    packet.nodes.find? (fun node => node.kind = kind) = packet.find? kind := by
  have next (outer : Packet) (rest : List Packet) :
      (outer :: rest).find? (fun node => node.kind = kind) =
        if outer.kind = kind then some outer else rest.find? (fun node => node.kind = kind) := by
    by_cases same : outer.kind = kind
    · simp [same]
    · simp [same]
  induction packet with
  | single layer => exact next (.single layer) []
  | «over» layer inner ih => exact (next (.over layer inner) inner.nodes).trans (by rw [ih]; rfl)

theorem findLayer?_eq (kind : Kind) (packet : Packet) :
    packet.findLayer? kind = packet.toList.find? (fun layer => layer.kind = kind) := by
  induction packet with
  | single layer =>
      by_cases same : layer.kind = kind
      · simp [findLayer?, find?, toList, Packet.layer, same]
      · simp [findLayer?, find?, toList, same]
  | «over» layer inner ih =>
      by_cases same : layer.kind = kind
      · simp [findLayer?, find?, toList, Packet.layer, same]
      · simpa [findLayer?, find?, toList, same] using ih

theorem modify?_eq_none {change : Packet → Packet} (search : packet.find? kind = none) :
    packet.modify? kind change = none := by
  induction packet with
  | single layer =>
      unfold find? at search
      split at search
      · cases search
      · rename_i different
        exact if_neg different
  | «over» layer inner ih =>
      unfold find? at search
      split at search
      · cases search
      · rename_i different
        rw [modify?, if_neg different, ih search]
        rfl

theorem modify?_eq_some_iff {change : Packet → Packet} :
    packet.modify? kind change = some changed ↔
      ∃ front found, packet.find? kind = some found ∧ packet.toList = front ++ found.toList ∧
        changed.toList = front ++ (change found).toList := by
  cases search : packet.find? kind with
  | none => simp [modify?_eq_none search]
  | some found =>
      rcases exists_front_of_find? search with ⟨front, _, place, changes⟩
      rcases changes change with ⟨after, result, list⟩
      rw [result]
      constructor
      · intro same
        cases same
        exact ⟨front, found, rfl, place, list⟩
      · rintro ⟨other, again, same, position, written⟩
        cases same
        have start : front = other := List.append_cancel_right (place.symm.trans position)
        rw [← start, ← list] at written
        exact congrArg some (toList_injective written.symm)

theorem toList_setLayer (layer : Layer) (packet : Packet) :
    (packet.setLayer layer).toList = layer :: packet.toList.drop 1 := by
  cases packet <;> rfl

theorem modify?_layer_eq_some_iff {change : Layer → Layer} :
    packet.modify? kind (fun found => found.setLayer (change found.layer)) = some changed ↔
      ∃ front layer rest, packet.toList = front ++ layer :: rest ∧ layer.kind = kind ∧
        (∀ other ∈ front, other.kind ≠ kind) ∧ changed.toList = front ++ change layer :: rest := by
  rw [modify?_eq_some_iff]
  constructor
  · rintro ⟨front, found, search, place, written⟩
    rcases exists_front_of_find? search with ⟨other, others, position, _⟩
    have start : front = other := List.append_cancel_right (place.symm.trans position)
    rw [toList_setLayer] at written
    rw [toList_eq_cons found] at place written
    exact ⟨front, found.layer, _, place, kind_of_find? search, start ▸ others, written⟩
  · rintro ⟨front, layer, rest, place, starts, others, written⟩
    obtain ⟨found, list⟩ : ∃ found : Packet, found.toList = layer :: rest :=
      ⟨ofList layer rest, toList_ofList layer rest⟩
    have outermost : found.layer = layer := by
      rw [toList_eq_cons] at list
      exact (List.cons.inj list).1
    have position : packet.toList = front ++ found.toList := by rw [place, list]
    have search : packet.find? kind = some found :=
      find?_of_front position others ((congrArg Layer.kind outermost).trans starts)
    refine ⟨front, found, search, position, ?_⟩
    rw [written, toList_setLayer, outermost, list]
    rfl

theorem layer_eq_of_append {rest : List Layer} (place : packet.toList = found.toList ++ rest) :
    found.layer = packet.layer := by
  rw [toList_eq_cons packet, toList_eq_cons found] at place
  exact (List.cons.inj place).1.symm

theorem forall_kind_ne (head : packet.kind ≠ kind)
    (others : ∀ layer ∈ packet.toList.drop 1, layer.kind ≠ kind) :
    ∀ layer ∈ packet.toList, layer.kind ≠ kind := by
  rw [toList_eq_cons] at others ⊢
  exact List.forall_mem_cons.mpr ⟨head, others⟩

theorem takeInner_cases (kind : Kind) (packet : Packet) :
    (∃ taken kept, packet.takeInner kind = (some taken, kept) ∧
      packet.toList = kept.toList ++ taken.toList ∧ taken.kind = kind ∧
        ∀ layer ∈ kept.toList.drop 1, layer.kind ≠ kind) ∨
    packet.takeInner kind = (none, packet) ∧
      ∀ layer ∈ packet.toList.drop 1, layer.kind ≠ kind := by
  induction packet with
  | single layer => exact .inr ⟨rfl, nofun⟩
  | «over» layer inner ih =>
      by_cases same : inner.kind = kind
      · exact .inl ⟨inner, .single layer, if_pos same, rfl, same, nofun⟩
      · -- The outermost layer inside counts here, unlike in the induction hypothesis.
        rcases ih with ⟨taken, kept, result, place, starts, others⟩ | ⟨result, others⟩
        · have head : kept.kind ≠ kind := by rwa [Packet.kind, layer_eq_of_append place]
          refine .inl ⟨taken, .over layer kept, ?_, congrArg (layer :: ·) place, starts,
            forall_kind_ne head others⟩
          rw [takeInner, if_neg same, result]
        · refine .inr ⟨?_, forall_kind_ne same others⟩
          rw [takeInner, if_neg same, result]

theorem totalSize_eq (packet : Packet) :
    packet.totalSize =
      sizeSum (fun node => node.layer.headerSize + node.trailerSize) packet.nodes := by
  induction packet with
  | single layer => rfl
  | «over» layer inner ih =>
      change layer.headerSize + inner.totalSize + layer.trailerSize inner.totalSize =
        layer.headerSize + layer.trailerSize inner.totalSize + sizeSum _ inner.nodes
      rw [← ih]
      omega

theorem map_layer_nodes (packet : Packet) : packet.nodes.map layer = packet.toList := by
  induction packet with
  | single layer => rfl
  | «over» layer inner ih => exact congrArg (layer :: ·) ih

/-- What every operation on a packet does to the list of its layers. -/
structure ActsAsList (packet : Packet) : Prop where
  push : ∀ more, (packet.push more).toList = packet.toList ++ more.toList
  div : ∀ layer : Layer, (packet / layer).toList = packet.toList ++ [layer]
  setInner : ∀ inner, (packet.setInner inner).toList = packet.toList.take 1 ++ inner.toList
  release : (packet.release.1.map toList).getD [] = packet.toList.drop 1 ∧
    packet.release.2.toList = packet.toList.take 1
  find : ∀ kind found,
    packet.find? kind = some found ↔ LongestFrom kind packet.toList found.toList
  findNode : ∀ kind, packet.nodes.find? (fun node => node.kind = kind) = packet.find? kind
  findLayer : ∀ kind,
    packet.findLayer? kind = packet.toList.find? (fun layer => layer.kind = kind)
  /-- A change of the found packet. -/
  modify : ∀ kind change changed, packet.modify? kind change = some changed ↔
    ∃ front found, packet.find? kind = some found ∧ packet.toList = front ++ found.toList ∧
      changed.toList = front ++ (change found).toList
  /-- A change of the found layer alone. -/
  edit : ∀ kind (change : Layer → Layer) changed,
    packet.modify? kind (fun found => found.setLayer (change found.layer)) = some changed ↔
      ∃ front layer rest, packet.toList = front ++ layer :: rest ∧ layer.kind = kind ∧
        (∀ other ∈ front, other.kind ≠ kind) ∧ changed.toList = front ++ change layer :: rest
  takeInner : ∀ kind,
    (∃ taken kept, packet.takeInner kind = (some taken, kept) ∧
      packet.toList = kept.toList ++ taken.toList ∧ taken.kind = kind ∧
        ∀ layer ∈ kept.toList.drop 1, layer.kind ≠ kind) ∨
    packet.takeInner kind = (none, packet) ∧
      ∀ layer ∈ packet.toList.drop 1, layer.kind ≠ kind
  nodes : packet.nodes.map layer = packet.toList
  totalSize : packet.totalSize = sizeSum (fun node => node.layer.headerSize +
    node.layer.trailerSize ((node.inner?.map Packet.totalSize).getD 0)) packet.nodes
  measure : packet.measure = narrow packet.totalSize

/-- Packets are the lists of at least one layer, and every operation acts on these lists. -/
theorem acts_as_list :
    (∀ head rest, ∃! packet : Packet, packet.toList = head :: rest) ∧
      (∀ packet : Packet, packet.ActsAsList) ∧
      ∀ outer layer : Layer, (outer / layer : Packet).toList = [outer, layer] := by
  refine ⟨?_, ?_, fun _ _ => rfl⟩
  · intro head rest
    refine ⟨ofList head rest, toList_ofList head rest, fun other list => ?_⟩
    exact toList_injective (list.trans (toList_ofList head rest).symm)
  · intro packet
    constructor
    case push => exact packet.toList_push
    case div => exact fun layer => packet.toList_push (.single layer)
    case setInner => cases packet <;> exact fun _ => rfl
    case release => cases packet <;> exact ⟨rfl, rfl⟩
    case find => exact fun _ _ => find?_eq_some_iff
    case findNode => exact fun kind => find?_nodes kind packet
    case findLayer => exact fun kind => findLayer?_eq kind packet
    case modify => exact fun _ _ _ => modify?_eq_some_iff
    case edit => exact fun _ _ _ => modify?_layer_eq_some_iff
    case takeInner => exact fun kind => takeInner_cases kind packet
    case nodes => exact map_layer_nodes packet
    case totalSize => exact totalSize_eq packet
    case measure => exact measure_eq packet

end Packet

end PacketStack
