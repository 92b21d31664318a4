import Mathlib.Data.List.Nodup
import PacketStack.Proofs.Packet.Places
import PacketStack.Proofs.Reassembly.Parts

/-!
What a reassembler holds and what it makes of packets.

`Reassembler.Step` lists what a packet can do. `fragmentsSince` is what has arrived of a datagram
since it was last not held. Main statement: `held_and_restored` says after calls of any kind what is
held, and for each further packet what is answered, what it is answered from and what is lost.
-/

namespace PacketStack

/-- The packet differs from another one in its first IPv4 header only, which no longer tells of a
fragment, and in what is inside of it. -/
def Packet.Restores (changed packet : Packet) (ip : Ipv4) (inner : Packet) : Prop :=
  ∃ front old : List Layer, (∀ layer ∈ front, layer.kind ≠ .ipv4) ∧
    packet.toList = front ++ .ipv4 ip :: old ∧
    changed.toList = front ++ .ipv4 { ip with flagsAndFragmentOffset := 0 } :: inner.toList

/-- What the bytes of a datagram of a protocol are read as. -/
def IpProtocol.Reads (protocol : IpProtocol) (bytes : Bytes) (inner : Packet) : Prop :=
  match protocol.kind? with
  | some kind => Packet.parse kind bytes = .ok inner
  | none => inner = .raw bytes

def DatagramFragment.of (ip : Ipv4) (payload : Bytes) : DatagramFragment :=
  ⟨⟨8 * ip.fragmentOffset.toNat, payload⟩, !ip.moreFragments⟩

namespace Reassembler

variable {reassembler : Reassembler} {packet : Packet} {ip : Ipv4} {payload : Bytes}
variable {key other : DatagramKey}

theorem parsePayload?_eq_some_iff {protocol : IpProtocol} {bytes : Bytes} {inner : Packet} :
    parsePayload? protocol bytes = some inner ↔ protocol.Reads bytes inner := by
  unfold parsePayload? IpProtocol.Reads
  cases protocol.kind? with
  | none => simp [eq_comm]
  | some kind => exact Outcome.value?_eq_some_iff

theorem find?_of_fragment? (read : fragment? packet = some (ip, payload)) :
    ∃ inner, packet.find? .ipv4 = some (.over (.ipv4 ip) inner) ∧ inner.layer = .raw ⟨payload⟩ ∧
      ip.isFragmented = true ∧ payload ≠ [] := by
  unfold fragment? at read
  split at read
  · rename_i found inner search
    split at read
    · rename_i raw content
      split at read
      · rename_i fits
        cases read
        simp only [Bool.and_eq_true, Bool.not_eq_true', List.isEmpty_eq_false_iff] at fits
        exact ⟨inner, search, content, fits⟩
      · cases read
    · cases read
  · cases read

theorem exists_restored (read : fragment? packet = some (ip, payload)) (inner : Packet) :
    ∃ changed, (packet.modify? .ipv4 fun _ => restore ip inner) = some changed ∧
      changed.Restores packet ip inner := by
  rcases find?_of_fragment? read with ⟨old, search, _⟩
  rcases Packet.exists_front_of_find? search with ⟨front, others, place, changes⟩
  rcases changes fun _ => restore ip inner with ⟨changed, result, list⟩
  exact ⟨changed, result, front, old.toList, others, place, list⟩

def held (reassembler : Reassembler) (key : DatagramKey) : Datagram :=
  (reassembler.datagrams.get? key).getD .empty

def gathered (reassembler : Reassembler) (ip : Ipv4) (payload : Bytes) : Datagram :=
  (reassembler.held (keyOf ip)).take (.of ip payload)

/-- What becomes of a reassembler with a packet, of the packet, and the answer. -/
inductive Step (reassembler : Reassembler) (packet : Packet) :
    Reassembler × Packet × FragmentStatus → Prop
  | whole (unread : fragment? packet = none) :
      Step reassembler packet (reassembler, packet, .whole)
  | kept {ip : Ipv4} {payload : Bytes} (read : fragment? packet = some (ip, payload))
      (incomplete : (reassembler.gathered ip payload).isComplete = false) :
      Step reassembler packet
        ({ reassembler with
          datagrams := (reassembler.makeRoom (keyOf ip)).set (keyOf ip)
            (reassembler.gathered ip payload) }, packet, .fragment)
  | dropped {ip : Ipv4} {payload : Bytes} (read : fragment? packet = some (ip, payload))
      (complete : (reassembler.gathered ip payload).isComplete = true)
      (useless : ∀ bytes inner, (reassembler.gathered ip payload).join? = some bytes →
        ¬ ip.protocol.Reads bytes inner) :
      Step reassembler packet
        ({ reassembler with datagrams := (reassembler.makeRoom (keyOf ip)).erase (keyOf ip) },
          packet, .fragment)
  | reassembled {ip : Ipv4} {payload bytes : Bytes} {inner changed : Packet}
      (read : fragment? packet = some (ip, payload))
      (complete : (reassembler.gathered ip payload).isComplete = true)
      (joined : (reassembler.gathered ip payload).join? = some bytes)
      (reads : ip.protocol.Reads bytes inner) (restores : changed.Restores packet ip inner) :
      Step reassembler packet
        ({ reassembler with datagrams := (reassembler.makeRoom (keyOf ip)).erase (keyOf ip) },
          changed, .reassembled)

theorem get?_makeRoom_self (reassembler : Reassembler) (key : DatagramKey) :
    (reassembler.makeRoom key).get? key = reassembler.datagrams.get? key := by
  unfold makeRoom
  split
  · rename_i full
    have absent : reassembler.datagrams.contains key = false := by simpa using full.1
    have missing : reassembler.datagrams.get? key = none := by
      simpa [Table.contains] using absent
    rw [missing]
    cases entries : reassembler.datagrams with
    | nil => rfl
    | cons first rest =>
        rw [entries, Table.get?] at missing
        split at missing
        · cases missing
        · exact missing
  · rfl

theorem step_process (reassembler : Reassembler) (packet : Packet) :
    Step reassembler packet (reassembler.process packet) := by
  unfold process
  cases read : fragment? packet with
  | none => exact .whole read
  | some found =>
      rcases found with ⟨ip, payload⟩
      have same : (((reassembler.makeRoom (keyOf ip)).get? (keyOf ip)).getD .empty).add
          ⟨8 * ip.fragmentOffset.toNat, payload⟩ (!ip.moreFragments) =
            reassembler.gathered ip payload := by
        rw [get?_makeRoom_self]
        rfl
      simp only [same]
      cases complete : (reassembler.gathered ip payload).isComplete with
      | false => exact .kept read complete
      | true =>
          simp only [if_true]
          cases useful : (reassembler.gathered ip payload).join?.bind
              (parsePayload? ip.protocol) with
          | none =>
              refine .dropped read complete fun bytes inner joined reads => ?_
              rw [joined, Option.bind_some, parsePayload?_eq_some_iff.mpr reads] at useful
              cases useful
          | some inner =>
              rcases Option.bind_eq_some_iff.mp useful with ⟨bytes, joined, parsed⟩
              rcases exists_restored read inner with ⟨changed, result, restores⟩
              simp only [result, Option.getD_some]
              exact .reassembled read complete joined (parsePayload?_eq_some_iff.mp parsed)
                restores

theorem process_of_incomplete (read : fragment? packet = some (ip, payload))
    (incomplete : (reassembler.gathered ip payload).isComplete = false) :
    reassembler.process packet =
      ({ reassembler with
        datagrams := (reassembler.makeRoom (keyOf ip)).set (keyOf ip)
          (reassembler.gathered ip payload) }, packet, .fragment) := by
  have step := step_process reassembler packet
  generalize reassembler.process packet = result at step
  cases step with
  | whole unread =>
      rw [unread] at read
      cases read
  | kept found _ =>
      rw [found] at read
      cases read
      rfl
  | dropped found complete _ =>
      rw [found] at read
      cases read
      rw [incomplete] at complete
      cases complete
  | reassembled found complete _ _ _ =>
      rw [found] at read
      cases read
      rw [incomplete] at complete
      cases complete

theorem process_of_complete (read : fragment? packet = some (ip, payload))
    (complete : (reassembler.gathered ip payload).isComplete = true) {bytes : Bytes}
    (joined : (reassembler.gathered ip payload).join? = some bytes) :
    (reassembler.process packet).1.datagrams.contains (keyOf ip) = false ∧
      (∀ content, ip.protocol.Reads bytes content →
        (reassembler.process packet).2.2 = .reassembled ∧
          (reassembler.process packet).2.1.Restores packet ip content) ∧
      ((∀ content, ¬ ip.protocol.Reads bytes content) →
        (reassembler.process packet).2 = (packet, .fragment)) := by
  have step := step_process reassembler packet
  generalize reassembler.process packet = result at step ⊢
  cases step with
  | whole unread =>
      rw [unread] at read
      cases read
  | kept found incomplete =>
      rw [found] at read
      cases read
      rw [incomplete] at complete
      cases complete
  | dropped found _ useless =>
      rw [found] at read
      cases read
      exact ⟨by simp [Table.contains_erase],
        fun content reads => absurd reads (useless bytes content joined), fun _ => rfl⟩
  | @reassembled _ _ own inner changed found _ ownJoined reads restores =>
      rw [found] at read
      cases read
      rw [joined, Option.some.injEq] at ownJoined
      subst ownJoined
      refine ⟨by simp [Table.contains_erase], ?_, fun useless => absurd reads (useless inner)⟩
      intro content also
      have same : inner = content := by
        rw [← parsePayload?_eq_some_iff] at reads also
        rwa [reads, Option.some.injEq] at also
      exact ⟨rfl, same ▸ restores⟩

/-- What a reassembler may be asked. -/
inductive Call where
  | process (packet : Packet)
  | remove (identification : UInt16) (left right : Ipv4Address)
  | clear

def call (reassembler : Reassembler) : Call → Reassembler
  | .process packet => (reassembler.process packet).1
  | .remove identification left right => reassembler.remove identification left right
  | .clear => reassembler.clear

def callAll (reassembler : Reassembler) (calls : List Call) : Reassembler :=
  calls.foldl call reassembler

/-- The fragment of a datagram that comes with a call. -/
def Call.fragment? (key : DatagramKey) : Call → Option DatagramFragment
  | .process packet =>
      match Reassembler.fragment? packet with
      | some (ip, payload) => if keyOf ip = key then some (.of ip payload) else none
      | none => none
  | _ => none

/-- The calls since a datagram was last not held, which it is not before the first one. -/
def callsSince (reassembler : Reassembler) (key : DatagramKey) (calls : List Call) : List Call :=
  (calls.foldl (fun (current, since) next =>
    (current.call next,
      if (current.call next).datagrams.contains key then since ++ [next] else []))
    (reassembler, [])).2

/-- The fragments of a datagram that have arrived since it was last not held. -/
def fragmentsSince (reassembler : Reassembler) (key : DatagramKey) (calls : List Call) :
    List DatagramFragment :=
  (reassembler.callsSince key calls).filterMap (Call.fragment? key)

variable {calls : List Call} {next : Call}

theorem callAll_append (reassembler : Reassembler) (calls : List Call) (next : Call) :
    reassembler.callAll (calls ++ [next]) = (reassembler.callAll calls).call next := by
  rw [callAll, List.foldl_append]
  rfl

theorem callsSince_append (reassembler : Reassembler) (key : DatagramKey) (calls : List Call)
    (next : Call) :
    reassembler.callsSince key (calls ++ [next]) =
      if (reassembler.callAll (calls ++ [next])).datagrams.contains key then
        reassembler.callsSince key calls ++ [next]
      else [] := by
  have current : (calls.foldl (fun (current, since) next =>
      (current.call next,
        if (current.call next).datagrams.contains key then since ++ [next] else []))
      (reassembler, ([] : List Call))).1 = reassembler.callAll calls := by
    induction calls using List.reverseRecOn with
    | nil => rfl
    | append_singleton calls last ih =>
        rw [List.foldl_append, callAll_append, ← ih]
        rfl
  rw [callsSince, List.foldl_append, callAll_append, ← current]
  rfl

/-- What is known of a reassembler at any time. -/
structure Sound (reassembler : Reassembler) : Prop where
  capacity : 1 ≤ reassembler.capacity
  room : reassembler.datagrams.length ≤ reassembler.capacity
  distinct : reassembler.datagrams.keys.Nodup
  incomplete : ∀ entry ∈ reassembler.datagrams, entry.2.isComplete = false

theorem sound_new (capacity : Nat) : (new capacity).Sound where
  capacity := Nat.le_max_right _ _
  room := Nat.zero_le _
  distinct := .nil
  incomplete _ member := absurd member List.not_mem_nil

theorem sublist_makeRoom (reassembler : Reassembler) (key : DatagramKey) :
    (reassembler.makeRoom key).Sublist reassembler.datagrams := by
  unfold makeRoom
  split
  · exact List.drop_sublist _ _
  · exact List.Sublist.refl _

theorem contains_makeRoom_self (reassembler : Reassembler) (key : DatagramKey) :
    (reassembler.makeRoom key).contains key = reassembler.datagrams.contains key :=
  congrArg Option.isSome (get?_makeRoom_self reassembler key)

theorem Sound.makeRoom (sound : reassembler.Sound)
    (absent : reassembler.datagrams.contains key = false) :
    (reassembler.makeRoom key).length < reassembler.capacity := by
  have capacity := sound.capacity
  have room := sound.room
  unfold Reassembler.makeRoom
  split
  · rw [List.length_drop]
    omega
  · rename_i free
    rw [absent] at free
    simpa using free

def evicted? (reassembler : Reassembler) (packet : Packet) : Option DatagramKey :=
  match fragment? packet with
  | none => none
  | some (ip, _) =>
      if !reassembler.datagrams.contains (keyOf ip) ∧
          reassembler.capacity ≤ reassembler.datagrams.length then
        reassembler.datagrams.keys.head?
      else none

theorem Sound.get?_makeRoom (sound : reassembler.Sound)
    (read : fragment? packet = some (ip, payload)) (other : DatagramKey) :
    (reassembler.makeRoom (keyOf ip)).get? other =
      if reassembler.evicted? packet = some other then none
      else reassembler.datagrams.get? other := by
  unfold Reassembler.makeRoom evicted?
  rw [read]
  simp only
  split
  · exact Table.get?_drop_one sound.distinct other
  · rfl

theorem Sound.set (sound : reassembler.Sound) {datagram : Datagram}
    (incomplete : datagram.isComplete = false) (key : DatagramKey) :
    Sound { reassembler with datagrams := (reassembler.makeRoom key).set key datagram } := by
  have held := sublist_makeRoom reassembler key
  have keys := held.map Prod.fst
  refine ⟨sound.capacity, ?_, ?_, ?_⟩
  · have room := sound.room
    simp only [← Table.length_keys, Table.keys_set] at room ⊢
    split
    · exact Nat.le_trans keys.length_le room
    · rename_i new
      rw [← Table.contains_eq_true_iff, contains_makeRoom_self, Bool.not_eq_true] at new
      rw [List.length_append, List.length_singleton, Table.length_keys]
      exact sound.makeRoom new
  · simp only [Table.keys_set]
    split
    · exact sound.distinct.sublist keys
    · rename_i new
      refine List.nodup_append.mpr ⟨sound.distinct.sublist keys, List.nodup_singleton _, ?_⟩
      rintro other member _ single rfl
      exact new (List.mem_singleton.mp single ▸ member)
  · intro entry member
    rcases Table.mem_set member with rfl | old
    · exact incomplete
    · exact sound.incomplete entry (held.subset old)

theorem Sound.sublist (sound : reassembler.Sound) {datagrams : Table DatagramKey Datagram}
    (fewer : datagrams.Sublist reassembler.datagrams) :
    Sound { reassembler with datagrams := datagrams } where
  capacity := sound.capacity
  room := Nat.le_trans fewer.length_le sound.room
  distinct := sound.distinct.sublist (fewer.map Prod.fst)
  incomplete entry member := sound.incomplete entry (fewer.subset member)

theorem Sound.step (sound : reassembler.Sound) {result : Reassembler × Packet × FragmentStatus}
    (step : Step reassembler packet result) : result.1.Sound := by
  cases step with
  | whole _ => exact sound
  | kept _ incomplete => exact sound.set incomplete _
  | dropped _ _ _ => exact sound.sublist (List.filter_sublist.trans (sublist_makeRoom _ _))
  | reassembled _ _ _ _ _ => exact sound.sublist (List.filter_sublist.trans (sublist_makeRoom _ _))

theorem Sound.call (sound : reassembler.Sound) (next : Call) : (reassembler.call next).Sound := by
  cases next with
  | process packet => exact sound.step (step_process reassembler packet)
  | remove _ _ _ => exact sound.sublist List.filter_sublist
  | clear => exact sound.sublist (List.nil_sublist _)

theorem Sound.callAll (sound : reassembler.Sound) (calls : List Call) :
    (reassembler.callAll calls).Sound := by
  induction calls using List.reverseRecOn with
  | nil => exact sound
  | append_singleton calls next ih =>
      rw [callAll_append]
      exact ih.call next

theorem capacity_callAll (reassembler : Reassembler) (calls : List Call) :
    (reassembler.callAll calls).capacity = reassembler.capacity := by
  induction calls using List.reverseRecOn with
  | nil => rfl
  | append_singleton calls next ih =>
      rw [callAll_append, ← ih]
      cases next with
      | process packet =>
          have step := step_process (reassembler.callAll calls) packet
          rw [call]
          generalize (reassembler.callAll calls).process packet = result at step
          cases step <;> rfl
      | remove _ _ _ => rfl
      | clear => rfl

theorem Sound.get?_step (sound : reassembler.Sound)
    {result : Reassembler × Packet × FragmentStatus} (step : Step reassembler packet result)
    (elsewhere : (Call.process packet).fragment? key = none) :
    result.1.datagrams.get? key =
      if reassembler.evicted? packet = some key then none
      else reassembler.datagrams.get? key := by
  have apart {ip : Ipv4} {payload : Bytes} (read : fragment? packet = some (ip, payload)) :
      keyOf ip ≠ key := by
    intro same
    simp [Call.fragment?, read, same] at elsewhere
  cases step with
  | whole unread => simp [evicted?, unread]
  | kept read _ => rw [Table.get?_set, if_neg (apart read), sound.get?_makeRoom read]
  | dropped read _ _ => rw [Table.get?_erase, if_neg (apart read), sound.get?_makeRoom read]
  | reassembled read _ _ _ _ => rw [Table.get?_erase, if_neg (apart read), sound.get?_makeRoom read]

theorem get?_remove (reassembler : Reassembler) (identification : UInt16)
    (left right : Ipv4Address) (key : DatagramKey) :
    (reassembler.remove identification left right).datagrams.get? key =
      if .of identification left right = key then none else reassembler.datagrams.get? key :=
  Table.get?_erase _ _ _

theorem held_of_absent (absent : reassembler.datagrams.contains key = false) :
    reassembler.held key = .empty := by
  have missing : reassembler.datagrams.get? key = none := by simpa [Table.contains] using absent
  rw [held, missing, Option.getD_none]

theorem Sound.held_call (sound : reassembler.Sound)
    (present : (reassembler.call next).datagrams.contains key = true) :
    (reassembler.call next).held key =
      (next.fragment? key).toList.foldl Datagram.take (reassembler.held key) := by
  cases next with
  | remove identification left right =>
      have same := get?_remove reassembler identification left right key
      rw [Table.contains, Reassembler.call, same] at present
      split at present
      · cases present
      · rename_i other
        rw [held, Reassembler.call, same, if_neg other]
        rfl
  | clear => cases present
  | process packet =>
      have step := step_process reassembler packet
      simp only [Reassembler.call] at present ⊢
      generalize reassembler.process packet = result at step present
      cases elsewhere : (Call.process packet).fragment? key with
      | none =>
          have same := sound.get?_step step elsewhere
          rw [Table.contains, same] at present
          split at present
          · cases present
          · rename_i stays
            rw [held, same, if_neg stays]
            rfl
      | some fragment =>
          cases step with
          | whole unread => simp [Call.fragment?, unread] at elsewhere
          | kept read _ =>
              simp only [Call.fragment?, read, Option.ite_none_right_eq_some,
                Option.some.injEq] at elsewhere
              rcases elsewhere with ⟨rfl, rfl⟩
              rw [held, Table.get?_set, if_pos rfl]
              rfl
          | dropped read _ _ =>
              simp only [Call.fragment?, read, Option.ite_none_right_eq_some] at elsewhere
              simp [Table.contains_erase, elsewhere.1] at present
          | reassembled read _ _ _ _ =>
              simp only [Call.fragment?, read, Option.ite_none_right_eq_some] at elsewhere
              simp [Table.contains_erase, elsewhere.1] at present

theorem Sound.held_callAll (sound : reassembler.Sound)
    (absent : reassembler.datagrams.contains key = false) (calls : List Call) :
    (reassembler.callAll calls).held key =
      .ofFragments (reassembler.fragmentsSince key calls) := by
  induction calls using List.reverseRecOn with
  | nil => exact held_of_absent absent
  | append_singleton calls next ih =>
      rw [fragmentsSince, callsSince_append]
      split
      · rename_i present
        rw [callAll_append] at present ⊢
        have last : [next].filterMap (Call.fragment? key) = (next.fragment? key).toList := by
          cases fragment : next.fragment? key <;> simp [fragment]
        rw [(sound.callAll calls).held_call present, ih, List.filterMap_append, last,
          Datagram.ofFragments, Datagram.ofFragments, List.foldl_append]
        rfl
      · rename_i gone
        exact held_of_absent (Bool.eq_false_iff.mpr gone)

theorem callsSince_eq_nil_iff (absent : reassembler.datagrams.contains key = false) :
    reassembler.callsSince key calls = [] ↔
      (reassembler.callAll calls).datagrams.contains key = false := by
  cases calls using List.reverseRecOn with
  | nil => exact iff_of_true rfl absent
  | append_singleton calls next =>
      rw [callsSince_append]
      cases (reassembler.callAll (calls ++ [next])).datagrams.contains key <;> simp

theorem keys_call (reassembler : Reassembler) (next : Call) :
    ∃ new : List DatagramKey, new.length ≤ 1 ∧
      (∀ key ∈ new, reassembler.datagrams.contains key = false) ∧
      (reassembler.call next).datagrams.keys.Sublist (reassembler.datagrams.keys ++ new) := by
  have fewer {datagrams : Table DatagramKey Datagram}
      (sublist : datagrams.Sublist reassembler.datagrams) :
      ∃ new : List DatagramKey, new.length ≤ 1 ∧
        (∀ key ∈ new, reassembler.datagrams.contains key = false) ∧
        datagrams.keys.Sublist (reassembler.datagrams.keys ++ new) :=
    ⟨[], Nat.zero_le _, nofun, (sublist.map Prod.fst).trans (List.sublist_append_left _ _)⟩
  cases next with
  | remove _ _ _ => exact fewer List.filter_sublist
  | clear => exact fewer (List.nil_sublist _)
  | process packet =>
      have step := step_process reassembler packet
      rw [call]
      generalize reassembler.process packet = result at step
      cases step with
      | whole _ => exact fewer (List.Sublist.refl _)
      | dropped _ _ _ => exact fewer (List.filter_sublist.trans (sublist_makeRoom _ _))
      | reassembled _ _ _ _ _ => exact fewer (List.filter_sublist.trans (sublist_makeRoom _ _))
      | @kept ip payload read incomplete =>
          simp only [Table.keys_set]
          split
          · exact fewer (sublist_makeRoom _ _)
          · rename_i new
            rw [← Table.contains_eq_true_iff, contains_makeRoom_self, Bool.not_eq_true] at new
            refine ⟨[keyOf ip], Nat.le_refl _, ?_, ?_⟩
            · intro key member
              rwa [List.mem_singleton.mp member]
            · exact ((sublist_makeRoom _ _).map Prod.fst).append (List.Sublist.refl _)

/-- A datagram has been held for longer than another one. -/
def Older (start : Reassembler) (calls : List Call) (older newer : DatagramKey) : Prop :=
  (start.callsSince newer calls).length < (start.callsSince older calls).length

theorem pairwise_older (start : Reassembler) (idle : start.datagrams = []) (calls : List Call) :
    (start.callAll calls).datagrams.keys.Pairwise (start.Older calls) := by
  have absent (key : DatagramKey) : start.datagrams.contains key = false := by rw [idle]; rfl
  induction calls using List.reverseRecOn with
  | nil =>
      rw [callAll, List.foldl_nil, idle]
      exact .nil
  | append_singleton calls next ih =>
      rcases keys_call (start.callAll calls) next with ⟨new, single, unknown, keys⟩
      have extended : ((start.callAll calls).datagrams.keys ++ new).Pairwise
          (start.Older calls) := by
        refine List.pairwise_append.mpr ⟨ih, ?_, ?_⟩
        · rcases new with _ | ⟨key, _ | ⟨_, _⟩⟩
          · exact .nil
          · exact List.pairwise_singleton _ _
          · simp at single
        · intro older held newer arriving
          have present := (Table.contains_eq_true_iff _ _).mpr held
          rw [Older, (callsSince_eq_nil_iff (absent newer)).mpr (unknown newer arriving)]
          refine List.length_pos_of_ne_nil fun nothing => ?_
          rw [(callsSince_eq_nil_iff (absent older)).mp nothing] at present
          cases present
      rw [← callAll_append] at keys
      refine (extended.sublist keys).imp_of_mem ?_
      intro older newer first second before
      rw [← Table.contains_eq_true_iff] at first second
      rw [Older, callsSince_append, callsSince_append, if_pos first, if_pos second]
      simpa [Older] using before

/-- What is answered to a packet when fragments of the datagrams held have arrived. -/
structure Answers (reassembler : Reassembler) (fragments : DatagramKey → List DatagramFragment)
    (packet : Packet) (result : Reassembler × Packet × FragmentStatus) : Prop where
  whole : result.2.2 = .whole → result = (reassembler, packet, .whole)
  fragment : result.2.2 = .fragment → result.2.1 = packet
  /-- The new content is read from the parts that count, which fill the space up to the end of one
  that was announced as the last. -/
  reassembled : result.2.2 = .reassembled →
    ∃ ip payload parts inner, fragment? packet = some (ip, payload) ∧
      (∀ part, part ∈ parts ↔
        Datagram.Counts (fragments (keyOf ip) ++ [.of ip payload]) part) ∧
      Datagram.Tiles 0 parts ∧
      (∃ last ∈ fragments (keyOf ip) ++ [.of ip payload], last.isLast = true ∧
        last.part ∈ parts ∧ last.part.stop = sizeSum DatagramPart.size parts) ∧
      ip.protocol.Reads (parts.flatMap (·.data)) inner ∧
      result.2.1.Restores packet ip inner ∧
      result.1.datagrams.contains (keyOf ip) = false
  others : ∀ key, (Call.process packet).fragment? key = none →
    result.1.datagrams.get? key =
      if reassembler.evicted? packet = some key then none
      else reassembler.datagrams.get? key

theorem Sound.answers (sound : reassembler.Sound)
    {fragments : DatagramKey → List DatagramFragment}
    (arrived : ∀ key, reassembler.held key = .ofFragments (fragments key)) (packet : Packet) :
    reassembler.Answers fragments packet (reassembler.process packet) := by
  have step := step_process reassembler packet
  refine ⟨?_, ?_, ?_, fun key elsewhere => sound.get?_step step elsewhere⟩
  · intro whole
    generalize reassembler.process packet = result at step whole
    cases step with
    | whole _ => rfl
    | kept _ _ => cases whole
    | dropped _ _ _ => cases whole
    | reassembled _ _ _ _ _ => cases whole
  · intro fragment
    generalize reassembler.process packet = result at step fragment
    cases step with
    | whole _ => cases fragment
    | kept _ _ => rfl
    | dropped _ _ _ => rfl
    | reassembled _ _ _ _ _ => cases fragment
  · intro reassembled
    generalize reassembler.process packet = result at step reassembled
    cases step with
    | whole _ => cases reassembled
    | kept _ _ => cases reassembled
    | dropped _ _ _ => cases reassembled
    | @reassembled ip payload bytes inner changed read complete joined reads restores =>
        have gathered : reassembler.gathered ip payload =
            .ofFragments (fragments (keyOf ip) ++ [.of ip payload]) := by
          rw [Datagram.ofFragments_append, ← arrived]
          rfl
        rw [gathered] at complete joined
        rcases Datagram.join?_eq_some_iff.mp joined with ⟨tiles, rfl⟩
        have announced := eq_of_beq complete
        rw [(Datagram.sound_ofFragments _).counted] at announced
        rcases Datagram.total_ofFragments announced with ⟨last, member, isLast, held, stop⟩
        refine ⟨ip, payload, _, inner, read, fun part => Datagram.mem_parts_ofFragments, tiles,
          ⟨last, member, isLast, held, stop⟩, reads, restores, ?_⟩
        simp [Table.contains_erase]

/-- After any calls no more datagrams are held than may be, the one that came first in front. Each
consists of the fragments that count among those which have arrived since it was last not held, one
at each offset, its bytes are counted, and it is not complete. A further packet is answered from
these fragments and from nothing else; only a datagram in front of all others may make way for
it. -/
theorem held_and_restored (capacity : Nat) (calls : List Call) :
    let reassembler := (new capacity).callAll calls
    let fragments := fun key => (new capacity).fragmentsSince key calls
    reassembler.capacity = max 1 capacity ∧
      reassembler.datagrams.length ≤ max 1 capacity ∧
      reassembler.datagrams.keys.Nodup ∧
      reassembler.datagrams.keys.Pairwise ((new capacity).Older calls) ∧
      (∀ key datagram, reassembler.datagrams.get? key = some datagram →
        datagram.received = sizeSum DatagramPart.size datagram.parts ∧
          datagram.parts.Pairwise (·.offset < ·.offset) ∧
          (∀ part, part ∈ datagram.parts ↔ Datagram.Counts (fragments key) part) ∧
          datagram.isComplete = false) ∧
      (∀ packet, reassembler.Answers fragments packet (reassembler.process packet)) ∧
      (∀ identification left right key,
        (reassembler.remove identification left right).datagrams.get? key =
          if .of identification left right = key then none
          else reassembler.datagrams.get? key) ∧
      reassembler.clear.datagrams = [] := by
  intro reassembler fragments
  have sound : reassembler.Sound := (sound_new capacity).callAll calls
  have arrived (key : DatagramKey) : reassembler.held key = .ofFragments (fragments key) :=
    (sound_new capacity).held_callAll rfl calls
  have limit : reassembler.capacity = max 1 capacity :=
    (capacity_callAll _ calls).trans (Nat.max_comm _ _)
  refine ⟨limit, limit ▸ sound.room, sound.distinct, pairwise_older _ rfl calls, ?_,
    sound.answers arrived, get?_remove reassembler, rfl⟩
  intro key datagram found
  have same : datagram = .ofFragments (fragments key) := by
    rw [← arrived, held, found, Option.getD_some]
  have incomplete := sound.incomplete _ (Table.mem_of_get? found)
  subst same
  have parts := Datagram.sound_ofFragments (fragments key)
  exact ⟨parts.counted, parts.rising, fun part => Datagram.mem_parts_ofFragments, incomplete⟩

end Reassembler

end PacketStack
