import Mathlib.Data.List.Sort
import PacketStack.Proofs.Reassembly.Holding

/-!
Datagrams whose fragments arrive in any order.

`Fragmentation` is a payload cut into pieces. Main statement: `restored_in_any_order` says that the
packet with the last piece that is missing is made the whole datagram, whatever came before it.
`isComplete_ofFragments_iff` is the reason: as many bytes as the last piece announces are there when
all pieces are.
-/

namespace PacketStack

def DatagramPart.inOrder (start : Nat) : List Bytes → List DatagramPart
  | [] => []
  | piece :: rest => ⟨start, piece⟩ :: inOrder (start + piece.length) rest

/-- A payload cut into pieces that fragments can carry, and what the headers of these share. -/
structure Fragmentation where
  identification : UInt16
  source : Ipv4Address
  destination : Ipv4Address
  protocol : IpProtocol
  pieces : List Bytes
  several : 2 ≤ pieces.length
  nonempty : ∀ piece ∈ pieces, piece ≠ []
  aligned : ∀ piece ∈ pieces.dropLast, piece.length % 8 = 0
  reachable : ∀ part ∈ DatagramPart.inOrder 0 pieces, part.offset ≤ 8 * 8191

namespace Fragmentation

def payload (cut : Fragmentation) : Bytes := cut.pieces.flatten

def parts (cut : Fragmentation) : List DatagramPart := DatagramPart.inOrder 0 cut.pieces

def key (cut : Fragmentation) : DatagramKey := .of cut.identification cut.source cut.destination

/-- A packet with a header of the datagram around a part of it. -/
structure Carries (cut : Fragmentation) (part : DatagramPart) (packet : Packet) (ip : Ipv4)
    (inner : Packet) : Prop where
  member : part ∈ cut.parts
  found : packet.find? .ipv4 = some (.over (.ipv4 ip) inner)
  content : inner.layer = .raw ⟨part.data⟩
  identification : ip.identification = cut.identification
  source : ip.source = cut.source
  destination : ip.destination = cut.destination
  protocol : ip.protocol = cut.protocol
  offset : ip.fragmentOffset = .ofNat (part.offset / 8)
  more : ip.moreFragments = decide (cut.parts.getLast? ≠ some part)

/-- What is asked of a call: it brings a part, or it brings no fragment of the datagram and does not
make it be given up. -/
inductive Proper (cut : Fragmentation) (reassembler : Reassembler) : Reassembler.Call → Prop
  | own {packet inner : Packet} {part : DatagramPart} {ip : Ipv4}
      (carries : cut.Carries part packet ip inner) : Proper cut reassembler (.process packet)
  | other {next : Reassembler.Call} (elsewhere : next.fragment? cut.key = none)
      (keeps : reassembler.datagrams.contains cut.key = true →
        (reassembler.call next).datagrams.contains cut.key = true) :
      Proper cut reassembler next

/-- Every call is proper when it comes. -/
def AllProper (cut : Fragmentation) : List Reassembler.Call → Reassembler → Prop
  | [], _ => True
  | next :: rest, reassembler =>
      cut.Proper reassembler next ∧ cut.AllProper rest (reassembler.call next)

/-- Some packet has brought each of the parts. -/
def AllArrived (cut : Fragmentation) (calls : List Reassembler.Call) : Prop :=
  ∀ part ∈ cut.parts, ∃ packet ip inner,
    .process packet ∈ calls ∧ cut.Carries part packet ip inner

end Fragmentation

namespace DatagramPart

variable {start : Nat} {pieces : List Bytes} {part : DatagramPart}

instance : Std.Irrefl fun left right : DatagramPart => left.offset < right.offset :=
  ⟨fun _ => Nat.lt_irrefl _⟩

instance : Std.Antisymm fun left right : DatagramPart => left.offset < right.offset :=
  ⟨fun _ _ first second => absurd first (Nat.lt_asymm second)⟩

theorem start_le_offset (member : part ∈ inOrder start pieces) : start ≤ part.offset := by
  induction pieces generalizing start with
  | nil => cases member
  | cons piece rest ih =>
      rcases List.mem_cons.mp member with rfl | later
      · exact Nat.le_refl _
      · exact Nat.le_trans (Nat.le_add_right _ _) (ih later)

theorem data_mem_of_inOrder (member : part ∈ inOrder start pieces) : part.data ∈ pieces := by
  induction pieces generalizing start with
  | nil => cases member
  | cons piece rest ih =>
      rcases List.mem_cons.mp member with rfl | later
      · exact .head _
      · exact .tail _ (ih later)

theorem tiles_inOrder : Datagram.Tiles start (inOrder start pieces) := by
  induction pieces generalizing start with
  | nil => exact fun before _ _ split => by simp [inOrder] at split
  | cons piece rest ih => exact Datagram.tiles_cons.mpr ⟨rfl, ih⟩

theorem data_inOrder : (inOrder start pieces).flatMap (·.data) = pieces.flatten := by
  induction pieces generalizing start with
  | nil => rfl
  | cons piece rest ih => rw [inOrder, List.flatMap_cons, ih, List.flatten_cons]

theorem size_inOrder : sizeSum size (inOrder start pieces) = pieces.flatten.length := by
  induction pieces generalizing start with
  | nil => rfl
  | cons piece rest ih => rw [inOrder, sizeSum, ih, List.flatten_cons, List.length_append, size]

theorem rising_inOrder (nonempty : ∀ piece ∈ pieces, piece ≠ []) :
    (inOrder start pieces).Pairwise (·.offset < ·.offset) := by
  induction pieces generalizing start with
  | nil => exact .nil
  | cons piece rest ih =>
      refine List.pairwise_cons.mpr ⟨?_, ih fun other inside => nonempty other (.tail _ inside)⟩
      intro part later
      have first := List.length_pos_of_ne_nil (nonempty piece (.head _))
      have after := start_le_offset later
      simp only
      omega

theorem aligned_inOrder (aligned : ∀ piece ∈ pieces.dropLast, piece.length % 8 = 0)
    (first : start % 8 = 0) (member : part ∈ inOrder start pieces) : part.offset % 8 = 0 := by
  induction pieces generalizing start with
  | nil => cases member
  | cons piece rest ih =>
      rcases List.mem_cons.mp member with rfl | later
      · exact first
      · cases rest with
        | nil => cases later
        | cons next rest =>
            rw [List.dropLast_cons_cons] at aligned
            refine ih (fun other inside => aligned other (.tail _ inside)) ?_ later
            have whole := aligned piece (.head _)
            omega

theorem stop_of_getLast? (last : (inOrder start pieces).getLast? = some part) :
    part.stop = start + pieces.flatten.length := by
  rcases List.getLast?_eq_some_iff.mp last with ⟨before, split⟩
  have placed := tiles_inOrder before part [] split
  have whole : sizeSum size (inOrder start pieces) = pieces.flatten.length := size_inOrder
  rw [split, sizeSum_append, sizeSum, sizeSum] at whole
  unfold stop
  omega

theorem lt_offset_of_getLast? (several : 2 ≤ pieces.length)
    (nonempty : ∀ piece ∈ pieces, piece ≠ [])
    (last : (inOrder start pieces).getLast? = some part) : start < part.offset := by
  rcases pieces with _ | ⟨first, _ | ⟨second, rest⟩⟩
  · simp at several
  · simp at several
  · rw [inOrder, inOrder, List.getLast?_cons_cons] at last
    have later : part ∈ inOrder (start + first.length) (second :: rest) :=
      List.mem_of_getLast? last
    have after := start_le_offset later
    have positive := List.length_pos_of_ne_nil (nonempty first (.head _))
    omega

end DatagramPart

namespace Fragmentation

variable {cut : Fragmentation} {part : DatagramPart} {packet inner : Packet} {ip : Ipv4}
variable {fragments : List DatagramFragment} {reassembler : Reassembler}
variable {calls : List Reassembler.Call} {next : Reassembler.Call}

theorem rising_parts (cut : Fragmentation) : cut.parts.Pairwise (·.offset < ·.offset) :=
  DatagramPart.rising_inOrder cut.nonempty

theorem size_pos (member : part ∈ cut.parts) : 0 < part.size :=
  List.length_pos_of_ne_nil (cut.nonempty _ (DatagramPart.data_mem_of_inOrder member))

theorem eq_of_offset {other : DatagramPart} (first : part ∈ cut.parts) (second : other ∈ cut.parts)
    (same : part.offset = other.offset) : part = other := by
  have distinct : (cut.parts.map (·.offset)).Nodup :=
    List.pairwise_map.mpr (cut.rising_parts.imp fun {_ _} less => Nat.ne_of_lt less)
  exact List.inj_on_of_nodup_map distinct first second same

theorem exists_last (cut : Fragmentation) : ∃ last, cut.parts.getLast? = some last := by
  cases final : cut.parts.getLast? with
  | some last => exact ⟨last, rfl⟩
  | none =>
      have several := cut.several
      have nothing : DatagramPart.inOrder 0 cut.pieces = [] := List.getLast?_eq_none_iff.mp final
      cases pieces : cut.pieces with
      | nil =>
          rw [pieces] at several
          cases several
      | cons first rest =>
          rw [pieces] at nothing
          cases nothing

def fragment (cut : Fragmentation) (part : DatagramPart) : DatagramFragment :=
  ⟨part, decide (cut.parts.getLast? = some part)⟩

theorem Carries.read (carries : cut.Carries part packet ip inner) :
    Reassembler.fragment? packet = some (ip, part.data) ∧
      DatagramFragment.of ip part.data = cut.fragment part ∧ Reassembler.keyOf ip = cut.key := by
  have nonempty := cut.nonempty _ (DatagramPart.data_mem_of_inOrder carries.member)
  have whole := DatagramPart.aligned_inOrder cut.aligned rfl carries.member
  have near := cut.reachable _ carries.member
  have offset : ip.fragmentOffset.toNat = part.offset / 8 := by
    rw [carries.offset, UInt16.toNat_ofNat']
    omega
  have fragmented : ip.isFragmented = true := by
    rw [Ipv4.isFragmented, carries.more, Bool.or_eq_true]
    by_cases last : cut.parts.getLast? = some part
    · have behind : 0 < part.offset :=
        DatagramPart.lt_offset_of_getLast? cut.several cut.nonempty last
      refine .inr (bne_iff_ne.mpr fun zero => ?_)
      rw [zero] at offset
      have : (0 : UInt16).toNat = 0 := rfl
      omega
    · exact .inl (decide_eq_true last)
  refine ⟨?_, ?_, ?_⟩
  · simp [Reassembler.fragment?, carries.found, carries.content, fragmented, nonempty]
  · have place : 8 * ip.fragmentOffset.toNat = part.offset := by omega
    simp [DatagramFragment.of, fragment, place, carries.more]
  · rw [Reassembler.keyOf, carries.identification, carries.source, carries.destination, key]

theorem Carries.fragment? (carries : cut.Carries part packet ip inner) :
    (Reassembler.Call.process packet).fragment? cut.key = some (cut.fragment part) := by
  rcases carries.read with ⟨read, same, key⟩
  simp [Reassembler.Call.fragment?, read, same, key]

def Own (cut : Fragmentation) (fragments : List DatagramFragment) : Prop :=
  ∀ fragment ∈ fragments, ∃ part ∈ cut.parts, fragment = cut.fragment part

theorem Own.mem_parts_iff (own : cut.Own fragments) :
    part ∈ (Datagram.ofFragments fragments).parts ↔
      part ∈ cut.parts ∧ cut.fragment part ∈ fragments := by
  rw [Datagram.mem_parts_ofFragments]
  constructor
  · intro counts
    rcases List.mem_map.mp (List.mem_of_find?_eq_some counts) with ⟨fragment, arrived, rfl⟩
    rcases own fragment arrived with ⟨part, member, rfl⟩
    exact ⟨member, arrived⟩
  · rintro ⟨member, arrived⟩
    rcases Datagram.exists_counts arrived with ⟨first, counts, place⟩
    rcases List.mem_map.mp (List.mem_of_find?_eq_some counts) with ⟨fragment, earlier, rfl⟩
    rcases own fragment earlier with ⟨other, also, rfl⟩
    have same : other = part := eq_of_offset also member place
    rw [same] at counts
    exact counts

theorem Own.sublist_parts (own : cut.Own fragments) :
    (Datagram.ofFragments fragments).parts.Sublist cut.parts := by
  have rising := (Datagram.sound_ofFragments fragments).rising
  have subset : (Datagram.ofFragments fragments).parts ⊆ cut.parts :=
    fun _ held => (own.mem_parts_iff.mp held).1
  exact List.sublist_of_subperm_of_pairwise (List.subperm_of_subset rising.nodup subset) rising
    cut.rising_parts

theorem eq_of_size_eq {parts fewer : List DatagramPart} (sublist : fewer.Sublist parts)
    (positive : ∀ part ∈ parts, 0 < part.size)
    (same : sizeSum DatagramPart.size fewer = sizeSum DatagramPart.size parts) :
    fewer = parts := by
  have le_of_sublist {left right : List DatagramPart} (sublist : left.Sublist right) :
      sizeSum DatagramPart.size left ≤ sizeSum DatagramPart.size right := by
    induction sublist with
    | slnil => exact Nat.le_refl _
    | cons part _ ih => exact Nat.le_trans ih (Nat.le_add_left _ _)
    | cons_cons part _ ih => exact Nat.add_le_add_left ih _
  induction sublist with
  | slnil => rfl
  | @cons left right part rest ih =>
      have some_size := positive part (.head _)
      have fewer_size := le_of_sublist rest
      rw [sizeSum] at same
      omega
  | @cons_cons left right part rest ih =>
      rw [sizeSum, sizeSum] at same
      rw [ih (fun other inside => positive other (.tail _ inside)) (Nat.add_left_cancel same)]

theorem Own.isComplete_iff (own : cut.Own fragments) :
    (Datagram.ofFragments fragments).isComplete = true ↔
      (Datagram.ofFragments fragments).parts = cut.parts := by
  have counted := (Datagram.sound_ofFragments fragments).counted
  have whole : sizeSum DatagramPart.size cut.parts = cut.payload.length :=
    DatagramPart.size_inOrder
  have announced {total : Nat} (known : (Datagram.ofFragments fragments).total = some total) :
      total = cut.payload.length := by
    rcases Datagram.total_ofFragments known with ⟨fragment, arrived, last, _, stop⟩
    rcases own fragment arrived with ⟨part, _, rfl⟩
    calc total
      _ = part.stop := stop.symm
      _ = 0 + cut.payload.length := DatagramPart.stop_of_getLast? (of_decide_eq_true last)
      _ = cut.payload.length := Nat.zero_add _
  rw [Datagram.isComplete, beq_iff_eq, counted]
  constructor
  · intro known
    apply eq_of_size_eq own.sublist_parts fun part member => size_pos member
    rw [announced known, whole]
  · intro all
    rw [all, whole]
    rcases cut.exists_last with ⟨last, final⟩
    have arrived : cut.fragment last ∈ fragments := by
      have held := List.mem_of_getLast? final
      rw [← all] at held
      exact (own.mem_parts_iff.mp held).2
    have known : (Datagram.ofFragments fragments).total.isSome = true := by
      refine Datagram.isSome_total_ofFragments arrived (decide_eq_true final) ?_
      intro other also place
      rcases own other also with ⟨part, member, rfl⟩
      have same : part = last := eq_of_offset member (List.mem_of_getLast? final) place
      exact decide_eq_true (same ▸ final)
    rcases Option.isSome_iff_exists.mp known with ⟨total, known⟩
    rw [known, announced known]

theorem Own.join?_eq (all : (Datagram.ofFragments fragments).parts = cut.parts) :
    (Datagram.ofFragments fragments).join? = some cut.payload := by
  rw [Datagram.join?_eq_some_iff, all]
  exact ⟨DatagramPart.tiles_inOrder, DatagramPart.data_inOrder.symm⟩

theorem allProper_append :
    cut.AllProper (calls ++ [next]) reassembler ↔
      cut.AllProper calls reassembler ∧ cut.Proper (reassembler.callAll calls) next := by
  induction calls generalizing reassembler with
  | nil => simp [AllProper, Reassembler.callAll]
  | cons first rest ih =>
      rw [List.cons_append, AllProper, AllProper, ih, and_assoc]
      rfl

def arrivals (cut : Fragmentation) (calls : List Reassembler.Call) : List DatagramFragment :=
  calls.filterMap (Reassembler.Call.fragment? cut.key)

theorem AllProper.own_or_none (proper : cut.AllProper calls reassembler) (member : next ∈ calls) :
    (∃ packet part ip inner, next = .process packet ∧ cut.Carries part packet ip inner) ∨
      next.fragment? cut.key = none := by
  induction calls generalizing reassembler with
  | nil => cases member
  | cons first rest ih =>
      rcases List.mem_cons.mp member with rfl | later
      · cases proper.1 with
        | own carries => exact .inl ⟨_, _, _, _, rfl, carries⟩
        | other elsewhere _ => exact .inr elsewhere
      · exact ih proper.2 later

theorem AllProper.own (proper : cut.AllProper calls reassembler) :
    cut.Own (cut.arrivals calls) := by
  intro fragment arrived
  rcases List.mem_filterMap.mp arrived with ⟨next, member, found⟩
  rcases proper.own_or_none member with ⟨packet, part, ip, inner, rfl, carries⟩ | elsewhere
  · rw [carries.fragment?, Option.some.injEq] at found
    exact ⟨part, carries.member, found.symm⟩
  · rw [elsewhere] at found
    cases found

theorem AllProper.allArrived_iff (proper : cut.AllProper calls reassembler) :
    cut.AllArrived calls ↔ ∀ part ∈ cut.parts, cut.fragment part ∈ cut.arrivals calls := by
  constructor
  · intro all part member
    rcases all part member with ⟨packet, ip, inner, called, carries⟩
    exact List.mem_filterMap.mpr ⟨_, called, carries.fragment?⟩
  · intro all part member
    rcases List.mem_filterMap.mp (all part member) with ⟨next, called, found⟩
    rcases proper.own_or_none called with ⟨packet, other, ip, inner, rfl, carries⟩ | elsewhere
    · rw [carries.fragment?, Option.some.injEq] at found
      have same : other = part := congrArg DatagramFragment.part found
      exact ⟨packet, ip, inner, called, same ▸ carries⟩
    · rw [elsewhere] at found
      cases found

theorem AllProper.isComplete_iff (proper : cut.AllProper calls reassembler) :
    (Datagram.ofFragments (cut.arrivals calls)).isComplete = true ↔ cut.AllArrived calls := by
  rw [proper.own.isComplete_iff, proper.allArrived_iff]
  constructor
  · intro all part member
    rw [← all] at member
    exact (proper.own.mem_parts_iff.mp member).2
  · intro all
    refine List.Pairwise.eq_of_mem_iff (Datagram.sound_ofFragments _).rising cut.rising_parts ?_
    intro part
    rw [proper.own.mem_parts_iff]
    exact ⟨And.left, fun member => ⟨member, all part member⟩⟩

theorem arrivals_append (cut : Fragmentation) (calls : List Reassembler.Call)
    (next : Reassembler.Call) :
    cut.arrivals (calls ++ [next]) =
      cut.arrivals calls ++ (next.fragment? cut.key).toList := by
  rw [arrivals, List.filterMap_append]
  rfl

theorem Carries.gathered_eq (carries : cut.Carries part packet ip inner)
    (held : reassembler.held cut.key = .ofFragments (cut.arrivals calls)) :
    reassembler.gathered ip part.data =
      .ofFragments (cut.arrivals (calls ++ [.process packet])) := by
  rcases carries.read with ⟨_, same, key⟩
  rw [arrivals_append, carries.fragment?, Option.toList_some, Datagram.ofFragments_append,
    Reassembler.gathered, key, same, held]

theorem AllProper.held_eq (proper : cut.AllProper calls reassembler) (sound : reassembler.Sound)
    (absent : reassembler.datagrams.contains cut.key = false) (missing : ¬ cut.AllArrived calls) :
    (reassembler.callAll calls).held cut.key = .ofFragments (cut.arrivals calls) := by
  induction calls using List.reverseRecOn with
  | nil => exact Reassembler.held_of_absent absent
  | append_singleton calls next ih =>
      rcases allProper_append.mp proper with ⟨before, now⟩
      have still_missing : ¬ cut.AllArrived calls := by
        intro all
        refine missing fun part member => ?_
        rcases all part member with ⟨packet, ip, inner, called, carries⟩
        exact ⟨packet, ip, inner, List.mem_append_left _ called, carries⟩
      have held := ih before still_missing
      rw [Reassembler.callAll_append]
      cases now with
      | own carries =>
          have gathered := carries.gathered_eq held
          have incomplete : ((reassembler.callAll calls).gathered _ _).isComplete = false :=
            Bool.eq_false_iff.mpr fun complete =>
              missing (proper.isComplete_iff.mp (gathered ▸ complete))
          rcases carries.read with ⟨read, _, key⟩
          rw [Reassembler.call, Reassembler.process_of_incomplete read incomplete,
            Reassembler.held, key, Table.get?_set, if_pos rfl, Option.getD_some, gathered]
      | other elsewhere keeps =>
          rw [arrivals_append, elsewhere, Option.toList_none, List.append_nil, ← held]
          cases present : ((reassembler.callAll calls).call next).datagrams.contains cut.key with
          | true =>
              rw [(sound.callAll calls).held_call present, elsewhere]
              rfl
          | false =>
              have gone : (reassembler.callAll calls).datagrams.contains cut.key = false := by
                rw [← Bool.not_eq_true]
                intro there
                rw [keeps there] at present
                cases present
              rw [Reassembler.held_of_absent present, Reassembler.held_of_absent gone]

/-- The packets with the parts of a datagram come in any order, more than once, and between any
other calls that do not make it be given up. Each is answered as a fragment until no part is
missing; the one with the last part that was missing is made the whole datagram, if that can be
read. -/
theorem restored_in_any_order (cut : Fragmentation) (capacity : Nat)
    (earlier calls : List Reassembler.Call) (part : DatagramPart) (packet inner : Packet)
    (ip : Ipv4)
    (absent : ((Reassembler.new capacity).callAll earlier).datagrams.contains cut.key = false)
    (proper : cut.AllProper calls ((Reassembler.new capacity).callAll earlier))
    (missing : ¬ cut.AllArrived calls) (carries : cut.Carries part packet ip inner) :
    let result := (((Reassembler.new capacity).callAll earlier).callAll calls).process packet
    (¬ cut.AllArrived (calls ++ [.process packet]) → result.2 = (packet, .fragment)) ∧
      (cut.AllArrived (calls ++ [.process packet]) →
        result.1.datagrams.contains cut.key = false ∧
          (∀ content, cut.protocol.Reads cut.payload content →
            result.2.2 = .reassembled ∧ result.2.1.Restores packet ip content) ∧
          ((∀ content, ¬ cut.protocol.Reads cut.payload content) →
            result.2 = (packet, .fragment))) := by
  have sound := (Reassembler.sound_new capacity).callAll earlier
  have gathered := carries.gathered_eq (proper.held_eq sound absent missing)
  have extended : cut.AllProper (calls ++ [.process packet])
      ((Reassembler.new capacity).callAll earlier) :=
    allProper_append.mpr ⟨proper, .own carries⟩
  rcases carries.read with ⟨read, _, key⟩
  constructor
  · intro more
    have incomplete : (((Reassembler.new capacity).callAll earlier).callAll calls |>.gathered ip
        part.data).isComplete = false :=
      Bool.eq_false_iff.mpr fun complete =>
        more (extended.isComplete_iff.mp (gathered ▸ complete))
    rw [Reassembler.process_of_incomplete read incomplete]
  · intro all
    have complete := extended.isComplete_iff.mpr all
    have joined := Own.join?_eq (extended.own.isComplete_iff.mp complete)
    rw [← gathered] at complete joined
    rw [← key, ← carries.protocol]
    exact Reassembler.process_of_complete read complete joined

end Fragmentation

namespace Fragmentation.ThreePieces

/-- A header of a message to the port 5000 and eleven bytes. -/
def cut : Fragmentation where
  identification := 7
  source := .ofNat 1
  destination := .ofNat 2
  protocol := .udp
  pieces := [[0x0f, 0xa0, 0x13, 0x88, 0, 19, 0, 0], [1, 2, 3, 4, 5, 6, 7, 8], [9, 10, 11]]
  several := by decide
  nonempty := by decide
  aligned := by decide
  reachable := by decide

def header (identification flags : UInt16) : Ipv4 :=
  { Ipv4.new (.ofNat 2) (.ofNat 1) with
    identification := identification
    protocol := .udp
    flagsAndFragmentOffset := flags }

def sent (identification flags : UInt16) (piece : Bytes) : Packet :=
  .over (.ipv4 (header identification flags)) (.raw piece)

def first : Packet := sent 7 0x2000 [0x0f, 0xa0, 0x13, 0x88, 0, 19, 0, 0]

def second : Packet := sent 7 0x2001 [1, 2, 3, 4, 5, 6, 7, 8]

def third : Packet := sent 7 2 [9, 10, 11]

def stranger : Packet := sent 8 0x2000 [0, 0, 0, 0, 0, 0, 0, 0]

/-- The last piece comes first and twice. -/
def calls : List Reassembler.Call :=
  [.process third, .process third, .process stranger, .process first,
    .remove 8 (.ofNat 1) (.ofNat 2)]

def start : Reassembler := (Reassembler.new 2).callAll [.process stranger]

theorem first_carries : cut.Carries ⟨0, [0x0f, 0xa0, 0x13, 0x88, 0, 19, 0, 0]⟩ first
    (header 7 0x2000) (.raw [0x0f, 0xa0, 0x13, 0x88, 0, 19, 0, 0]) :=
  ⟨by decide, rfl, rfl, rfl, rfl, rfl, rfl, by decide, by decide⟩

theorem second_carries : cut.Carries ⟨8, [1, 2, 3, 4, 5, 6, 7, 8]⟩ second (header 7 0x2001)
    (.raw [1, 2, 3, 4, 5, 6, 7, 8]) :=
  ⟨by decide, rfl, rfl, rfl, rfl, rfl, rfl, by decide, by decide⟩

theorem third_carries : cut.Carries ⟨16, [9, 10, 11]⟩ third (header 7 2) (.raw [9, 10, 11]) :=
  ⟨by decide, rfl, rfl, rfl, rfl, rfl, rfl, by decide, by decide⟩

theorem calls_proper : cut.AllProper calls start :=
  ⟨.own third_carries, .own third_carries, .other (by decide) (by decide +kernel),
    .own first_carries, .other (by decide) (by decide +kernel), trivial⟩

theorem second_missing : ¬ cut.AllArrived calls := by
  intro all
  rw [calls_proper.allArrived_iff] at all
  have arrived := all ⟨8, [1, 2, 3, 4, 5, 6, 7, 8]⟩ (by decide)
  revert arrived
  decide +kernel

theorem all_arrive : cut.AllArrived (calls ++ [.process second]) := by
  have proper : cut.AllProper (calls ++ [.process second]) start :=
    allProper_append.mpr ⟨calls_proper, .own second_carries⟩
  rw [proper.allArrived_iff]
  decide +kernel

/-- The packet with the second piece becomes the whole message. -/
theorem restored_from_second :
    ¬ cut.AllArrived calls ∧ cut.AllArrived (calls ++ [.process second]) ∧
      ∃ content, Packet.parse .udp cut.payload = .ok content ∧
        ((start.callAll calls).process second).2.2 = .reassembled ∧
        ((start.callAll calls).process second).2.1.Restores second (header 7 0x2001) content := by
  have success : (Packet.parse .udp cut.payload).isOk = true := by cbv
  rcases Outcome.isOk_iff.mp success with ⟨content, reads⟩
  have absent : start.datagrams.contains cut.key = false := by decide +kernel
  have restored := (restored_in_any_order cut 2 [.process stranger] calls _ second _ _ absent
    calls_proper second_missing second_carries).2 all_arrive
  exact ⟨second_missing, all_arrive, content, reads, restored.2.1 content reads⟩

end Fragmentation.ThreePieces

end PacketStack
