import PacketStack.Proofs.Packet.Assembly
import PacketStack.Proofs.Packet.Rewriting
import PacketStack.Proofs.Reassembly.Holding

/-!
Whether a datagram that was put together can be written.

Main statement: `serialize_iff_fits` says that this is so just if its header and what is inside of
it do not take more bytes than a total length can tell.
-/

namespace PacketStack

namespace Packet

theorem eq_of_toList_eq {first second : Packet} (same : first.toList = second.toList) :
    first = second := by
  induction first generalizing second with
  | single layer =>
      cases second with
      | single other => rw [(List.cons.inj same).1]
      | «over» other inner => exact absurd (List.cons.inj same).2.symm inner.toList_ne_nil
  | «over» layer inside ih =>
      cases second with
      | single other => exact absurd (List.cons.inj same).2 inside.toList_ne_nil
      | «over» other inner => rw [(List.cons.inj same).1, ih (List.cons.inj same).2]

theorem totalSize_raw (payload : Bytes) : (raw payload).totalSize = payload.length := rfl

theorem serialize_ipv4_iff {ip : Ipv4} (short : ip.options.length ≤ 40) (inner : Packet) :
    (∃ written, (Packet.over (.ipv4 ip) inner).serialize = .ok written) ↔
      (∃ body, inner.serializeWithin (Layer.ipv4 ip).addresses? = .ok body) ∧
        ip.headerSize + inner.totalSize ≤ 0xffff := by
  have regular : (Layer.ipv4 ip).Regular (some inner.kind) := short
  constructor
  · rintro ⟨written, whole⟩
    rcases serializeWithin_over.mp whole with ⟨body, inside, framed⟩
    have limit : ip.headerSize + body.length ≤ 0xffff :=
      ((Layer.frame_eq_ok regular).mp framed).1.2
    rw [length_serializeWithin inside] at limit
    exact ⟨⟨body, inside⟩, limit⟩
  · rintro ⟨⟨body, inside⟩, small⟩
    rw [← length_serializeWithin inside] at small
    have limit : ip.headerSize + body.length < 2 ^ 32 := by omega
    exact ⟨_, serializeWithin_over.mpr
      ⟨body, inside, (Layer.frame_eq_ok regular).mpr ⟨⟨limit, small⟩, rfl⟩⟩⟩

end Packet

namespace IpProtocol.Reads

variable {protocol : IpProtocol} {bytes : Bytes} {inner : Packet}

theorem eq_raw (unknown : protocol.kind? = none) (reads : protocol.Reads bytes inner) :
    inner = .raw bytes := by
  rwa [IpProtocol.Reads, unknown] at reads

theorem canonical {kind : Kind} (known : protocol.kind? = some kind)
    (reads : protocol.Reads bytes inner) :
    inner.Canonical ∧ inner.totalSize ≤ bytes.length := by
  rw [IpProtocol.Reads, known] at reads
  have next : (Layer.ipv4 { Ipv4.new .zero .zero with protocol := protocol }).next? =
      some kind := by
    simp [Layer.next?, Ipv4.next?, Ipv4.isFragmented, Ipv4.moreFragments, Ipv4.fragmentOffset,
      Ipv4.new, known]
  rcases Packet.kind_of_next next with ⟨notLink, notNames, notLoopback, _⟩
  rcases Packet.canonical_of_parse reads notNames notLoopback with ⟨_, canonical, small⟩
  have nothing : kind.leastSize = 0 := by
    unfold Kind.leastSize
    split
    · exact absurd rfl notLink
    · rfl
  rw [nothing, Nat.max_zero] at small
  exact ⟨canonical, small⟩

theorem totalSize_le (reads : protocol.Reads bytes inner) : inner.totalSize ≤ bytes.length := by
  cases known : protocol.kind? with
  | none =>
      rw [eq_raw known reads, Packet.totalSize_raw]
  | some kind => exact (canonical known reads).2

theorem exists_written (reads : protocol.Reads bytes inner) (small : inner.totalSize ≤ 0xffff)
    (addresses : Option (IpAddress × IpAddress)) :
    ∃ body, inner.serializeWithin addresses = .ok body := by
  cases known : protocol.kind? with
  | none =>
      rw [eq_raw known reads] at small ⊢
      exact ⟨bytes, Packet.serializeWithin_raw addresses (Nat.lt_of_le_of_lt small (by decide))⟩
  | some kind =>
      rcases (canonical known reads).1.serializeWithin_eq_ok small addresses with ⟨body, written, _⟩
      exact ⟨body, written⟩

end IpProtocol.Reads

namespace Reassembler

variable {packet : Packet} {bytes payload : Bytes} {ip : Ipv4}

theorem eq_over_of_fragment? (parsed : Packet.parse .ipv4 bytes = .ok packet)
    (read : fragment? packet = some (ip, payload)) :
    packet = .over (.ipv4 ip) (.raw payload) ∧ ip.options.length ≤ 40 := by
  rcases Packet.canonical_of_parse parsed nofun nofun with ⟨kind, canonical, _⟩
  rcases find?_of_fragment? read with ⟨inner, search, content, fragmented, _⟩
  have whole : packet = .over (.ipv4 ip) inner := by
    cases packet with
    | single layer => exact Option.some.inj ((if_pos kind).symm.trans search)
    | «over» layer inside => exact Option.some.inj ((if_pos kind).symm.trans search)
  have opaque_inside : (Layer.ipv4 ip).next? = none := if_pos fragmented
  subst whole
  cases canonical with
  | raw header _ _ _ =>
      cases content
      exact ⟨rfl, header.1⟩
  | around _ known _ =>
      rw [opaque_inside] at known
      cases known

theorem eq_restore_of_restores {changed inner : Packet}
    (restores : changed.Restores (.over (.ipv4 ip) (.raw payload)) ip inner) :
    changed = restore ip inner := by
  rcases restores with ⟨front, old, others, place, result⟩
  have nothing : front = [] := by
    cases front with
    | nil => rfl
    | cons layer rest =>
        have same : Layer.ipv4 ip = layer := (List.cons.inj place).1
        exact absurd (congrArg Layer.kind same.symm) (others layer List.mem_cons_self)
  rw [nothing] at result
  exact Packet.eq_of_toList_eq result

theorem serialize_restore_iff (short : ip.options.length ≤ 40) {inner : Packet}
    (reads : ip.protocol.Reads bytes inner) :
    (∃ written, (restore ip inner).serialize = .ok written) ↔
      ip.headerSize + inner.totalSize ≤ 0xffff := by
  have short : ({ ip with flagsAndFragmentOffset := 0 } : Ipv4).options.length ≤ 40 := short
  refine (Packet.serialize_ipv4_iff short inner).trans ⟨And.right, fun small => ⟨?_, small⟩⟩
  exact reads.exists_written (Nat.le_trans (Nat.le_add_left _ _) small) _

theorem length_flatMap_data (parts : List DatagramPart) :
    (parts.flatMap (·.data)).length = sizeSum DatagramPart.size parts := by
  induction parts with
  | nil => rfl
  | cons part rest ih => rw [List.flatMap_cons, List.length_append, ih, sizeSum, DatagramPart.size]

/-- A packet that was read and completes a datagram becomes its own header around what the joined
parts are read as. That takes no more bytes than the part announced as the last one tells by its
offset and its length, and the packet can be written just if header and content together take no
more bytes than a total length can tell. -/
theorem serialize_iff_fits (capacity : Nat) (calls : List Call)
    (parsed : Packet.parse .ipv4 bytes = .ok packet)
    (reassembled : (((new capacity).callAll calls).process packet).2.2 = .reassembled) :
    ∃ ip payload parts last inner, packet = .over (.ipv4 ip) (.raw payload) ∧
      (∀ part, part ∈ parts ↔ Datagram.Counts
        ((new capacity).fragmentsSince (keyOf ip) calls ++ [.of ip payload]) part) ∧
      Datagram.Tiles 0 parts ∧
      (last ∈ (new capacity).fragmentsSince (keyOf ip) calls ++ [.of ip payload] ∧
        last.isLast = true ∧ last.part ∈ parts) ∧
      ip.protocol.Reads (parts.flatMap (·.data)) inner ∧ inner.totalSize ≤ last.part.stop ∧
      (((new capacity).callAll calls).process packet).2.1 = restore ip inner ∧
      ((∃ written,
          (((new capacity).callAll calls).process packet).2.1.serialize = .ok written) ↔
        ip.headerSize + inner.totalSize ≤ 0xffff) := by
  have sound : ((new capacity).callAll calls).Sound := (sound_new capacity).callAll calls
  have arrived (key : DatagramKey) : ((new capacity).callAll calls).held key =
      .ofFragments ((new capacity).fragmentsSince key calls) :=
    (sound_new capacity).held_callAll rfl calls
  rcases (sound.answers arrived packet).reassembled reassembled with
    ⟨ip, payload, parts, inner, read, counts, tiles, ⟨last, member, isLast, held, stop⟩, reads,
      restores, _⟩
  rcases eq_over_of_fragment? parsed read with ⟨whole, short⟩
  have changed : (((new capacity).callAll calls).process packet).2.1 = restore ip inner := by
    generalize (((new capacity).callAll calls).process packet).2.1 = changed at restores
    rw [whole] at restores
    exact eq_restore_of_restores restores
  have size : inner.totalSize ≤ last.part.stop := by
    rw [stop, ← length_flatMap_data]
    exact reads.totalSize_le
  refine ⟨ip, payload, parts, last, inner, whole, counts, tiles, ⟨member, isLast, held⟩, reads,
    size, changed, ?_⟩
  rw [changed]
  exact serialize_restore_iff short reads

theorem fragment?_over (fragmented : ip.isFragmented = true) (filled : payload ≠ []) :
    fragment? (.over (.ipv4 ip) (.raw payload)) = some (ip, payload) := by
  have kind : (Layer.ipv4 ip).kind = .ipv4 := rfl
  have some : payload.isEmpty = false := List.isEmpty_eq_false_iff.mpr filled
  simp [fragment?, Packet.find?, kind, Packet.raw, Packet.layer, fragmented, some]

theorem process_two (capacity : Nat) {first second : Ipv4} {front back : Bytes} {inner : Packet}
    (starts : first.fragmentOffset = 0 ∧ first.moreFragments = true)
    (ends : 8 * second.fragmentOffset.toNat = front.length ∧ second.moreFragments = false)
    (same : keyOf second = keyOf first) (filled : front ≠ [] ∧ back ≠ [])
    (reads : second.protocol.Reads (front ++ back) inner) :
    (((new capacity).callAll [.process (.over (.ipv4 first) (.raw front))]).process
        (.over (.ipv4 second) (.raw back))).2 = (restore second inner, .reassembled) := by
  have length : 0 < front.length := List.length_pos_of_ne_nil filled.1
  have firstRead : fragment? (.over (.ipv4 first) (.raw front)) = some (first, front) :=
    fragment?_over (by rw [Ipv4.isFragmented, starts.2, Bool.true_or]) filled.1
  have secondRead : fragment? (.over (.ipv4 second) (.raw back)) = some (second, back) := by
    refine fragment?_over ?_ filled.2
    have apart : second.fragmentOffset ≠ 0 := by
      intro zero
      rw [zero] at ends
      exact absurd ends.1.symm (Nat.ne_of_gt length)
    simp [Ipv4.isFragmented, apart]
  have begun : (new capacity).gathered first front = ⟨[⟨0, front⟩], front.length, none⟩ := by
    simp [gathered, held, new, Table.get?, Datagram.take, DatagramFragment.of, Datagram.add,
      Datagram.empty, Datagram.insertPart, starts]
  have incomplete : ((new capacity).gathered first front).isComplete = false := by
    rw [begun]
    rfl
  have step : (new capacity).callAll [.process (.over (.ipv4 first) (.raw front))] =
      ((new capacity).process (.over (.ipv4 first) (.raw front))).1 := rfl
  rw [step, process_of_incomplete firstRead incomplete, begun]
  generalize after : ({ new capacity with
    datagrams := ((new capacity).makeRoom (keyOf first)).set (keyOf first)
      ⟨[⟨0, front⟩], front.length, none⟩ } : Reassembler) = reassembler
  have kept : reassembler.held (keyOf second) = ⟨[⟨0, front⟩], front.length, none⟩ := by
    rw [← after, held, same, Table.get?_set, if_pos rfl, Option.getD_some]
  have both : reassembler.gathered second back =
      ⟨[⟨0, front⟩, ⟨front.length, back⟩], front.length + back.length,
        some (front.length + back.length)⟩ := by
    rw [gathered, kept]
    simp [Datagram.take, DatagramFragment.of, Datagram.add, Datagram.insertPart, ends,
      Nat.ne_of_lt length]
  have complete : (reassembler.gathered second back).isComplete = true := by
    rw [both]
    exact beq_self_eq_true _
  have joined : (reassembler.gathered second back).join? = some (front ++ back) := by
    rw [both]
    simp [Datagram.join?, Datagram.joinFrom?]
  rcases (process_of_complete secondRead complete joined).2.1 inner reads with
    ⟨answer, restores⟩
  exact Prod.ext (eq_restore_of_restores restores) answer

namespace TwoFragments

/-- The header of a fragment at a position in units of eight bytes, of a protocol that is not
known. -/
def header (position checksum : UInt16) : Ipv4 :=
  { Ipv4.new (.ofNat 0x0a000002) (.ofNat 0x0a000001) with
    identification := 7
    protocol := .other 253
    flagsAndFragmentOffset := position
    checksum := checksum }

/-- A fragment as it comes over the wire. -/
def wire (position checksum : UInt16) (payload : Bytes) : Bytes :=
  (header position checksum).written checksum payload

def sent (position checksum : UInt16) (payload : Bytes) : Packet :=
  .over (.ipv4 (header position checksum)) (.raw payload)

theorem padTo_options (position checksum : UInt16) :
    Bytes.padTo 4 (header position checksum).options = [] := Bytes.padTo_of_whole rfl

theorem headerSize_header (position checksum : UInt16) :
    (header position checksum).headerSize = 20 := by
  rw [Ipv4.headerSize, padTo_options]
  rfl

theorem parse_wire {position checksum : UInt16} {payload : Bytes}
    (fragmented : (header position checksum).isFragmented = true) (filled : payload ≠ [])
    (small : 20 + payload.length ≤ 0xffff) :
    Packet.parse .ipv4 (wire position checksum payload) = .ok (sent position checksum payload) := by
  rw [← headerSize_header position checksum] at small
  have read := (header position checksum).decode_written checksum payload [] (Nat.zero_le _) small
  have unread : ((header position checksum).padded checksum).next? = none := if_pos fragmented
  rw [List.append_nil, unread, Ipv4.padded, padTo_options] at read
  have decoded : Layer.decode .ipv4 (wire position checksum payload) =
      .ok ⟨.ipv4 (header position checksum), payload, none⟩ := by
    rw [Layer.decode, wire, read]
    rfl
  have around : Packet.Around none payload (some (.raw payload)) := ⟨filled, rfl⟩
  refine Packet.parse_of_decode decoded ?_ around
  rw [wire, Ipv4.length_written]
  exact Nat.le_add_right _ _

/-- A datagram of ten bytes is put together and can be written. -/
theorem tenBytes_written :
    Packet.parse .ipv4 (wire 1 0 [9, 10]) = .ok (sent 1 0 [9, 10]) ∧
      (((new 1).callAll [.process (sent 0x2000 0 [1, 2, 3, 4, 5, 6, 7, 8])]).process
        (sent 1 0 [9, 10])).2.2 = .reassembled ∧
      ∃ written, (((new 1).callAll [.process (sent 0x2000 0 [1, 2, 3, 4, 5, 6, 7, 8])]).process
        (sent 1 0 [9, 10])).2.1.serialize = .ok written := by
  have parsed : Packet.parse .ipv4 (wire 1 0 [9, 10]) = .ok (sent 1 0 [9, 10]) :=
    parse_wire rfl nofun (by decide)
  have joined : (((new 1).callAll [.process (sent 0x2000 0 [1, 2, 3, 4, 5, 6, 7, 8])]).process
      (sent 1 0 [9, 10])).2 =
        (restore (header 1 0) (.raw [1, 2, 3, 4, 5, 6, 7, 8, 9, 10]), .reassembled) :=
    process_two 1 ⟨rfl, rfl⟩ ⟨rfl, rfl⟩ rfl ⟨nofun, nofun⟩ rfl
  have answer := congrArg Prod.snd joined
  rcases serialize_iff_fits 1 [.process (sent 0x2000 0 [1, 2, 3, 4, 5, 6, 7, 8])] parsed answer with
    ⟨ip, payload, parts, last, inner, whole, _, _, _, _, _, changed, fits⟩
  have same : restore ip inner = restore (header 1 0) (.raw [1, 2, 3, 4, 5, 6, 7, 8, 9, 10]) :=
    changed.symm.trans (congrArg Prod.fst joined)
  injection whole with header_eq
  injection header_eq with header_eq
  injection same with _ content
  refine ⟨parsed, answer, fits.mpr ?_⟩
  rw [← header_eq, content, headerSize_header]
  decide

/-- The first fragment takes 65532 bytes, the second one 24 bytes. Together they carry 65516. -/
def front : Bytes := List.replicate 65512 0

def back : Bytes := [1, 2, 3, 4]

/-- Both fragments are read from less than 65536 bytes and put together, but the datagram cannot be
written. -/
theorem joined_unwritten :
    (wire 0x2000 0x05fb front).length = 65532 ∧ (wire 8189 0x05e3 back).length = 24 ∧
      Packet.parse .ipv4 (wire 0x2000 0x05fb front) = .ok (sent 0x2000 0x05fb front) ∧
      Packet.parse .ipv4 (wire 8189 0x05e3 back) = .ok (sent 8189 0x05e3 back) ∧
      (((new 1).callAll [.process (sent 0x2000 0x05fb front)]).process (sent 8189 0x05e3 back)).2 =
        (restore (header 8189 0x05e3) (.raw (front ++ back)), .reassembled) ∧
      ¬ ∃ written,
        (restore (header 8189 0x05e3) (.raw (front ++ back))).serialize = .ok written := by
  have size : front.length = 65512 := List.length_replicate
  have filled : front ≠ [] := List.ne_nil_of_length_pos (by rw [size]; decide)
  refine ⟨?_, ?_, parse_wire rfl filled ?_, parse_wire rfl nofun (by decide), ?_, ?_⟩
  · rw [wire, Ipv4.length_written, headerSize_header, size]
  · rfl
  · rw [size]
    decide
  · exact process_two 1 ⟨rfl, rfl⟩ ⟨by rw [size]; rfl, rfl⟩ rfl ⟨filled, nofun⟩ rfl
  · have reads : (header 8189 0x05e3).protocol.Reads (front ++ back) (.raw (front ++ back)) := rfl
    rw [serialize_restore_iff (Nat.zero_le _) reads, headerSize_header]
    rw [Packet.totalSize_raw, List.length_append, size]
    decide

end TwoFragments

end Reassembler

end PacketStack
