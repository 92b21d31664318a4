import PacketStack.Proofs.Application.DnsName
import PacketStack.Proofs.Application.DnsWalk

/-!
Names of hosts, whose labels are made of letters, digits and hyphens.

Main statements: by `hostname_of_read` such a name is read wherever the labels on its way are such,
it has the labels and the size that `labels_ofLabels` and `Hostname.size_le` say, and by
`Hostname.plain` nothing but its size can keep it from being written.
-/

namespace PacketStack.DnsName

section Labels

variable {label : Bytes} {labels : List Bytes}

theorem utf8_ofLabels_cons (more : labels ≠ []) :
    (ofLabels (label :: labels)).utf8 = label ++ point :: (ofLabels labels).utf8 := by
  rcases List.exists_cons_of_ne_nil more with ⟨next, rest, rfl⟩
  rw [ofLabels, List.intersperse_cons_cons, List.flatten_cons, List.flatten_cons]
  rfl

theorem utf8_ofLabels_singleton (label : Bytes) : (ofLabels [label]).utf8 = label :=
  List.append_nil label

theorem split_append_point (front rest : Bytes) :
    split (front ++ point :: rest) = split front ++ split rest := by
  induction front with
  | nil => exact (split.eq_2 point rest).trans (if_pos rfl)
  | cons byte front ih =>
      rw [List.cons_append, split, split]
      split
      · rw [ih, List.cons_append]
      · rcases List.exists_cons_of_ne_nil (split_ne_nil front) with ⟨label, labels, behind⟩
        rw [ih, behind]
        rfl

theorem split_ofLabels (some : labels ≠ []) :
    split (ofLabels labels).utf8 = labels.flatMap split := by
  induction labels with
  | nil => exact absurd rfl some
  | cons label labels ih =>
      by_cases more : labels = []
      · rw [more, utf8_ofLabels_singleton, List.flatMap_cons, List.flatMap_nil, List.append_nil]
      · rw [utf8_ofLabels_cons more, split_append_point, ih more, List.flatMap_cons]

theorem split_of_whole (whole : point ∉ label) : split label = [label] := by
  have none : split [] = [[]] := rfl
  have pieces := split_append whole none
  rwa [List.append_nil] at pieces

theorem length_ofLabels (some : labels ≠ []) :
    (ofLabels labels).utf8.length + 1 = sizeSum (fun label => label.length + 1) labels := by
  induction labels with
  | nil => exact absurd rfl some
  | cons label labels ih =>
      by_cases more : labels = []
      · rw [more, utf8_ofLabels_singleton]
        rfl
      · rw [utf8_ofLabels_cons more, List.length_append, List.length_cons, sizeSum, ← ih more]
        omega

theorem length_le_of_mem (member : label ∈ labels) :
    label.length ≤ (ofLabels labels).utf8.length := by
  induction labels with
  | nil => cases member
  | cons first labels ih =>
      by_cases more : labels = []
      · rw [more] at member ⊢
        rw [utf8_ofLabels_singleton, List.mem_singleton.mp member]
      · rw [utf8_ofLabels_cons more, List.length_append, List.length_cons]
        rcases List.mem_cons.mp member with rfl | later
        · omega
        · have small := ih later
          omega

theorem utf8_ne_nil_of_mem (member : label ∈ labels) (filled : label ≠ []) :
    (ofLabels labels).utf8 ≠ [] := by
  intro empty
  have small := length_le_of_mem member
  rw [empty, List.length_nil] at small
  exact filled (List.eq_nil_of_length_eq_zero (Nat.le_zero.mp small))

theorem length_le_of_mem_split {bytes : Bytes} (member : label ∈ split bytes) :
    label.length ≤ bytes.length := by
  have small := length_le_of_mem member
  rwa [ofLabels, flatten_intersperse_split] at small

theorem mem_ofLabels {byte : UInt8} (inside : byte ∈ label) (member : label ∈ labels) :
    byte ∈ (ofLabels labels).utf8 := by
  induction labels with
  | nil => cases member
  | cons first labels ih =>
      by_cases more : labels = []
      · rw [more] at member ⊢
        rwa [utf8_ofLabels_singleton, ← List.mem_singleton.mp member]
      · rw [utf8_ofLabels_cons more, List.mem_append, List.mem_cons]
        rcases List.mem_cons.mp member with rfl | later
        · exact Or.inl inside
        · exact Or.inr (Or.inr (ih later))

theorem mem_of_mem_ofLabels {byte : UInt8} (inside : byte ∈ (ofLabels labels).utf8) :
    byte = point ∨ ∃ label ∈ labels, byte ∈ label := by
  induction labels with
  | nil => cases inside
  | cons first labels ih =>
      by_cases more : labels = []
      · rw [more, utf8_ofLabels_singleton] at inside
        exact Or.inr ⟨first, List.mem_cons_self, inside⟩
      · rw [utf8_ofLabels_cons more, List.mem_append, List.mem_cons] at inside
        rcases inside with front | between | behind
        · exact Or.inr ⟨first, List.mem_cons_self, front⟩
        · exact Or.inl between
        · rcases ih behind with between | ⟨label, member, inside⟩
          · exact Or.inl between
          · exact Or.inr ⟨label, List.mem_cons_of_mem _ member, inside⟩

theorem trimmed_of_getLast? {name : DnsName}
    (last : ∀ byte, name.utf8.getLast? = some byte → byte ≠ point) : name.trimmed = name.utf8 := by
  rw [trimmed]
  cases turned : name.utf8.reverse with
  | nil =>
      rw [List.reverse_eq_nil_iff.mp turned]
      rfl
  | cons byte rest =>
      have other : byte ≠ point := last byte (by
        rw [List.getLast?_eq_head?_reverse, turned]
        rfl)
      rw [List.dropWhile_cons_of_neg (by simpa using other), ← turned, List.reverse_reverse]

end Labels

/-- Letters, digits and the hyphen. -/
def isHostByte (byte : UInt8) : Bool :=
  (0x30 ≤ byte && byte ≤ 0x39) || (0x41 ≤ byte && byte ≤ 0x5a) ||
    (0x61 ≤ byte && byte ≤ 0x7a) || byte == 0x2d

def HostLabel (label : Bytes) : Prop := label ≠ [] ∧ ∀ byte ∈ label, isHostByte byte = true

/-- A name of labels of letters, digits and hyphens. -/
def Hostname (name : DnsName) : Prop :=
  ∃ labels, name = ofLabels labels ∧ ∀ label ∈ labels, HostLabel label

def Readable (name : DnsName) : Prop :=
  ∃ labels, name = ofLabels (labels.map shown) ∧
    (∀ label ∈ labels, label.length ≤ maximumLabel) ∧
      sizeSum (fun label => label.length + 1) labels ≤ maximumSize

theorem readable_of_read {message : Bytes} {offset stop : Nat} {name : DnsName}
    (found : read message offset = .ok (name, stop)) : name.Readable := by
  rcases exists_walk_of_read message offset with ⟨moves, last, walk, ⟨_, same⟩ | ⟨flaw, _, same⟩⟩
  · rw [found] at same
    cases same
    have measured := walk.size_le (Nat.zero_le _)
    rw [Place.start, Nat.zero_add] at measured
    exact ⟨labelsOf moves, rfl, fun label => walk.length_le, measured⟩
  · rw [found] at same
    cases same

theorem ascii_of_isHostByte {byte : UInt8} (host : isHostByte byte = true) :
    byte.toNat < 0x80 ∧ byte ≠ point := by
  simp only [isHostByte, point, Bool.or_eq_true, Bool.and_eq_true, decide_eq_true_eq, beq_iff_eq,
    UInt8.le_iff_toNat_le, ← UInt8.toNat_inj, ne_eq, UInt8.reduceToNat] at host ⊢
  omega

theorem hostLabels_of_all {labels : List Bytes}
    (all : (labels.all fun label => !label.isEmpty && label.all isHostByte) = true) :
    ∀ label ∈ labels, HostLabel label := by
  intro label member
  have both := List.all_eq_true.mp all label member
  simp only [Bool.and_eq_true, Bool.not_eq_true', List.isEmpty_eq_false_iff] at both
  exact ⟨both.1, List.all_eq_true.mp both.2⟩

theorem HostLabel.shown_eq {label : Bytes} (host : HostLabel label) : shown label = label :=
  Text.Utf8.encode_decodeLossy_of_ascii fun byte inside =>
    (ascii_of_isHostByte (host.2 byte inside)).1

theorem hostname_of_read {message : Bytes} {offset stop : Nat} {name : DnsName}
    (found : read message offset = .ok (name, stop))
    (hosts : ∀ moves last, Walk message (.start offset) moves last →
      ∀ label ∈ labelsOf moves, HostLabel label) : name.Hostname := by
  rcases exists_walk_of_read message offset with ⟨moves, last, walk, ⟨_, same⟩ | ⟨flaw, _, same⟩⟩
  · rw [found] at same
    cases same
    have kept : (labelsOf moves).map shown = (labelsOf moves).map id :=
      List.map_congr_left fun label member => (hosts moves last walk label member).shown_eq
    rw [kept, List.map_id]
    exact ⟨_, rfl, hosts moves last walk⟩
  · rw [found] at same
    cases same

theorem HostLabel.whole {label : Bytes} (host : HostLabel label) : point ∉ label := fun inside =>
  (ascii_of_isHostByte (host.2 point inside)).2 rfl

section Hostname

variable {labels : List Bytes} (hosts : ∀ label ∈ labels, HostLabel label)

include hosts

theorem ascii_ofLabels : Text.Utf8.Ascii (ofLabels labels).utf8 := by
  intro byte inside
  rcases mem_of_mem_ofLabels inside with rfl | ⟨label, member, inside⟩
  · decide
  · exact (ascii_of_isHostByte ((hosts label member).2 byte inside)).1

theorem getLast?_ofLabels {byte : UInt8} (last : (ofLabels labels).utf8.getLast? = some byte) :
    byte ≠ point := by
  induction labels with
  | nil => cases last
  | cons first labels ih =>
      by_cases more : labels = []
      · rw [more, utf8_ofLabels_singleton] at last
        rintro rfl
        exact (hosts first List.mem_cons_self).whole (List.mem_of_getLast? last)
      · rcases List.exists_cons_of_ne_nil more with ⟨next, rest, rfl⟩
        have others : ∀ label ∈ next :: rest, HostLabel label := fun label member =>
          hosts label (List.mem_cons_of_mem _ member)
        have filled : (ofLabels (next :: rest)).utf8 ≠ [] :=
          utf8_ne_nil_of_mem List.mem_cons_self (others next List.mem_cons_self).1
        rw [utf8_ofLabels_cons more, List.getLast?_append, List.getLast?_cons_of_ne_nil filled,
          List.getLast?_eq_some_getLast filled, Option.some_or,
          ← List.getLast?_eq_some_getLast filled] at last
        exact ih others last

theorem trimmed_ofLabels : (ofLabels labels).trimmed = (ofLabels labels).utf8 :=
  trimmed_of_getLast? fun _ => getLast?_ofLabels hosts

theorem flatMap_split : labels.flatMap split = labels := by
  induction labels with
  | nil => rfl
  | cons label labels ih =>
      rw [List.flatMap_cons, split_of_whole (hosts label List.mem_cons_self).whole,
        ih fun other member => hosts other (List.mem_cons_of_mem _ member)]
      rfl

theorem labels_ofLabels : (ofLabels labels).labels = labels := by
  rw [DnsName.labels, trimmed_ofLabels hosts]
  by_cases some : labels = []
  · rw [some]
    rfl
  · rcases List.exists_mem_of_ne_nil _ some with ⟨label, member⟩
    have filled := utf8_ne_nil_of_mem member (hosts label member).1
    rw [if_neg (by simpa using filled), split_ofLabels some, flatMap_split hosts]

end Hostname

namespace Hostname

variable {name : DnsName}

theorem exists_labels (host : name.Hostname) (readable : name.Readable) : ∃ hosts labels,
    name = ofLabels hosts ∧ (∀ label ∈ hosts, HostLabel label) ∧ name = ofLabels labels ∧
      (hosts ≠ [] → labels ≠ []) ∧ (∀ label ∈ labels, label.length ≤ maximumLabel) ∧
        sizeSum (fun label => label.length + 1) labels ≤ maximumSize := by
  -- The labels that were read have the same text, but they may be fewer, since a label may hold
  -- points.
  rcases host with ⟨hosts, named, each⟩
  rcases readable with ⟨labels, same, short, room⟩
  have ascii : Text.Utf8.Ascii name.utf8 := by
    rw [named]
    exact ascii_ofLabels each
  have plain : labels.map shown = labels.map id := by
    refine List.map_congr_left fun label member => ?_
    apply Text.Utf8.encode_decodeLossy_of_ascii
    apply Text.Utf8.ascii_of_encode_decodeLossy
    intro byte inside
    apply ascii
    rw [same]
    exact mem_ofLabels inside (List.mem_map_of_mem member)
  rw [plain, List.map_id] at same
  refine ⟨hosts, labels, named, each, same, ?_, short, room⟩
  rintro some rfl
  rcases List.exists_mem_of_ne_nil _ some with ⟨label, member⟩
  refine utf8_ne_nil_of_mem member (each label member).1 ?_
  rw [← named, same]
  rfl

theorem labels_length (host : name.Hostname) (readable : name.Readable) :
    ∀ label ∈ name.labels, 1 ≤ label.length ∧ label.length ≤ maximumLabel := by
  rcases host.exists_labels readable with ⟨hosts, labels, named, each, same, filled, short, room⟩
  intro label member
  rw [named, labels_ofLabels each] at member
  have some : hosts ≠ [] := List.ne_nil_of_mem member
  have pieces : labels.flatMap split = hosts := by
    rw [← split_ofLabels (filled some), ← same, named, split_ofLabels some, flatMap_split each]
  refine ⟨List.length_pos_iff.mpr (each label member).1, ?_⟩
  rw [← pieces] at member
  rcases List.mem_flatMap.mp member with ⟨whole, read, piece⟩
  exact Nat.le_trans (length_le_of_mem_split piece) (short whole read)

theorem size_le (host : name.Hostname) (readable : name.Readable) :
    name.size ≤ maximumSize + 1 := by
  rcases host.exists_labels readable with ⟨hosts, labels, named, each, same, filled, short, room⟩
  rw [size, named, labels_ofLabels each]
  by_cases none : hosts = []
  · rw [none]
    exact Nat.succ_le_succ (Nat.zero_le _)
  · rw [← length_ofLabels none, ← named, same, length_ofLabels (filled none)]
    exact Nat.succ_le_succ room

theorem plain (host : name.Hostname) (readable : name.Readable)
    (short : name.size ≤ maximumSize) : name.Plain where
  text := by
    rcases host with ⟨hosts, rfl, each⟩
    refine ⟨Text.Utf8.decodeLossy (ofLabels hosts).utf8, ?_⟩
    rw [ofText, Text.Utf8.encode_decodeLossy_of_ascii (ascii_ofLabels each)]
  trimmed := by
    rcases host with ⟨hosts, rfl, each⟩
    exact trimmed_ofLabels each
  labels := host.labels_length readable
  size := short

end Hostname

end PacketStack.DnsName
