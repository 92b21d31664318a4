import PacketStack.Proofs.Checked.Messages

/-!
The way which the reading of a name takes through a message.

A name is read in turns: after a label it goes on behind the label, after a pointer at the target.
Main statement: `read_bounded_and_local` limits the labels and pointers of every way, and says where
the way ends and what is read on it.
-/

namespace PacketStack

theorem Bytes.length_of_range? {bytes part : Bytes} {start stop : Nat}
    (there : bytes.range? start stop = some part) : part.length = stop - start := by
  unfold range? at there
  split at there
  · rename_i inside
    cases there
    rw [length_window]
    omega
  · cases there

namespace DnsName

/-- Where a name is read, with the size of the labels and the number of the pointers up to there. -/
structure Place where
  offset : Nat
  size : Nat
  pointers : Nat

namespace Place

def start (offset : Nat) : Place := ⟨offset, 0, 0⟩

def behind (place : Place) (label : Bytes) : Place :=
  ⟨place.offset + 1 + label.length, place.size + label.length + 1, place.pointers⟩

def jump (place : Place) (target : Nat) : Place := ⟨target, place.size, place.pointers + 1⟩

end Place

/-- What is found at a place. -/
inductive Turn where
  | refused (flaw : DnsNameFlaw)
  | ended
  | label (bytes : Bytes)
  | pointer (target : Nat)

def turn (message : Bytes) (place : Place) : Turn :=
  match message[place.offset]? with
  | none => .refused .truncated
  | some length =>
      if length = 0 then .ended
      else if length < 0x40 then
        match message.range? (place.offset + 1) (place.offset + 1 + length.toNat) with
        | none => .refused .labelTruncated
        | some label =>
            if maximumSize < place.size + length.toNat + 1 then .refused .tooLong
            else .label label
      else if 0xc0 ≤ length then
        match message[place.offset + 1]? with
        | none => .refused .pointerTruncated
        | some low =>
            if maximumPointers < place.pointers + 1 then .refused .compressionLoop
            else
              let target := 256 * (length.toNat - 0xc0) + low.toNat
              if target < 12 ∨ message.length ≤ target then .refused .pointerOutOfRange
              else .pointer target
      else .refused .unsupportedLabel

/-- A turn that the reading goes on after, a pointer with its own offset. -/
inductive Move where
  | label (bytes : Bytes)
  | pointer (offset target : Nat)

def Move.label? : Move → Option Bytes
  | .label bytes => some bytes
  | .pointer _ _ => none

def Move.pointer? : Move → Option Nat
  | .label _ => none
  | .pointer offset _ => some offset

def labelsOf (moves : List Move) : List Bytes := moves.filterMap Move.label?

/-- The offsets of the pointers that are followed. -/
def pointersOf (moves : List Move) : List Nat := moves.filterMap Move.pointer?

/-- The moves from one place of a message to another. -/
inductive Walk (message : Bytes) : Place → List Move → Place → Prop
  | stay (place : Place) : Walk message place [] place
  | label {place last : Place} {label : Bytes} {moves : List Move}
      (found : turn message place = .label label)
      (rest : Walk message (place.behind label) moves last) :
      Walk message place (.label label :: moves) last
  | pointer {place last : Place} {target : Nat} {moves : List Move}
      (found : turn message place = .pointer target)
      (rest : Walk message (place.jump target) moves last) :
      Walk message place (.pointer place.offset target :: moves) last

/-- The offset behind the part of a name that stands where its reading begins: it ends with the
first pointer, or with the zero where the name does. -/
def stopOf (moves : List Move) (last : Place) : Nat :=
  match pointersOf moves with
  | [] => last.offset + 1
  | first :: _ => first + 2

/-- The bytes of the text of a label. -/
def shown (label : Bytes) : Bytes := Text.Utf8.encode (Text.Utf8.decodeLossy label)

def Answers (message : Bytes) (moves : List Move) (last : Place)
    (outcome : Outcome (List Bytes × Nat)) : Prop :=
  match turn message last with
  | .ended => outcome = .ok ((labelsOf moves).map shown, stopOf moves last)
  | .refused flaw => outcome = .malformed (.dnsName flaw)
  | .label _ | .pointer _ => False

section Turn

variable {message : Bytes} {place : Place}

theorem size_of_label {label : Bytes} (found : turn message place = .label label) :
    place.size + label.length + 1 ≤ maximumSize := by
  unfold turn at found
  grind [Bytes.length_of_range?]

theorem length_of_label {label : Bytes} (found : turn message place = .label label) :
    label.length ≤ maximumLabel := by
  unfold turn at found
  grind [Bytes.length_of_range?, maximumLabel, UInt8.lt_iff_toNat_lt]

theorem pointers_of_pointer {target : Nat} (found : turn message place = .pointer target) :
    place.pointers + 1 ≤ maximumPointers := by
  unfold turn at found
  grind

theorem zero_of_ended (found : turn message place = .ended) :
    message[place.offset]? = some 0 := by
  unfold turn at found
  grind

theorem readLabels_eq (message : Bytes) (place : Place) :
    readLabels message place.offset place.size place.pointers =
      match turn message place with
      | .refused flaw => .malformed (.dnsName flaw)
      | .ended => .ok ([], place.offset + 1)
      | .label label => do
          let next := place.behind label
          let (labels, stop) ← readLabels message next.offset next.size next.pointers
          return (shown label :: labels, stop)
      | .pointer target => do
          let next := place.jump target
          let (labels, _) ← readLabels message next.offset next.size next.pointers
          return (labels, place.offset + 2) := by
  rw [readLabels, turn]
  cases there : message[place.offset]? with
  | none => rfl
  | some length =>
      simp only
      by_cases zero : length = 0
      · rw [if_pos zero, if_pos zero]
      · rw [if_neg zero, if_neg zero]
        by_cases short : length < 0x40
        · rw [if_pos short, if_pos short]
          cases cut : message.range? (place.offset + 1) (place.offset + 1 + length.toNat) with
          | none => rfl
          | some label =>
              have whole : length.toNat = label.length := by
                have cutLength := Bytes.length_of_range? cut
                omega
              simp only [whole]
              split <;> rfl
        · rw [if_neg short, if_neg short]
          by_cases pointer : 0xc0 ≤ length
          · rw [if_pos pointer, if_pos pointer]
            cases message[place.offset + 1]? with
            | none => rfl
            | some low =>
                simp only
                split
                · rfl
                · split <;> rfl
          · rw [if_neg pointer, if_neg pointer]

end Turn

namespace Walk

variable {message : Bytes} {place last : Place} {moves : List Move}

theorem size_le (walk : Walk message place moves last) (small : place.size ≤ maximumSize) :
    place.size + sizeSum (fun label => label.length + 1) (labelsOf moves) ≤ maximumSize := by
  induction walk with
  | stay place => exact small
  | @label place last label moves found rest ih =>
      have counted : place.size + label.length + 1 + _ ≤ maximumSize := ih (size_of_label found)
      simp only [labelsOf, List.filterMap_cons, Move.label?, sizeSum] at counted ⊢
      omega
  | pointer found rest ih => exact ih small

theorem length_le (walk : Walk message place moves last) {label : Bytes}
    (member : label ∈ labelsOf moves) : label.length ≤ maximumLabel := by
  induction walk with
  | stay place => cases member
  | label found rest ih =>
      rcases List.mem_cons.mp member with rfl | later
      · exact length_of_label found
      · exact ih later
  | pointer found rest ih => exact ih member

theorem pointers_le (walk : Walk message place moves last)
    (few : place.pointers ≤ maximumPointers) :
    place.pointers + (pointersOf moves).length ≤ maximumPointers := by
  induction walk with
  | stay place => exact few
  | label found rest ih => exact ih few
  | @pointer place last target moves found rest ih =>
      have counted : place.pointers + 1 + _ ≤ maximumPointers := ih (pointers_of_pointer found)
      simp only [pointersOf, List.filterMap_cons, Move.pointer?, List.length_cons] at counted ⊢
      omega

theorem lt_stopOf (walk : Walk message place moves last) : place.offset < stopOf moves last := by
  induction walk with
  | stay place => exact Nat.lt_succ_self _
  | @label place last label moves found rest ih =>
      have further : place.offset + 1 + label.length < stopOf moves last := ih
      have same : stopOf (.label label :: moves) last = stopOf moves last := rfl
      omega
  | pointer found rest ih => exact Nat.lt_add_of_pos_right (Nat.succ_pos _)

end Walk

theorem Answers.label {message : Bytes} {moves : List Move} {last : Place}
    {outcome : Outcome (List Bytes × Nat)} (answers : Answers message moves last outcome)
    (label : Bytes) : Answers message (.label label :: moves) last (do
      let (labels, stop) ← outcome
      return (shown label :: labels, stop)) := by
  unfold Answers at answers ⊢
  split at answers
  · rw [answers]
    rfl
  · rw [answers]
    rfl
  · exact answers
  · exact answers

theorem Answers.pointer {message : Bytes} {moves : List Move} {last : Place}
    {outcome : Outcome (List Bytes × Nat)} (answers : Answers message moves last outcome)
    (offset target : Nat) : Answers message (.pointer offset target :: moves) last (do
      let (labels, _) ← outcome
      return (labels, offset + 2)) := by
  unfold Answers at answers ⊢
  split at answers
  · rw [answers]
    rfl
  · rw [answers]
    rfl
  · exact answers
  · exact answers

theorem exists_walk (message : Bytes) (place : Place) : ∃ moves last,
    Walk message place moves last ∧ Answers message moves last
      (readLabels message place.offset place.size place.pointers) := by
  -- With each turn one of the two limits comes nearer, so the turns end wherever the pointers lead.
  rw [readLabels_eq]
  cases found : turn message place with
  | refused flaw => exact ⟨[], place, .stay place, by rw [Answers, found]⟩
  | ended => exact ⟨[], place, .stay place, by rw [Answers, found]; rfl⟩
  | label label =>
      have limit := size_of_label found
      rcases exists_walk message (place.behind label) with ⟨moves, last, walk, answers⟩
      exact ⟨_, last, .label found walk, answers.label label⟩
  | pointer target =>
      have limit := pointers_of_pointer found
      rcases exists_walk message (place.jump target) with ⟨moves, last, walk, answers⟩
      exact ⟨_, last, .pointer found walk, answers.pointer place.offset target⟩
termination_by (maximumSize + 1 - place.size) + (maximumPointers + 1 - place.pointers)
decreasing_by
  · simp only [Place.behind]
    omega
  · simp only [Place.jump]
    omega

theorem exists_walk_of_read (message : Bytes) (offset : Nat) : ∃ moves last,
    Walk message (.start offset) moves last ∧
      ((turn message last = .ended ∧
          read message offset =
            .ok (ofLabels ((labelsOf moves).map shown), stopOf moves last)) ∨
        ∃ flaw, turn message last = .refused flaw ∧
          read message offset = .malformed (.dnsName flaw)) := by
  rcases exists_walk message (.start offset) with ⟨moves, last, walk, answers⟩
  have same : read message offset = (readLabels message offset 0 0 >>= fun found =>
      .ok (ofLabels found.1, found.2)) := rfl
  refine ⟨moves, last, walk, ?_⟩
  unfold Answers at answers
  split at answers
  · rename_i ended
    exact Or.inl ⟨ended, by rw [same, show readLabels message offset 0 0 = _ from answers]; rfl⟩
  · rename_i flaw refused
    exact Or.inr ⟨flaw, refused,
      by rw [same, show readLabels message offset 0 0 = _ from answers]; rfl⟩
  · exact answers.elim
  · exact answers.elim

theorem lt_of_read {message : Bytes} {offset stop : Nat} {name : DnsName}
    (found : read message offset = .ok (name, stop)) : offset < stop := by
  rcases exists_walk_of_read message offset with ⟨moves, last, walk, ⟨_, same⟩ | ⟨flaw, _, same⟩⟩
  · have further : offset < stopOf moves last := walk.lt_stopOf
    rw [found] at same
    cases same
    exact further
  · rw [found] at same
    cases same

open DnsReader (Inside)

/-- On every way through a message the pointers and the labels keep to their limits, and the reading
of a name takes such a way up to a place where it ends or is refused. A name ends in the message
behind where it begins: behind the first pointer on the way, or else behind the zero at the end. So
a reader that starts in a message stays in it, and a message takes a front part of the bytes that it
is read from. -/
theorem read_bounded_and_local (message : Bytes) (offset : Nat) :
    (∀ moves last, Walk message (.start offset) moves last →
      (pointersOf moves).length ≤ 64 ∧
        sizeSum (fun label => label.length + 1) (labelsOf moves) ≤ 255) ∧
    (∃ moves last, Walk message (.start offset) moves last ∧
      ((turn message last = .ended ∧ message[last.offset]? = some 0 ∧
          read message offset =
            .ok (ofLabels ((labelsOf moves).map shown), stopOf moves last)) ∨
        ∃ flaw, turn message last = .refused flaw ∧
          read message offset = .malformed (.dnsName flaw))) ∧
    (∀ name stop, read message offset = .ok (name, stop) →
      offset < stop ∧ stop ≤ message.length) ∧
    (offset ≤ message.length →
      (∀ size, Inside message (DnsReader.take size message offset)) ∧
        Inside message (DnsReader.name message offset) ∧
        ∀ count, Inside message (DnsReader.many DnsReader.query count message offset) ∧
          Inside message (DnsReader.many DnsReader.record count message offset)) ∧
    ∀ decoded, Dns.decode message = .ok decoded →
      ∃ stop, stop ≤ message.length ∧ Dns.reader message 0 = .ok (decoded.header, stop) ∧
        message = message.take stop ++ decoded.payload := by
  refine ⟨?_, ?_, ?_, ?_, ?_⟩
  · intro moves last walk
    have counted := walk.pointers_le (Nat.zero_le _)
    have measured := walk.size_le (Nat.zero_le _)
    simp only [Place.start, Nat.zero_add] at counted measured
    exact ⟨counted, measured⟩
  · rcases exists_walk_of_read message offset with ⟨moves, last, walk, ⟨ended, found⟩ | refused⟩
    · exact ⟨moves, last, walk, Or.inl ⟨ended, zero_of_ended ended, found⟩⟩
    · exact ⟨moves, last, walk, Or.inr refused⟩
  · intro name stop found
    exact ⟨lt_of_read found, (DnsReader.inside_readName message offset).stop_le name stop found⟩
  · intro inside
    exact ⟨fun size => DnsReader.within_take size message offset inside,
      DnsReader.within_name message offset inside, fun count =>
        ⟨DnsReader.within_many DnsReader.within_query count message offset inside,
          DnsReader.within_many DnsReader.within_record count message offset inside⟩⟩
  · intro decoded read
    rcases Dns.decode_eq_ok.mp read with ⟨_, stop, inside, found, same⟩
    refine ⟨stop, inside, found, ?_⟩
    rw [same, List.take_append_drop]

end DnsName

end PacketStack
