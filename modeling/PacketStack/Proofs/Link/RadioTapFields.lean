import Mathlib.Data.List.Forall2
import PacketStack.Proofs.Header.Bits
import PacketStack.Proofs.Link.RadioTap

/-!
Headers of capturing radios laid out from the values of their fields.

Main statement: `decode_header` says that such a header is read, whichever fields are there, and
that each field holds the value it was laid out with.
-/

namespace PacketStack.RadioTap

open Bytes

/-- The values of the fields, in the order of their bits. -/
structure Fields where
  timestamp : Option UInt64
  flags : Option Flags
  rate : Option UInt8
  channel : Option (UInt16 × UInt16)
  hopping : Option (Octets 2)
  signal : Option Int8
  noise : Option Int8
  lockQuality : Option (Octets 2)
  attenuation : Option (Octets 2)
  attenuationDecibel : Option (Octets 2)
  power : Option (Octets 1)
  antenna : Option UInt8
  signalDecibel : Option (Octets 1)
  noiseDecibel : Option (Octets 1)
  receiveFlags : Option (Octets 2)

def Fields.slots (fields : Fields) : List (Option Bytes) := [
  fields.timestamp.map fun time => ofNatLE 8 time.toNat,
  fields.flags.map fun flags => [flags.bits],
  fields.rate.map fun rate => [rate],
  fields.channel.map fun channel => ofNatLE 2 channel.1.toNat ++ ofNatLE 2 channel.2.toNat,
  fields.hopping.map Octets.bytes,
  fields.signal.map fun signal => [signal.toUInt8],
  fields.noise.map fun noise => [noise.toUInt8],
  fields.lockQuality.map Octets.bytes,
  fields.attenuation.map Octets.bytes,
  fields.attenuationDecibel.map Octets.bytes,
  fields.power.map Octets.bytes,
  fields.antenna.map fun antenna => [antenna],
  fields.signalDecibel.map Octets.bytes,
  fields.noiseDecibel.map Octets.bytes,
  fields.receiveFlags.map Octets.bytes]

def presence : List (Option Bytes) → Nat
  | [] => 0
  | slot :: rest => slot.isSome.toNat + 2 * presence rest

def place (offset : Nat) : List (Nat × Nat) → List (Option Bytes) → Bytes
  | (_, alignment) :: layout, some value :: slots =>
      List.replicate (align alignment offset - offset) 0 ++
        (value ++ place (align alignment offset + value.length) layout slots)
  | _ :: layout, none :: slots => place offset layout slots
  | _, _ => []

def chain : List Nat → Bytes
  | [] => []
  | word :: rest => ofNatLE 4 (word + if rest.isEmpty then 0 else 0x80000000) ++ chain rest

/-- What a header is made of. -/
structure Content where
  version : UInt8
  padding : UInt8
  fields : Fields
  /-- The bits of the first word behind those of the fields. -/
  reserved : BitVec 16
  /-- The words behind the first one. -/
  further : List (BitVec 31)
  /-- The bytes behind the fields. -/
  following : Bytes

namespace Content

def first (content : Content) : Nat :=
  presence content.fields.slots + 0x8000 * content.reserved.toNat

def words (content : Content) : Bytes :=
  chain (content.first :: content.further.map BitVec.toNat)

/-- The header from its first word on. -/
def body (content : Content) : Bytes :=
  content.words ++
    (place (4 + content.words.length) fieldLayout content.fields.slots ++ content.following)

def header (content : Content) : Bytes :=
  content.version :: content.padding :: (ofNatLE 2 (4 + content.body.length) ++ content.body)

end Content

theorem testBit_presence (slots : List (Option Bytes)) (bit : Nat) :
    (presence slots).testBit bit = (slots.getD bit none).isSome := by
  induction slots generalizing bit with
  | nil => simp [presence]
  | cons slot rest ih =>
      have low : slot.isSome.toNat < 2 := Bool.toNat_lt slot.isSome
      cases bit with
      | zero =>
          have odd : (slot.isSome.toNat + 2 * presence rest) % 2 = slot.isSome.toNat := by omega
          rw [presence, Nat.testBit_zero, odd, List.getD_cons_zero]
          cases slot.isSome <;> rfl
      | succ bit =>
          have half : (slot.isSome.toNat + 2 * presence rest) / 2 = presence rest := by omega
          rw [presence, Nat.testBit_succ, half, ih, List.getD_cons_succ]

theorem presence_lt (slots : List (Option Bytes)) : presence slots < 2 ^ slots.length := by
  induction slots with
  | nil => exact Nat.one_pos
  | cons slot rest ih =>
      have low : slot.isSome.toNat < 2 := Bool.toNat_lt slot.isSome
      rw [presence, List.length_cons, Nat.pow_succ]
      omega

@[simp] theorem length_chain (words : List Nat) : (chain words).length = 4 * words.length := by
  induction words with
  | nil => rfl
  | cons word rest ih =>
      rw [chain, List.length_append, length_ofNatLE, ih, List.length_cons]
      omega

theorem afterWords?_word {word : Nat} (small : word < 2 ^ 31) (last : Bool) (front rest : Bytes) :
    let bytes := front ++ (ofNatLE 4 (word + if last then 0 else 0x80000000) ++ rest)
    afterWords? bytes front.length =
      if last then some (front.length + 4) else afterWords? bytes (front.length + 4) := by
  intro bytes
  have inside : ¬ bytes.length < front.length + 4 := by
    simp only [bytes, List.length_append, length_ofNatLE]
    omega
  have value : toNatLE (bytes.window front.length 4) =
      2 ^ 31 * (!last).toNat + word := by
    rw [window_append_right _ _ _ _ (Nat.le_refl _), Nat.sub_self,
      window_append_left _ _ _ (length_ofNatLE 4 _), toNatLE_ofNatLE, valueCount_eq]
    cases last with
    | false => exact (Nat.mod_eq_of_lt (by simp; omega)).trans (Nat.add_comm _ _)
    | true => exact (Nat.mod_eq_of_lt (by simp; omega)).trans (Nat.zero_add _).symm
  rw [afterWords?, if_neg inside, value, Nat.testBit_two_pow_mul_add _ small,
    if_neg (Nat.lt_irrefl _)]
  cases last <;> rfl

theorem afterWords?_chain {word : Nat} {words : List Nat} (front rest : Bytes)
    (small : ∀ each ∈ word :: words, each < 2 ^ 31) :
    afterWords? (front ++ (chain (word :: words) ++ rest)) front.length =
      some (front.length + (chain (word :: words)).length) := by
  have step := afterWords?_word (small word List.mem_cons_self) words.isEmpty front
    (chain words ++ rest)
  rw [← List.append_assoc (ofNatLE 4 _), ← chain] at step
  rw [step]
  -- On the words behind the first one.
  induction words generalizing word front with
  | nil => rfl
  | cons next words ih =>
      have others : ∀ each ∈ next :: words, each < 2 ^ 31 :=
        fun each member => small each (List.mem_cons_of_mem _ member)
      obtain ⟨marked, size, split⟩ : ∃ marked : Bytes, marked.length = 4 ∧
          chain (word :: next :: words) = marked ++ chain (next :: words) :=
        ⟨_, length_ofNatLE 4 _, rfl⟩
      have again := afterWords?_word (others next List.mem_cons_self) words.isEmpty
        (front ++ marked) (chain words ++ rest)
      rw [← List.append_assoc (ofNatLE 4 _), ← chain] at again
      have final := again.trans (ih (front ++ marked) others again)
      rw [List.length_append, size, List.append_assoc, ← List.append_assoc marked, ← split] at final
      rw [List.isEmpty_cons, if_neg Bool.false_ne_true, final, split, List.length_append, size,
        Nat.add_assoc]

theorem le_align {alignment : Nat} (positive : 0 < alignment) (offset : Nat) :
    offset ≤ align alignment offset := by
  have split := Nat.div_add_mod (offset + alignment - 1) alignment
  have rest := Nat.mod_lt (offset + alignment - 1) positive
  rw [Nat.mul_comm] at split
  rw [align]
  omega

def Fits (layout : List (Nat × Nat)) (slots : List (Option Bytes)) : Prop :=
  List.Forall₂ (fun entry slot => 0 < entry.2 ∧ ∀ value ∈ slot, value.length = entry.1) layout slots

theorem Fields.fits (fields : Fields) : Fits fieldLayout fields.slots := by
  have channel : ∀ value ∈ fields.channel.map fun channel =>
      ofNatLE 2 channel.1.toNat ++ ofNatLE 2 channel.2.toNat, value.length = 4 := by
    intro value held
    rcases Option.map_eq_some_iff.mp held with ⟨channel, _, rfl⟩
    rw [List.length_append, length_ofNatLE, length_ofNatLE]
  simpa [Fits, fieldLayout, Fields.slots, Octets.length_eq] using channel

theorem locate_of_absent {present bit index offset : Nat} {entry : Nat × Nat}
    {layout : List (Nat × Nat)} (absent : present.testBit index = false) :
    locate present bit index offset (entry :: layout) =
      locate present bit (index + 1) offset layout := by
  simp [locate, absent]

theorem locate_of_present {present bit index offset size alignment : Nat}
    {layout : List (Nat × Nat)} (there : present.testBit index = true) :
    locate present bit index offset ((size, alignment) :: layout) =
      if index = bit then some (align alignment offset, size)
      else locate present bit (index + 1) (align alignment offset + size) layout := by
  simp [locate, there]

theorem range?_append (front part rest : Bytes) :
    (front ++ (part ++ rest)).range? front.length (front.length + part.length) = some part := by
  have inside : front.length ≤ front.length + part.length ∧
      front.length + part.length ≤ (front ++ (part ++ rest)).length := by
    simp only [List.length_append]
    omega
  rw [range?, if_pos inside, Nat.add_sub_cancel_left, window_append_right _ _ _ _ (Nat.le_refl _),
    Nat.sub_self, window_append_left _ _ _ rfl]

theorem locate_place {layout : List (Nat × Nat)} {slots : List (Option Bytes)}
    (fits : Fits layout slots) {present index bit : Nat} {value : Bytes}
    (bits : ∀ position < slots.length,
      present.testBit (index + position) = (slots.getD position none).isSome)
    (held : slots[bit]? = some (some value)) (front rest : Bytes) :
    ∃ start, locate present (index + bit) index front.length layout = some (start, value.length) ∧
      (front ++ (place front.length layout slots ++ rest)).range? start (start + value.length) =
        some value := by
  -- On the table of fields, each placed behind the one before it.
  induction fits generalizing index bit front with
  | nil => cases held
  | @cons entry slot layout slots usable fits ih =>
      rcases entry with ⟨size, alignment⟩
      have here : present.testBit index = slot.isSome := bits 0 (Nat.succ_pos _)
      have next : ∀ position < slots.length,
          present.testBit (index + 1 + position) = (slots.getD position none).isSome := by
        intro position inside
        rw [Nat.add_right_comm, Nat.add_assoc]
        exact bits (position + 1) (Nat.succ_lt_succ inside)
      cases slot with
      | none =>
          cases bit with
          | zero => cases held
          | succ bit =>
              rw [locate_of_absent here, Nat.add_comm bit, ← Nat.add_assoc]
              exact ih next held front
      | some first =>
          have length : first.length = size := usable.2 first rfl
          obtain ⟨gap, start, reach⟩ : ∃ gap, align alignment front.length = front.length + gap ∧
              align alignment front.length - front.length = gap :=
            ⟨_, by have := le_align usable.1 front.length; simp only at this; omega, rfl⟩
          -- The zeros belong to what stands before the field.
          have zeros : (front ++ List.replicate gap (0 : UInt8)).length = front.length + gap := by
            simp
          have shape : front ++ (place front.length ((size, alignment) :: layout)
              (some first :: slots) ++ rest) = front ++ List.replicate gap 0 ++
                (first ++ (place (front.length + gap + first.length) layout slots ++ rest)) := by
            rw [place, reach, start]
            simp only [List.append_assoc]
          rw [locate_of_present here, shape, start, ← zeros]
          cases bit with
          | zero =>
              cases held
              exact ⟨_, (if_pos rfl).trans (by rw [length]), range?_append _ _ _⟩
          | succ bit =>
              have behind : (front ++ List.replicate gap (0 : UInt8) ++ first).length =
                  (front ++ List.replicate gap (0 : UInt8)).length + first.length :=
                List.length_append
              rw [if_neg (by omega), ← length, ← behind, Nat.add_comm bit, ← Nat.add_assoc,
                ← List.append_assoc]
              exact ih next held _

namespace Content

theorem length_header (content : Content) :
    content.header.length = 4 + content.body.length := by
  simp only [Content.header, List.length_cons, List.length_append, length_ofNatLE]
  omega

theorem first_lt (content : Content) : content.first < 2 ^ 31 := by
  have low : presence content.fields.slots < 2 ^ 15 := presence_lt content.fields.slots
  have high := content.reserved.isLt
  rw [Content.first]
  omega

theorem words_lt (content : Content) :
    ∀ word ∈ content.first :: content.further.map BitVec.toNat, word < 2 ^ 31 := by
  intro word member
  rcases List.mem_cons.mp member with rfl | later
  · exact content.first_lt
  · rcases List.mem_map.mp later with ⟨further, _, rfl⟩
    exact further.isLt

theorem exists_front (content : Content) :
    ∃ front : Bytes, front.length = 4 ∧ content.header = front ++ content.body ∧
      front.window 2 2 = ofNatLE 2 (4 + content.body.length) := by
  refine ⟨content.version :: content.padding :: ofNatLE 2 (4 + content.body.length), ?_, rfl, ?_⟩
  · simp
  · rw [window, List.drop_succ_cons, List.drop_succ_cons, List.drop_zero,
      List.take_of_length_le (by simp)]

theorem fieldsOffset?_header (content : Content) :
    fieldsOffset? content.header = some (4 + content.words.length) := by
  rcases content.exists_front with ⟨front, size, split, _⟩
  have ends := afterWords?_chain front (place (4 + content.words.length) fieldLayout
    content.fields.slots ++ content.following) content.words_lt
  rwa [size, ← Content.words, ← Content.body, ← split] at ends

theorem testBit_presentWord (content : Content) {bit : Nat} (low : bit < 15) :
    (presentWord content.header).testBit bit = (content.fields.slots.getD bit none).isSome := by
  rcases content.exists_front with ⟨front, size, split, _⟩
  have small := content.first_lt
  have slots : presence content.fields.slots < 2 ^ 15 := presence_lt content.fields.slots
  obtain ⟨high, word⟩ : ∃ high, presentWord content.header =
      2 ^ 15 * high + presence content.fields.slots := by
    have value : presentWord content.header = (content.first +
        if (content.further.map BitVec.toNat).isEmpty then 0 else 0x80000000) % 2 ^ 32 := by
      rw [presentWord, split, window_append_right _ _ _ _ (by omega), size, Nat.sub_self,
        Content.body, Content.words, chain, List.append_assoc,
        window_append_left _ _ _ (length_ofNatLE 4 _), toNatLE_ofNatLE, valueCount_eq]
    have bound : (content.first +
        if (content.further.map BitVec.toNat).isEmpty then 0 else 0x80000000) < 2 ^ 32 := by
      split <;> omega
    rw [value, Nat.mod_eq_of_lt bound, Content.first]
    split
    · exact ⟨content.reserved.toNat, by omega⟩
    · exact ⟨content.reserved.toNat + 0x10000, by omega⟩
  rw [word, Nat.testBit_two_pow_mul_add _ slots, if_pos low, testBit_presence]

theorem field?_header (content : Content) {bit : Nat} (low : bit < 15) :
    field? content.header bit = content.fields.slots.getD bit none := by
  have there := content.testBit_presentWord low
  rw [field?, there]
  cases slot : content.fields.slots.getD bit none with
  | none => rfl
  | some value =>
      rcases content.exists_front with ⟨front, size, split, _⟩
      have held : content.fields.slots[bit]? = some (some value) := by
        have inside : bit < content.fields.slots.length := low
        rw [List.getD_eq_getElem?_getD, List.getElem?_eq_getElem inside, Option.getD_some] at slot
        rw [List.getElem?_eq_getElem inside, slot]
      have offset : (front ++ content.words).length = 4 + content.words.length := by
        rw [List.length_append, size]
      have bits : ∀ position < content.fields.slots.length,
          (presentWord content.header).testBit (0 + position) =
            (content.fields.slots.getD position none).isSome := by
        intro position inside
        rw [Nat.zero_add]
        exact content.testBit_presentWord inside
      rcases locate_place content.fields.fits bits held (front ++ content.words) content.following
        with ⟨start, found, range⟩
      have shape : front ++ content.words ++ (place (4 + content.words.length) fieldLayout
          content.fields.slots ++ content.following) = content.header := by
        rw [List.append_assoc, ← Content.body, split]
      rw [Nat.zero_add, offset] at found
      rw [offset, shape] at range
      simp only [Option.isSome_some, if_true, fieldsOffset?_header, Option.bind_eq_bind,
        Option.bind_some, found, range]

end Content

variable {content : Content}

/-- What is read from a header is what the fields hold. -/
structure Holds (tap : RadioTap) (fields : Fields) : Prop where
  timestamp : tap.timestamp? = fields.timestamp
  flags : tap.flags? = fields.flags
  rate : tap.rate? = fields.rate
  channel : tap.channel? = fields.channel
  signal : tap.signal? = fields.signal
  noise : tap.noise? = fields.noise
  antenna : tap.antenna? = fields.antenna

theorem number?_of_header {tap : RadioTap} (same : tap.header = content.header) (bit : Nat)
    (low : bit < 15) : tap.number? bit = (content.fields.slots.getD bit none).map toNatLE := by
  rw [number?, same, content.field?_header low]

theorem map_byte {α : Type} (field : Option α) (write : α → UInt8) (read : Nat → α)
    (back : ∀ value, read (write value).toNat = value) :
    ((field.map fun value => [write value]).map toNatLE).map read = field := by
  cases field with
  | none => rfl
  | some value => exact congrArg some (back value)

theorem holds_of_header {tap : RadioTap} (same : tap.header = content.header) :
    tap.Holds content.fields where
  timestamp := by
    rw [timestamp?, number?_of_header same _ (by decide)]
    change ((content.fields.timestamp.map _).map _).map _ = content.fields.timestamp
    cases content.fields.timestamp with
    | none => rfl
    | some time =>
        simp only [Option.map_some, toNatLE_ofNatLE, valueCount_eq]
        rw [toUInt64_mod]
  flags := by
    rw [flags?, number?_of_header same _ (by decide)]
    exact map_byte content.fields.flags Flags.bits _ fun flags => by simp
  rate := by
    rw [rate?, number?_of_header same _ (by decide)]
    exact map_byte content.fields.rate id _ fun rate => by simp
  channel := by
    rw [channel?, same, content.field?_header (by decide)]
    change (content.fields.channel.map _).map _ = content.fields.channel
    cases content.fields.channel with
    | none => rfl
    | some channel =>
        have size : (ofNatLE 2 channel.1.toNat).length = 2 := length_ofNatLE 2 _
        simp only [Option.map_some, List.take_left' size, List.drop_left' size, toNatLE_ofNatLE,
          valueCount_eq]
        rw [toUInt16_mod, toUInt16_mod]
  signal := by
    rw [signal?, number?_of_header same _ (by decide)]
    exact map_byte content.fields.signal Int8.toUInt8 _ fun signal => by simp
  noise := by
    rw [noise?, number?_of_header same _ (by decide)]
    exact map_byte content.fields.noise Int8.toUInt8 _ fun noise => by simp
  antenna := by
    rw [antenna?, number?_of_header same _ (by decide)]
    exact map_byte content.fields.antenna id _ fun antenna => by simp

/-- A header that was laid out is read from the front of a frame, whichever fields are there, and
each of them holds its value. -/
theorem decode_header (content : Content) (payload : Bytes)
    (short : content.header.length ≤ 0xffff) (room : fcsSize ≤ payload.length)
    (intact : ∀ flags ∈ content.fields.flags,
      ¬ (flags.contains .fcs = true ∧ flags.contains .failedFcs = true)) :
    ∃ tap : RadioTap, tap.header = content.header ∧
      decode (content.header ++ payload) =
        .ok ⟨tap, payload.take (payload.length - tap.trailerSize), some .dot11⟩ ∧
      tap.Holds content.fields := by
  have minimum : 8 ≤ content.header.length := by
    rw [Content.length_header, Content.body, List.length_append, Content.words, length_chain,
      List.length_cons]
    omega
  obtain ⟨tap, same⟩ : ∃ tap : RadioTap, tap.header = content.header :=
    ⟨⟨content.header, minimum⟩, rfl⟩
  have holds : tap.Holds content.fields := holds_of_header same
  have complete : tap.Complete := by
    constructor
    case length =>
      rcases content.exists_front with ⟨front, size, split, label⟩
      have small : 4 + content.body.length < valueCount 2 := by
        rw [Content.length_header] at short
        rw [valueCount_eq]
        omega
      rw [same, split, window_append_inside _ _ _ _ (by omega), label, toNatLE_ofNatLE,
        Nat.mod_eq_of_lt small, List.length_append, size]
    case words =>
      rw [same, content.fieldsOffset?_header]
      rfl
    case intact =>
      rw [hasFcs, holds.flags]
      cases known : content.fields.flags with
      | none => exact nofun
      | some flags => exact fun fcs failed => intact flags known ⟨fcs, failed⟩
  have trailer : tap.trailerSize ≤ payload.length := by
    unfold trailerSize
    split <;> omega
  have check : (payload.drop (payload.length - tap.trailerSize)).length = tap.trailerSize := by
    rw [List.length_drop]
    omega
  have read : decode (tap.header ++ (payload.take (payload.length - tap.trailerSize) ++
      payload.drop (payload.length - tap.trailerSize))) =
        .ok ⟨tap, payload.take (payload.length - tap.trailerSize), some .dot11⟩ :=
    decode_parts complete check
  rw [List.take_append_drop, same] at read
  exact ⟨tap, same, read, holds⟩

/-- A header of three words with a field on each side of a gap. -/
def gapped : Content where
  version := 0
  padding := 0
  fields := {
    timestamp := none
    flags := some .fcs
    rate := none
    channel := some (2412, 0xa0)
    hopping := none
    signal := some (-50)
    noise := none
    lockQuality := some (.ofBytes 2 [1, 2])
    attenuation := none
    attenuationDecibel := none
    power := none
    antenna := some 3
    signalDecibel := none
    noiseDecibel := none
    receiveFlags := none }
  reserved := 0x4000
  further := [0x7fffffff, 1]
  following := [9, 9]

theorem decode_gapped :
    gapped.header = [0, 0, 29, 0, 0xaa, 0x08, 0x00, 0xa0, 0xff, 0xff, 0xff, 0xff, 1, 0, 0, 0,
      0x10, 0, 0x6c, 0x09, 0xa0, 0, 0xce, 0, 1, 2, 3, 9, 9] ∧
    ∃ tap : RadioTap, tap.header = gapped.header ∧
      decode (gapped.header ++ [0xd4, 0, 0xde, 0xad, 0xbe, 0xef]) =
        .ok ⟨tap, [0xd4, 0], some .dot11⟩ ∧
      tap.Holds gapped.fields := by
  have shape : gapped.header = [0, 0, 29, 0, 0xaa, 0x08, 0x00, 0xa0, 0xff, 0xff, 0xff, 0xff, 1, 0,
      0, 0, 0x10, 0, 0x6c, 0x09, 0xa0, 0, 0xce, 0, 1, 2, 3, 9, 9] := by decide
  have intact : ∀ flags ∈ gapped.fields.flags,
      ¬ (flags.contains .fcs = true ∧ flags.contains .failedFcs = true) := by
    intro flags held
    cases held
    decide
  rcases decode_header gapped [0xd4, 0, 0xde, 0xad, 0xbe, 0xef] (by decide) (by decide) intact with
    ⟨tap, same, read, holds⟩
  have trailer : tap.trailerSize = 4 := by
    rw [trailerSize, hasFcs, holds.flags]
    decide
  rw [trailer] at read
  exact ⟨shape, tap, same, read, holds⟩

end PacketStack.RadioTap
