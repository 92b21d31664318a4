import PacketStack.Capture.Reader
import PacketStack.Proofs.Capture.Parsing

/-!
Readers of capture files whose parsers find the blocks of a file one after the other.

Main statement: `FileReader.gives_until` says that each record is read as one frame, up to where the
file ends or the parser fails.
-/

namespace PacketStack

/-- A source that gives frames one after the other, and its state behind them. -/
inductive FrameSource.Gives {σ : Type} (source : FrameSource σ) :
    σ → List CapturedFrame → σ → Prop where
  | nil (state : σ) : Gives source state [] state
  | cons {state behind last : σ} {frame : CapturedFrame} {frames : List CapturedFrame}
      (read : source.next state = .ok (some (frame, behind)))
      (others : Gives source behind frames last) : Gives source state (frame :: frames) last

theorem CaptureConfig.validate_eq_ok {config : CaptureConfig} :
    config.validate = .ok () ↔
      config.snapLength ≠ 0 ∧ FileHeader.size ≤ config.bufferCapacity := by
  unfold validate
  split
  · rename_i none
    simp [none]
  · split
    · rename_i small
      simp
      omega
    · rename_i some large
      simp [some]
      omega

namespace FileHeader

theorem toNat_bits (link : LinkType) : (BitVec.ofNat 32 link.id.toNat).toNat = link.id.toNat := by
  rw [BitVec.toNat_ofNat]
  exact Nat.mod_eq_of_lt link.id.toNat_lt

theorem network_eq {link : LinkType} (small : link.id.toNat < 0x80000000) :
    network link = link.id.toNat := by
  have number := toNat_bits link
  rw [network, BitVec.toInt_eq_toNat_of_lt (by omega), number]

theorem network_neg {link : LinkType} (large : 0x80000000 ≤ link.id.toNat) : network link < 0 := by
  have number := toNat_bits link
  have small := link.id.toNat_lt
  rw [network, BitVec.toInt_eq_toNat_cond, if_neg (by omega), number]
  omega

end FileHeader

namespace FileReader

open BlockParser

variable {π : Type} {reader : FileReader π}

theorem event_header {link : LinkType} (small : link.id.toNat < 0x80000000)
    (precision : Precision) :
    reader.event (.header precision.magic (FileHeader.network link)) =
      .ok (.opened link.canonical precision) := by
  have positive : ¬ (link.id.toNat : Int) < 0 := by omega
  rw [event, FileHeader.network_eq small, if_neg positive, Precision.ofMagic_magic,
    Int.toNat_natCast, Nat.toUInt32_eq, UInt32.ofNat_toNat]
  rfl

variable [BlockParser π]

theorem nextEvent_of_block {parser : π} {size : Nat} {block : FileBlock}
    (met : find reader.parser = (.block size block, parser)) :
    reader.nextEvent = (reader.event block).map fun event =>
      some (event, { reader with parser := consume size parser }) := by
  rw [nextEvent]
  split <;> rename_i same <;> cases met.symm.trans same
  rfl

theorem nextEvent_of_incomplete {parser filled : π}
    (met : find reader.parser = (.incomplete, parser)) (refilled : refill parser = some filled) :
    reader.nextEvent = nextEvent { reader with parser := filled } := by
  rw [nextEvent]
  split <;> rename_i same <;> cases met.symm.trans same
  split <;> rename_i other <;> cases refilled.symm.trans other
  rfl

def answerTo {α : Type} : Ending → Except CaptureError (Option α)
  | .ended => .ok none
  | .flawed => .error .unreadable

theorem nextEvent_of_ending {parser : π} {ending : Ending}
    (met : find reader.parser = (ending.found, parser)) : reader.nextEvent = answerTo ending := by
  rw [nextEvent]
  cases ending <;> split <;> rename_i same <;> cases met.symm.trans same <;> rfl

def AnswersUntil (ending : Ending) (reader : FileReader π) : List FileBlock → Prop
  | [] => reader.nextEvent = answerTo ending
  | block :: blocks => ∃ parser, FindsUntil ending parser blocks ∧
      reader.nextEvent = (reader.event block).map fun event =>
        some (event, { reader with parser := parser })

theorem answersUntil_of_finds {ending : Ending} {parser : π} {blocks : List FileBlock}
    (finds : FindsUntil ending parser blocks) :
    ∀ reader : FileReader π, reader.parser = parser → reader.AnswersUntil ending blocks := by
  -- A step of the parser that only fills up its buffer changes nothing in what the reader answers.
  induction finds with
  | nil met =>
      rintro reader rfl
      exact nextEvent_of_ending met
  | block met others ih =>
      rintro reader rfl
      exact ⟨_, others, nextEvent_of_block met⟩
  | @more parser found filled blocks met refilled others ih =>
      rintro reader rfl
      have behind := ih { reader with parser := filled } rfl
      have same := nextEvent_of_incomplete met refilled
      cases blocks with
      | nil => exact same.trans behind
      | cons block blocks =>
          rcases behind with ⟨parser, left, answered⟩
          refine ⟨parser, left, ?_⟩
          rw [same, answered]
          rfl

def frameOf (link : LinkType) (precision : Precision) (record : CaptureRecord) : CapturedFrame :=
  ⟨record.data, link, record.time precision⟩

theorem next_of_captured {frame : CapturedFrame} {behind : FileReader π}
    (told : reader.nextEvent = .ok (some (.captured frame, behind))) :
    reader.next = .ok (some (frame, { behind with frames := behind.frames + 1 })) := by
  rw [next]
  split <;> rename_i same <;> cases told.symm.trans same
  rfl

theorem next_of_ending {ending : Ending} (finds : FindsUntil ending reader.parser []) :
    reader.next = answerTo ending := by
  have told : reader.nextEvent = answerTo ending := answersUntil_of_finds finds reader rfl
  rw [next]
  cases ending <;> split <;> rename_i same <;> cases told.symm.trans same <;> rfl

theorem next_of_record {ending : Ending} {record : CaptureRecord} {blocks : List FileBlock}
    (finds : FindsUntil ending reader.parser (.record record :: blocks)) :
    ∃ parser, FindsUntil ending parser blocks ∧
      reader.next = .ok (some (frameOf reader.link reader.precision record,
        { reader with parser := parser, frames := reader.frames + 1 })) := by
  rcases answersUntil_of_finds finds reader rfl with ⟨parser, left, told⟩
  exact ⟨parser, left, next_of_captured told⟩

theorem gives_until {ending : Ending} {records : List CaptureRecord}
    (finds : FindsUntil ending reader.parser (records.map .record)) :
    ∃ last : FileReader π,
      source.Gives reader (records.map (frameOf reader.link reader.precision)) last ∧
      last.next = answerTo ending ∧ last.frames = reader.frames + records.length := by
  induction records generalizing reader with
  | nil => exact ⟨reader, .nil reader, next_of_ending finds, rfl⟩
  | cons record records ih =>
      rcases next_of_record finds with ⟨parser, left, read⟩
      rcases @ih { reader with parser := parser, frames := reader.frames + 1 } left with
        ⟨last, given, ended, count⟩
      refine ⟨last, .cons read given, ended, ?_⟩
      calc last.frames
        _ = reader.frames + 1 + records.length := count
        _ = reader.frames + (record :: records).length := by
          rw [List.length_cons]
          omega

theorem exists_ofBytes_of_finds {config : CaptureConfig} (valid : config.validate = .ok ())
    {file : Bytes} {parser : π} (started : start config.bufferCapacity file = some parser)
    {link : LinkType} (small : link.id.toNat < 0x80000000) {precision : Precision}
    {ending : Ending} {blocks : List FileBlock} (finds : FindsUntil ending parser
      (.header precision.magic (FileHeader.network link) :: blocks)) :
    ∃ behind : π, ofBytes config file = .ok ⟨behind, link.canonical, precision, 0⟩ ∧
      FindsUntil ending behind blocks := by
  rcases answersUntil_of_finds finds ⟨parser, .other 0, .microsecond, 0⟩ rfl with
    ⟨behind, left, told⟩
  rw [event_header small] at told
  refine ⟨behind, ?_, left⟩
  simp only [ofBytes, valid, started]
  change (nextEvent ⟨parser, .other 0, .microsecond, 0⟩ >>= _) = _
  rw [told]
  rfl

theorem ofBytes_of_large {config : CaptureConfig} (valid : config.validate = .ok ())
    {file : Bytes} {parser : π} (started : start config.bufferCapacity file = some parser)
    {link : LinkType} (large : 0x80000000 ≤ link.id.toNat) {precision : Precision}
    {ending : Ending} {blocks : List FileBlock} (finds : FindsUntil ending parser
      (.header precision.magic (FileHeader.network link) :: blocks)) :
    (ofBytes config file : Except CaptureError (FileReader π)) =
      .error (.invalidLink (FileHeader.network link)) := by
  rcases answersUntil_of_finds finds ⟨parser, .other 0, .microsecond, 0⟩ rfl with ⟨behind, -, told⟩
  rw [event, if_pos (FileHeader.network_neg large)] at told
  simp only [ofBytes, valid, started]
  change (nextEvent ⟨parser, .other 0, .microsecond, 0⟩ >>= _) = _
  rw [told]
  rfl

theorem exists_ofBytes (faithful : Faithful π) {config : CaptureConfig}
    (valid : config.validate = .ok ()) {link : LinkType} (small : link.id.toNat < 0x80000000)
    (precision : Precision) (snapLength : UInt32) {records : List CaptureRecord}
    (room : ∀ record ∈ records, record.data.length < 0x100000000 ∧
      FileHeader.size + record.toBytes.length < config.bufferCapacity) :
    ∃ reader : FileReader π, ofBytes config (FileHeader.toBytes precision snapLength link ++
        records.flatMap CaptureRecord.toBytes) = .ok reader ∧
      reader.link = link.canonical ∧ reader.precision = precision ∧ reader.frames = 0 ∧
      FindsUntil .ended reader.parser (records.map .record) := by
  rcases faithful precision snapLength link records config.bufferCapacity
    (CaptureConfig.validate_eq_ok.mp valid).2 room with ⟨parser, started, finds⟩
  rcases exists_ofBytes_of_finds valid started small finds with
    ⟨behind, opened, left⟩
  exact ⟨_, opened, rfl, rfl, rfl, left⟩

end FileReader

end PacketStack
