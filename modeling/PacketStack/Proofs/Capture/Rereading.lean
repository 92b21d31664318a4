import PacketStack.Proofs.Capture.Writing

/-!
Capture files that are written and read with one configuration.

A record takes more bytes than the frame in it, so a buffer that has room for the longest frames
need not have room for their records. Main statement: `CaptureWriter.reread_prefix` says that a file
is read up to the first record that the buffer of its configuration is too small for.
-/

namespace PacketStack

namespace FrameSource.Gives

variable {σ : Type} {source : FrameSource σ} {state last other : σ} {frames : List CapturedFrame}

theorem not_ends_of_fails (given : source.Gives state frames last) {cause : CaptureError}
    (fails : source.next last = .error cause) {others : List CapturedFrame}
    (also : source.Gives state others other) : source.next other ≠ .ok none := by
  induction given generalizing others with
  | nil state =>
      cases also with
      | nil => simp [fails]
      | cons read => exact nomatch fails.symm.trans read
  | cons read given ih =>
      cases also with
      | nil => exact fun ends => nomatch read.symm.trans ends
      | cons again also =>
          cases read.symm.trans again
          exact ih fails also

end FrameSource.Gives

namespace FileReader

/-- A file is read completely: its reader gives these frames, and then the file ends. -/
def ReadsAll (π : Type) [BlockParser π] (config : CaptureConfig) (file : Bytes)
    (frames : List CapturedFrame) : Prop :=
  ∃ reader finished : FileReader π, ofBytes config file = .ok reader ∧
    source.Gives reader frames finished ∧ finished.next = .ok none ∧
    finished.frames = frames.length

/-- A file is read in part: its reader gives these frames, and then it fails. -/
def ReadsPart (π : Type) [BlockParser π] (config : CaptureConfig) (file : Bytes)
    (frames : List CapturedFrame) : Prop :=
  ∃ reader finished : FileReader π, ofBytes config file = .ok reader ∧
    source.Gives reader frames finished ∧ finished.next = .error .unreadable

theorem ReadsPart.not_readsAll {π : Type} [BlockParser π] {config : CaptureConfig} {file : Bytes}
    {frames : List CapturedFrame} (part : ReadsPart π config file frames)
    (others : List CapturedFrame) : ¬ ReadsAll π config file others := by
  rintro ⟨reader, finished, opened, also, ends, -⟩
  rcases part with ⟨same, broken, open', given, fails⟩
  cases opened.symm.trans open'
  exact given.not_ends_of_fails fails also ends

end FileReader

namespace WriteCall

/-- The size of the record of the frame, which takes what is kept of the frame and a header. -/
def recordSize (call : WriteCall) (config : CaptureConfig) : Nat :=
  CaptureRecord.headerSize + (call.bytes.take config.snapLength.toNat).length

theorem length_record (call : WriteCall) (config : CaptureConfig) :
    (call.record config).toBytes.length = call.recordSize config :=
  CaptureRecord.length_toBytes _

theorem recordSize_le (call : WriteCall) (config : CaptureConfig) :
    call.recordSize config ≤ CaptureRecord.headerSize + config.snapLength.toNat := by
  have kept := List.length_take_le config.snapLength.toNat call.bytes
  rw [recordSize]
  omega

theorem length_data_record (call : WriteCall) (config : CaptureConfig) :
    (call.record config).data.length < 0x100000000 :=
  Nat.lt_of_le_of_lt (List.length_take_le _ _) config.snapLength.toNat_lt

theorem map_frameOf_record {calls : List WriteCall} (recordable : ∀ call ∈ calls, call.Recordable)
    (config : CaptureConfig) (link : LinkType) :
    (calls.map (·.record config)).map (FileReader.frameOf link config.precision) =
      calls.map (·.captured config link) := by
  rw [List.map_map]
  exact List.map_congr_left fun call member =>
    call.frameOf_record (recordable call member) config link

end WriteCall

namespace CaptureWriter

open BlockParser FileReader

variable {π : Type} [BlockParser π] {config : CaptureConfig}

def fileOf (config : CaptureConfig) (link : LinkType) (calls : List WriteCall) : Bytes :=
  FileHeader.toBytes config.precision config.snapLength link ++
    calls.flatMap fun call => (call.record config).toBytes

theorem exists_writeAll (valid : config.validate = .ok ()) (link : LinkType)
    (calls : List WriteCall) :
    ∃ writer last, create config link ⟨[], none⟩ = .ok writer ∧
      writer.writeAll calls = (calls.filter WriteCall.Recordable, last) ∧
      last.medium.bytes = fileOf config link (calls.filter WriteCall.Recordable) :=
  ⟨_, _, create_eq valid link, writeAll_eq calls _, rfl⟩

theorem exists_finds (bounded : Bounded π) (valid : config.validate = .ok ()) (link : LinkType)
    (calls : List WriteCall) :
    ∃ (parser : π) (front : List WriteCall) (ending : Ending),
      start config.bufferCapacity (fileOf config link calls) = some parser ∧
      FindsUntil ending parser (.header config.precision.magic (FileHeader.network link) ::
        (front.map (·.record config)).map .record) ∧
      front <+: calls ∧ (ending = .ended ↔ front = calls) ∧
      ((∀ call ∈ calls, call.recordSize config < config.bufferCapacity) → front = calls) ∧
      (front = calls → ∀ call ∈ calls, call.recordSize config ≤ config.bufferCapacity) := by
  rcases bounded config.precision config.snapLength link (calls.map (·.record config))
    config.bufferCapacity (CaptureConfig.validate_eq_ok.mp valid).2
    (List.forall_mem_map.mpr fun call _ => call.length_data_record config) with
    ⟨parser, records, ending, started, finds, before, complete, room, fits⟩
  rw [List.flatMap_map] at started
  -- the records of the first frames are the first records
  rcases List.prefix_map_iff.mp before with ⟨front, ahead, rfl⟩
  have same : front.map (·.record config) = calls.map (·.record config) ↔ front = calls := by
    constructor
    · intro same
      have length : front.length = calls.length := by simpa using congrArg List.length same
      exact ahead.eq_of_length length
    · rintro rfl
      rfl
  refine ⟨parser, front, ending, started, finds, ahead, complete.trans same, fun fit => ?_,
    fun whole call member => ?_⟩
  · refine same.mp (room (List.forall_mem_map.mpr fun call member => ?_))
    rw [call.length_record]
    exact fit call member
  · have fits := fits (same.mpr whole) _ (List.mem_map_of_mem member)
    rwa [call.length_record] at fits

theorem exists_gives_prefix (bounded : Bounded π) (valid : config.validate = .ok ())
    {link : LinkType} (small : link.id.toNat < 0x80000000) {calls : List WriteCall}
    (recordable : ∀ call ∈ calls, call.Recordable) :
    ∃ front, front <+: calls ∧
      (front = calls → ReadsAll π config (fileOf config link calls)
        (calls.map (·.captured config link.canonical))) ∧
      (front ≠ calls → ReadsPart π config (fileOf config link calls)
        (front.map (·.captured config link.canonical))) ∧
      ((∀ call ∈ calls, call.recordSize config < config.bufferCapacity) → front = calls) ∧
      (front = calls → ∀ call ∈ calls, call.recordSize config ≤ config.bufferCapacity) := by
  rcases exists_finds bounded valid link calls with
    ⟨parser, front, ending, started, finds, before, complete, room, fits⟩
  rcases exists_ofBytes_of_finds valid started small finds with ⟨behind, opened, left⟩
  have left : FindsUntil ending (FileReader.parser ⟨behind, link.canonical, config.precision, 0⟩)
    ((front.map (·.record config)).map .record) := left
  rcases gives_until left with ⟨finished, given, told, count⟩
  rw [WriteCall.map_frameOf_record fun call member =>
    recordable call (before.subset member)] at given
  refine ⟨front, before, ?_, fun part => ?_, room, fits⟩
  · rintro rfl
    rw [complete.mpr rfl] at told
    exact ⟨_, finished, opened, given, told, by simpa using count⟩
  · cases ending with
    | ended => exact absurd (complete.mp rfl) part
    | flawed => exact ⟨_, finished, opened, given, told⟩

theorem ofBytes_fileOf_of_large (bounded : Bounded π) (valid : config.validate = .ok ())
    {link : LinkType} (large : 0x80000000 ≤ link.id.toNat) (calls : List WriteCall) :
    (FileReader.ofBytes config (fileOf config link calls) : Except CaptureError (FileReader π)) =
      .error (.invalidLink (FileHeader.network link)) := by
  rcases exists_finds bounded valid link calls with ⟨parser, front, ending, started, finds, -⟩
  exact ofBytes_of_large valid started large finds

/-- A frame of the greatest length that is kept whole. -/
def longestCall (config : CaptureConfig) : WriteCall :=
  ⟨List.replicate config.snapLength.toNat 0, ⟨0⟩⟩

theorem longestCall_recordable (config : CaptureConfig) : (longestCall config).Recordable := by
  constructor
  · change Instant.seconds ⟨0⟩ < 0x100000000
    decide
  · rw [longestCall, List.length_replicate]
    exact config.snapLength.toNat_lt

theorem recordSize_longestCall (config : CaptureConfig) :
    (longestCall config).recordSize config =
      CaptureRecord.headerSize + config.snapLength.toNat := by
  rw [WriteCall.recordSize, longestCall, List.take_replicate, Nat.min_self, List.length_replicate]

theorem readsPart_longestCall (bounded : Bounded π) (valid : config.validate = .ok ())
    {link : LinkType} (small : link.id.toNat < 0x80000000)
    (tight : config.bufferCapacity < CaptureRecord.headerSize + config.snapLength.toNat) :
    ReadsPart π config (fileOf config link [longestCall config]) [] := by
  rcases exists_gives_prefix bounded valid small
    (List.forall_mem_singleton.mpr (longestCall_recordable config)) with
    ⟨front, before, -, part, -, fits⟩
  have short : front ≠ [longestCall config] := fun whole => by
    have fits := fits whole _ List.mem_cons_self
    rw [recordSize_longestCall] at fits
    omega
  have none : front = [] := by
    rcases List.prefix_cons_iff.mp before with none | ⟨others, same, behind⟩
    · exact none
    · rw [List.prefix_nil.mp behind] at same
      exact absurd same short
  have part := part short
  rwa [none] at part

/-- Of frames that are written one after the other, those in the file are read again with the same
configuration up to a record that the buffer is too small for, so all of them if each record leaves
room in the buffer, and not all if one is larger. There is no reading a file whose link layer has a
number that does not fit in 31 bits. -/
theorem reread_prefix (bounded : Bounded π) (valid : config.validate = .ok ()) (link : LinkType)
    (calls : List WriteCall) :
    ∃ writer kept last, create config link ⟨[], none⟩ = .ok writer ∧
      writer.writeAll calls = (kept, last) ∧ kept = calls.filter WriteCall.Recordable ∧
      (0x80000000 ≤ link.id.toNat →
        (FileReader.ofBytes config last.medium.bytes : Except CaptureError (FileReader π)) =
          .error (.invalidLink (FileHeader.network link))) ∧
      (link.id.toNat < 0x80000000 → ∃ front, front <+: kept ∧
        (front = kept →
          ReadsAll π config last.medium.bytes (kept.map (·.captured config link.canonical))) ∧
        (front ≠ kept →
          ReadsPart π config last.medium.bytes (front.map (·.captured config link.canonical))) ∧
        ((∀ call ∈ kept, call.recordSize config < config.bufferCapacity) → front = kept) ∧
        (front = kept → ∀ call ∈ kept, call.recordSize config ≤ config.bufferCapacity)) ∧
      (link.id.toNat < 0x80000000 →
        CaptureRecord.headerSize + config.snapLength.toNat < config.bufferCapacity →
        ReadsAll π config last.medium.bytes (kept.map (·.captured config link.canonical))) := by
  rcases exists_writeAll valid link calls with ⟨writer, last, created, written, bytes⟩
  have recordable : ∀ call ∈ calls.filter WriteCall.Recordable, call.Recordable :=
    fun call member => of_decide_eq_true (List.mem_filter.mp member).2
  refine ⟨writer, _, last, created, written, rfl, ?_⟩
  rw [bytes]
  refine ⟨fun large => ?_, fun small => ?_, fun small ample => ?_⟩
  · exact ofBytes_fileOf_of_large bounded valid large _
  · exact exists_gives_prefix bounded valid small recordable
  · rcases exists_gives_prefix bounded valid small recordable with ⟨front, -, whole, -, room, -⟩
    exact whole (room fun call _ => Nat.lt_of_le_of_lt (call.recordSize_le config) ample)

/-- Without a setting a file is not read again if a frame of 65535 bytes has been written to it. Its
record takes 65551 bytes and the buffer 65536. -/
theorem defaultConfig_unread : ({} : CaptureConfig).validate = .ok () ∧
    ({} : CaptureConfig).snapLength.toNat ≤ ({} : CaptureConfig).bufferCapacity ∧
    (longestCall {}).bytes = List.replicate 65535 0 ∧ (longestCall {}).Recordable ∧
    ∃ writer last, create {} .ethernet ⟨[], none⟩ = .ok writer ∧
      writer.writeAll [longestCall {}] = ([longestCall {}], last) ∧
      ReadsPart FileBuffer {} last.medium.bytes [] ∧
      ¬ ReadsAll FileBuffer {} last.medium.bytes
        [(longestCall {}).captured {} .ethernet] := by
  have valid : ({} : CaptureConfig).validate = .ok () := rfl
  have recordable := longestCall_recordable {}
  rcases exists_writeAll valid .ethernet [longestCall {}] with
    ⟨writer, last, created, written, bytes⟩
  rw [List.filter_cons_of_pos (by simpa using recordable), List.filter_nil] at written bytes
  have part : ReadsPart FileBuffer {} last.medium.bytes [] := by
    rw [bytes]
    exact readsPart_longestCall FileBuffer.bounded valid (by decide) (by decide)
  exact ⟨valid, by decide, rfl, recordable, writer, last, created, written, part,
    part.not_readsAll _⟩

/-- A frame whose record just leaves room in the buffer of a configuration without a setting. -/
def roomyCall : WriteCall := ⟨List.replicate 65519 7, ⟨1500000000000000000⟩⟩

theorem roomyCall_reread : Bounded FileBuffer ∧ ({} : CaptureConfig).validate = .ok () ∧
    LinkType.ethernet.id.toNat < 0x80000000 ∧
    (∀ call ∈ [roomyCall], call.recordSize {} < ({} : CaptureConfig).bufferCapacity) ∧
    ∃ writer kept last, create {} .ethernet ⟨[], none⟩ = .ok writer ∧
      writer.writeAll [roomyCall] = (kept, last) ∧ kept = [roomyCall] ∧
      ReadsAll FileBuffer {} last.medium.bytes (kept.map (·.captured {} .ethernet)) := by
  have valid : ({} : CaptureConfig).validate = .ok () := rfl
  have small : LinkType.ethernet.id.toNat < 0x80000000 := by decide
  have recordable : roomyCall.Recordable := by
    constructor
    · change Instant.seconds ⟨1500000000000000000⟩ < 0x100000000
      decide
    · rw [roomyCall, List.length_replicate]
      decide
  have room : ∀ call ∈ [roomyCall], call.recordSize {} < ({} : CaptureConfig).bufferCapacity := by
    refine List.forall_mem_singleton.mpr ?_
    rw [WriteCall.recordSize, roomyCall, List.take_replicate, List.length_replicate]
    decide
  have filtered : [roomyCall].filter WriteCall.Recordable = [roomyCall] :=
    List.filter_cons_of_pos (by simpa using recordable)
  rcases reread_prefix FileBuffer.bounded valid .ethernet [roomyCall] with
    ⟨writer, kept, last, created, written, same, -, read, -⟩
  rw [filtered] at same
  rcases read small with ⟨front, -, whole, -, fits, -⟩
  exact ⟨FileBuffer.bounded, valid, small, room, writer, kept, last, created, written, same,
    whole (fits (same ▸ room))⟩

end CaptureWriter

end PacketStack
