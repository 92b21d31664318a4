import PacketStack.Capture.Writer
import PacketStack.Proofs.Capture.Reading

/-!
Capture files that are written and read again.

Main statement: `CaptureWriter.read_written` says that a file holds one record for each frame that
was written without a failure, and that every reader with room for them reads just these frames, cut
to the snap length and with their times rounded down.
-/

namespace PacketStack

/-- The time with whole units of a precision only. Times before the epoch count as the epoch. -/
def Instant.roundDown (time : Instant) (precision : Precision) : Instant :=
  ⟨(time.nanoseconds.toNat / precision.unit * precision.unit : Nat)⟩

/-- A frame that is handed to a writer with its time. -/
structure WriteCall where
  bytes : Bytes
  time : Instant
  deriving DecidableEq, Repr

namespace WriteCall

/-- A record has 32 bits for the size of the frame, and as many for the seconds of its time. -/
def Recordable (call : WriteCall) : Prop :=
  call.time.seconds < 0x100000000 ∧ call.bytes.length < 0x100000000

instance (call : WriteCall) : Decidable call.Recordable :=
  inferInstanceAs (Decidable (call.time.seconds < 0x100000000 ∧ call.bytes.length < 0x100000000))

/-- The record of the frame in a file that is written with a configuration. -/
def record (call : WriteCall) (config : CaptureConfig) : CaptureRecord :=
  .ofFrame call.bytes call.time config.precision config.snapLength

/-- The frame as it is read from a file that was written with a configuration. -/
def captured (call : WriteCall) (config : CaptureConfig) (link : LinkType) : CapturedFrame :=
  ⟨call.bytes.take config.snapLength.toNat, link, call.time.roundDown config.precision⟩

theorem time_record {call : WriteCall} (recordable : call.Recordable) (config : CaptureConfig) :
    (call.record config).time config.precision = call.time.roundDown config.precision := by
  -- neither the seconds nor the units are cut to 32 bits
  have whole : call.time.nanoseconds.toNat / 1000000000 < 0x100000000 := recordable.1
  have seconds : (call.record config).seconds.toNat =
      call.time.nanoseconds.toNat / 1000000000 := by
    change (call.time.nanoseconds.toNat / 1000000000).toUInt32.toNat = _
    rw [Nat.toUInt32, UInt32.toNat_ofNat_of_lt' whole]
  have units : call.time.nanoseconds.toNat % 1000000000 / config.precision.unit < 0x100000000 := by
    have fraction := Nat.div_le_self (call.time.nanoseconds.toNat % 1000000000)
      config.precision.unit
    omega
  have fraction : (call.record config).fraction.toNat =
      call.time.nanoseconds.toNat % 1000000000 / config.precision.unit := by
    change (call.time.nanoseconds.toNat % 1000000000 / config.precision.unit).toUInt32.toNat = _
    rw [Nat.toUInt32, UInt32.toNat_ofNat_of_lt' units]
  have small : call.time.nanoseconds.toNat % 1000000000 / config.precision.unit *
      config.precision.unit ≤ 0xffffffff := by
    have fraction := Nat.div_mul_le_self (call.time.nanoseconds.toNat % 1000000000)
      config.precision.unit
    omega
  rw [CaptureRecord.time, seconds, fraction, Nat.min_eq_left small, Instant.ofSeconds,
    Instant.nanosecondsPerSecond, Instant.roundDown]
  congr 1
  cases config.precision with
  | microsecond =>
      simp only [Precision.unit]
      omega
  | nanosecond =>
      simp only [Precision.unit]
      omega

theorem frameOf_record {call : WriteCall} (recordable : call.Recordable) (config : CaptureConfig)
    (link : LinkType) :
    FileReader.frameOf link config.precision (call.record config) = call.captured config link := by
  rw [FileReader.frameOf, time_record recordable]
  rfl

end WriteCall

namespace CaptureWriter

/-- Writes frames one after the other, and tells for which of them this did not fail. -/
def writeAll (writer : CaptureWriter) : List WriteCall → List WriteCall × CaptureWriter
  | [] => ([], writer)
  | call :: calls =>
      match writer.write call.bytes call.time with
      | (.error _, writer) => writer.writeAll calls
      | (.ok (), writer) =>
          let (kept, last) := writer.writeAll calls
          (call :: kept, last)

variable {config : CaptureConfig} {call : WriteCall}

def holding (config : CaptureConfig) (bytes : Bytes) : CaptureWriter :=
  ⟨config.precision, config.snapLength, ⟨bytes, none⟩⟩

theorem create_eq (valid : config.validate = .ok ()) (link : LinkType) :
    create config link ⟨[], none⟩ =
      .ok (holding config (FileHeader.toBytes config.precision config.snapLength link)) := by
  rw [create, valid]
  rfl

theorem write_of_recordable (recordable : call.Recordable) (bytes : Bytes) :
    (holding config bytes).write call.bytes call.time =
      (.ok (), holding config (bytes ++ (call.record config).toBytes)) := by
  rw [write, if_pos recordable.1, if_pos recordable.2]
  rfl

theorem write_of_not_recordable (large : ¬ call.Recordable) (writer : CaptureWriter) :
    ∃ cause, writer.write call.bytes call.time = (.error cause, writer) := by
  by_cases early : call.time.seconds < 0x100000000
  · have long : ¬ call.bytes.length < 0x100000000 := fun short => large ⟨early, short⟩
    refine ⟨.frameTooLarge call.bytes.length, ?_⟩
    rw [write, if_pos early, if_neg long]
  · refine ⟨.timeOutOfRange call.time, ?_⟩
    rw [write, if_neg early]

theorem writeAll_eq (calls : List WriteCall) (bytes : Bytes) :
    (holding config bytes).writeAll calls =
      (calls.filter WriteCall.Recordable, holding config (bytes ++
        (calls.filter WriteCall.Recordable).flatMap fun call => (call.record config).toBytes)) := by
  induction calls generalizing bytes with
  | nil => rw [writeAll, List.filter_nil, List.flatMap_nil, List.append_nil]
  | cons call calls ih =>
      by_cases recordable : call.Recordable
      · rw [writeAll, write_of_recordable recordable, List.filter_cons_of_pos (by simpa)]
        simp only [ih, List.flatMap_cons, List.append_assoc]
      · rcases write_of_not_recordable recordable (holding config bytes) with ⟨cause, failed⟩
        rw [writeAll, failed, List.filter_cons_of_neg (by simpa)]
        exact ih bytes

/-- Of frames that are written one after the other, each is in the file if its call succeeds, and
each of these is read again, by any faithful parser whose buffer has room for it. -/
theorem read_written {π : Type} [BlockParser π] (faithful : BlockParser.Faithful π)
    {config reading : CaptureConfig} (valid : config.validate = .ok ())
    (readable : reading.validate = .ok ()) {link : LinkType} (small : link.id.toNat < 0x80000000)
    {calls : List WriteCall}
    (room : ∀ call ∈ calls, call.Recordable →
      40 + (call.bytes.take config.snapLength.toNat).length < reading.bufferCapacity) :
    ∃ writer kept last, create config link ⟨[], none⟩ = .ok writer ∧
      writer.writeAll calls = (kept, last) ∧ kept = calls.filter WriteCall.Recordable ∧
      last.medium.bytes = FileHeader.toBytes config.precision config.snapLength link ++
        kept.flatMap (fun call => (call.record config).toBytes) ∧
      ∃ reader finished : FileReader π,
        FileReader.ofBytes reading last.medium.bytes = .ok reader ∧ reader.link = link.canonical ∧
        FileReader.source.Gives reader (kept.map fun call => call.captured config link.canonical)
          finished ∧
        finished.next = .ok none ∧ finished.frames = kept.length := by
  have recordable : ∀ call ∈ calls.filter WriteCall.Recordable, call.Recordable :=
    fun call member => of_decide_eq_true (List.mem_filter.mp member).2
  have written := @writeAll_eq config calls
    (FileHeader.toBytes config.precision config.snapLength link)
  have fits : ∀ record ∈ (calls.filter WriteCall.Recordable).map (·.record config),
      record.data.length < 0x100000000 ∧
        FileHeader.size + record.toBytes.length < reading.bufferCapacity := by
    intro record member
    rcases List.mem_map.mp member with ⟨call, kept, rfl⟩
    have enough := room call (List.mem_filter.mp kept).1 (recordable call kept)
    have cut : (call.record config).data = call.bytes.take config.snapLength.toNat := rfl
    constructor
    · rw [cut, List.length_take]
      exact Nat.lt_of_le_of_lt (Nat.min_le_left _ _) config.snapLength.toNat_lt
    · rw [CaptureRecord.length_toBytes, cut, FileHeader.size]
      omega
  rcases FileReader.exists_ofBytes faithful readable small config.precision config.snapLength fits
    with ⟨reader, opened, link_eq, precision, frames, finds⟩
  rcases FileReader.gives_until finds with ⟨finished, given, ended, count⟩
  rw [List.flatMap_map] at opened
  rw [link_eq, precision, List.map_map] at given
  rw [frames, List.length_map, Nat.zero_add] at count
  have same : (calls.filter WriteCall.Recordable).map
      (FileReader.frameOf link.canonical config.precision ∘ (·.record config)) =
        (calls.filter WriteCall.Recordable).map fun call => call.captured config link.canonical :=
    List.map_congr_left fun call member =>
      call.frameOf_record (recordable call member) config link.canonical
  rw [same] at given
  exact ⟨_, _, _, create_eq valid link, written, rfl, rfl, reader, finished, opened, link_eq,
    given, ended, count⟩

/-- A frame longer than what is kept of it, one at a time that no record can hold, and one from
before the epoch. -/
def mixedCalls : List WriteCall :=
  [⟨[1, 2, 3], ⟨16000005999⟩⟩, ⟨[4], ⟨4294967296000000000⟩⟩, ⟨[5], ⟨-1⟩⟩]

def narrowConfig : CaptureConfig := { snapLength := 2, bufferCapacity := 43 }

example : (mixedCalls.filter WriteCall.Recordable).map (·.captured narrowConfig .ethernet) =
    [⟨[1, 2], .ethernet, ⟨16000005000⟩⟩, ⟨[5], .ethernet, ⟨0⟩⟩] := by decide

theorem mixedCalls_read : BlockParser.Faithful FileBuffer ∧ narrowConfig.validate = .ok () ∧
    LinkType.ethernet.id.toNat < 0x80000000 ∧
    (∀ call ∈ mixedCalls, call.Recordable →
      40 + (call.bytes.take narrowConfig.snapLength.toNat).length < narrowConfig.bufferCapacity) ∧
    ∃ writer kept last, create narrowConfig .ethernet ⟨[], none⟩ = .ok writer ∧
      writer.writeAll mixedCalls = (kept, last) ∧
      kept = mixedCalls.filter WriteCall.Recordable ∧
      last.medium.bytes =
        FileHeader.toBytes narrowConfig.precision narrowConfig.snapLength .ethernet ++
          kept.flatMap (fun call => (call.record narrowConfig).toBytes) ∧
      ∃ reader finished : CaptureReader,
        FileReader.ofBytes narrowConfig last.medium.bytes = .ok reader ∧
        reader.link = .ethernet ∧
        FileReader.source.Gives reader
          (kept.map fun call => call.captured narrowConfig .ethernet) finished ∧
        finished.next = .ok none ∧ finished.frames = kept.length := by
  have valid : narrowConfig.validate = .ok () := rfl
  have room : ∀ call ∈ mixedCalls, call.Recordable →
      40 + (call.bytes.take narrowConfig.snapLength.toNat).length <
        narrowConfig.bufferCapacity := by
    decide
  exact ⟨FileBuffer.faithful, valid, by decide, room,
    read_written FileBuffer.faithful valid valid (by decide) room⟩

end CaptureWriter

end PacketStack
