import PacketStack.Capture.Buffer
import PacketStack.Capture.Source

/-!
Reading the frames of capture files, whose blocks a parser finds.
-/

namespace PacketStack

/-- What a block of a file tells. -/
inductive FileEvent where
  | opened (link : LinkType) (precision : Precision)
  | captured (frame : CapturedFrame)
  deriving DecidableEq, Repr

structure FileReader (π : Type) where
  parser : π
  link : LinkType
  precision : Precision
  /-- The number of frames read so far. -/
  frames : Nat
  deriving DecidableEq, Repr

namespace FileReader

variable {π : Type}

def event (reader : FileReader π) : FileBlock → Except CaptureError FileEvent
  | .header magic network =>
      if network < 0 then .error (.invalidLink network)
      else .ok (.opened (.ofId network.toNat.toUInt32) (.ofMagic magic))
  | .record record => .ok (.captured ⟨record.data, reader.link, record.time reader.precision⟩)
  | .foreign => .error .foreignFormat

variable [BlockParser π]

def size (reader : FileReader π) : Nat := BlockParser.left reader.parser

/-- What the next block tells. Its bytes stay in the buffer if it has no meaning. -/
def nextEvent (reader : FileReader π) : Except CaptureError (Option (FileEvent × FileReader π)) :=
  match _met : BlockParser.find reader.parser with
  | (.block size block, parser) =>
      (reader.event block).map fun event =>
        some (event, { reader with parser := BlockParser.consume size parser })
  | (.ended, _) => .ok none
  | (.incomplete, parser) =>
      match _filled : BlockParser.refill parser with
      | none => .error .unreadable
      | some parser => nextEvent { reader with parser }
  | (.flawed, _) => .error .unreadable
termination_by reader.size
decreasing_by exact BlockParser.left_refill _met _filled

theorem size_nextEvent_lt {reader reader' : FileReader π} {event : FileEvent}
    (read : reader.nextEvent = .ok (some (event, reader'))) : reader'.size < reader.size := by
  fun_induction nextEvent reader with
  | case1 reader size block parser met =>
      cases meaning : reader.event block with
      | error cause => simp [meaning, Except.map] at read
      | ok event =>
          simp only [meaning, Except.map, Except.ok.injEq, Option.some.injEq,
            Prod.mk.injEq] at read
          rw [← read.2]
          exact BlockParser.left_consume met
  | case2 => cases read
  | case3 => cases read
  | case4 reader parser met filled refilled ih =>
      exact Nat.lt_trans (ih read) (BlockParser.left_refill met refilled)
  | case5 => cases read

/-- A reader of a file, placed behind its header. -/
def ofBytes (config : CaptureConfig) (file : Bytes) : Except CaptureError (FileReader π) := do
  config.validate
  match BlockParser.start config.bufferCapacity file with
  | none => .error .unreadable
  | some parser =>
      let blank : FileReader π := ⟨parser, .other 0, .microsecond, 0⟩
      match ← blank.nextEvent with
      | some (.opened link precision, reader) => return { reader with link, precision }
      | _ => .error .missingHeader

/-- The next frame. Another header on the way to it counts from there on. -/
def next (reader : FileReader π) : Except CaptureError (Option (CapturedFrame × FileReader π)) :=
  match _read : reader.nextEvent with
  | .error cause => .error cause
  | .ok none => .ok none
  | .ok (some (.captured frame, reader)) =>
      .ok (some (frame, { reader with frames := reader.frames + 1 }))
  | .ok (some (.opened link precision, reader)) => next { reader with link, precision }
termination_by reader.size
decreasing_by
  have less := size_nextEvent_lt _read
  exact less

theorem size_next_lt {reader reader' : FileReader π} {frame : CapturedFrame}
    (read : reader.next = .ok (some (frame, reader'))) : reader'.size < reader.size := by
  fun_induction next reader with
  | case1 => cases read
  | case2 => cases read
  | case3 reader frame behind met =>
      cases read
      have less := size_nextEvent_lt met
      exact less
  | case4 reader link precision behind met ih =>
      have less := size_nextEvent_lt met
      exact Nat.lt_trans (ih read) less

def source : FrameSource (FileReader π) := ⟨next, size, size_next_lt⟩

def describe (reader : FileReader π) : String :=
  Text.openRecord "PcapFileSource" [
    ("link_type", reader.link.describe),
    ("precision", reader.precision.describe),
    ("frames", toString reader.frames)]

end FileReader

abbrev CaptureReader := FileReader FileBuffer

namespace CaptureReader

def ofBytes (config : CaptureConfig) (file : Bytes) : Except CaptureError CaptureReader :=
  FileReader.ofBytes config file

def source : FrameSource CaptureReader := FileReader.source

end CaptureReader

end PacketStack
