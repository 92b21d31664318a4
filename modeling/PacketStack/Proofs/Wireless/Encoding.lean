import PacketStack.Proofs.Application.OptionLists

/-!
802.11 frames of every type and subtype, written and read again.

Main statement: `Frame.decode_written_header` says that a sound frame is read from what is written
of it with whatever may follow.
-/

namespace PacketStack.Wireless

def opaqueSubtypes : List UInt8 := [6, 7, 13, 14, 15]

/-- Options whose lengths fit a byte after fixed fields, or an opaque body without options. -/
def Management.Sound (management : Management) (flags : Flags) : Prop :=
  management.header.Complete flags ∧
    match management.fields with
    | .other subtype => subtype ∈ opaqueSubtypes ∧ management.options = []
    | _ => ∀ option ∈ management.options, option.value.length ≤ 255

/-- The subtypes from 8 on have bodies of their own. -/
def Control.Sound : Control → Prop
  | .other subtype => subtype < 8
  | _ => True

def Body.Sound (flags : Flags) : Body → Prop
  | .management content => content.Sound flags
  | .control content => content.Sound
  | .data content => content.Complete flags ∧ content.subtype < 16
  | .other frameType subtype => frameType = 3 ∧ subtype < 16

/-- A frame whose fields fit the room that they have in it. -/
structure Frame.Sound (frame : Frame) : Prop where
  protocol : frame.protocol < 4
  body : frame.body.Sound frame.flags

theorem readable_dot11_iff {options : OptionList} : OptionList.Readable .dot11 options ↔
    ∀ option ∈ options, option.value.length ≤ 255 := by
  constructor
  · intro readable option member
    exact readable.sound.short option member rfl
  · intro short
    exact OptionList.Sound.readable ⟨fun option member _ => short option member, nofun, nofun⟩

theorem mem_opaqueSubtypes_iff {subtype : UInt8} : subtype ∈ opaqueSubtypes ↔
    (ManagementFields.other subtype).Complete ∧ subtype < 16 := by
  simp only [opaqueSubtypes, List.mem_cons, List.not_mem_nil, or_false,
    ManagementFields.Complete, ← UInt8.toNat_inj, UInt8.lt_iff_toNat_lt, UInt8.reduceToNat]
  omega

theorem Management.sound_iff {management : Management} {flags : Flags} :
    management.Sound flags ↔
      management.Complete flags ∧ management.fields.subtype < 16 := by
  rcases management with ⟨header, fields, options⟩
  cases fields with
  | other subtype =>
      constructor
      · rintro ⟨numbers, unread, none⟩
        rcases mem_opaqueSubtypes_iff.mp unread with ⟨complete, small⟩
        have none : options = [] := none
        rw [none]
        exact ⟨⟨numbers, complete, trivial, fun _ => rfl⟩, small⟩
      · rintro ⟨complete, small⟩
        exact ⟨complete.header, mem_opaqueSubtypes_iff.mpr ⟨complete.fields, small⟩,
          complete.bare rfl⟩
  | _ =>
      constructor
      · rintro ⟨numbers, short⟩
        exact ⟨⟨numbers, trivial, readable_dot11_iff.mpr short, nofun⟩, of_decide_eq_true rfl⟩
      · rintro ⟨complete, _⟩
        exact ⟨complete.header, readable_dot11_iff.mp complete.options⟩

theorem Control.sound_iff {control : Control} :
    control.Sound ↔ control.Complete ∧ control.subtype < 16 := by
  cases control with
  | other subtype =>
      simp only [Sound, Complete, Control.subtype, UInt8.lt_iff_toNat_lt, UInt8.reduceToNat]
      omega
  | _ => exact iff_of_true trivial ⟨trivial, of_decide_eq_true rfl⟩

theorem Body.sound_iff {body : Body} {flags : Flags} :
    body.Sound flags ↔ body.Complete flags ∧ body.frameType < 4 ∧ body.subtype < 16 := by
  have known {frameType : UInt8} (small : frameType < 4) {sound complete fits : Prop}
      (same : sound ↔ complete ∧ fits) : sound ↔ complete ∧ frameType < 4 ∧ fits := by
    rw [and_iff_right small, same]
  cases body with
  | management content => exact known (of_decide_eq_true rfl) Management.sound_iff
  | control content => exact known (of_decide_eq_true rfl) Control.sound_iff
  | data content => exact known (of_decide_eq_true rfl) Iff.rfl
  | other frameType subtype =>
      simp only [Sound, Complete, Body.frameType, Body.subtype, ← UInt8.toNat_inj,
        UInt8.lt_iff_toNat_lt, UInt8.reduceToNat]
      omega

namespace Frame

theorem sound_iff {frame : Frame} : frame.Sound ↔ frame.Complete := by
  constructor
  · intro sound
    rcases Body.sound_iff.mp sound.body with ⟨complete, frameType, subtype⟩
    exact ⟨UInt8.lt_iff_toNat_lt.mp sound.protocol, UInt8.lt_iff_toNat_lt.mp frameType,
      UInt8.lt_iff_toNat_lt.mp subtype, complete⟩
  · intro complete
    refine ⟨UInt8.lt_iff_toNat_lt.mpr complete.protocol, Body.sound_iff.mpr ⟨complete.body, ?_, ?_⟩⟩
    · exact UInt8.lt_iff_toNat_lt.mpr complete.frameType
    · exact UInt8.lt_iff_toNat_lt.mpr complete.subtype

theorem into_write {frame : Frame} (complete : frame.Complete) :
    Write.into (List.replicate frame.headerSize 0) frame.write = (.ok (), frame.written []) := by
  have turned : frame.write.Turns (headed frame.headerSize [] []) () (frame.written []) :=
    (turns_write complete).mpr rfl
  rw [headed_nil, List.append_nil] at turned
  exact turned

theorem serialize_eq_ok {frame : Frame} {bytes : Bytes} (complete : frame.Complete) :
    (Packet.single (.dot11 frame)).serialize = .ok bytes ↔
      frame.headerSize < 2 ^ 32 ∧ bytes = frame.written [] := by
  have regular : (Layer.dot11 frame).Regular none := complete
  exact Packet.serialize_single_eq_ok regular trivial

theorem written_append (frame : Frame) (rest : Bytes) :
    frame.written [] ++ rest = frame.written rest := by
  rw [written, written, headed, headed, List.append_nil, List.append_assoc]

theorem accepts_iff {frame : Frame} {rest : Bytes} : frame.body.Accepts rest ↔
    ∀ content, frame.management? = some content → content.fields.hasOptions = true →
      rest = [] := by
  rcases frame with ⟨protocol, flags, duration, addr1, body⟩
  cases body with
  | management content =>
      constructor
      · rintro accepts _ ⟨⟩
        exact accepts
      · intro alone
        exact alone content rfl
  | control content | data content | other frameType subtype => exact iff_of_true trivial nofun

theorem next?_eq (frame : Frame) : frame.next? =
    if frame.data?.isSome ∧ frame.isProtected = false then some .snap else none := by
  rcases frame with ⟨protocol, flags, duration, addr1, body⟩
  cases body with
  | data content =>
      cases guarded : isProtected ⟨protocol, flags, duration, addr1, .data content⟩ with
      | false =>
          rw [if_pos ⟨rfl, rfl⟩]
          exact if_neg (by simp [guarded])
      | true =>
          rw [if_neg fun both => Bool.noConfusion both.2]
          exact if_pos guarded
  | management content | control content | other frameType subtype =>
      exact (if_neg nofun).symm

/-- A sound frame takes just the room that is planned for it, as a packet where that fits 32 bits,
and it is read again from its header and any bytes behind it, which it carries. Where options take
all that follows there must be none. Only data that is not protected is known to carry a subnetwork
access header. -/
theorem decode_written_header {frame : Frame} (sound : frame.Sound) :
    ∃ header, Write.into (List.replicate frame.headerSize 0) frame.write = (.ok (), header) ∧
      header.length = frame.headerSize ∧
      (∀ bytes, (Packet.single (.dot11 frame)).serialize = .ok bytes ↔
        frame.headerSize < 2 ^ 32 ∧ bytes = header) ∧
      ∀ rest, decode (header ++ rest) = .ok ⟨frame, rest,
          if frame.data?.isSome ∧ frame.isProtected = false then some .snap else none⟩ ↔
        ∀ content, frame.management? = some content → content.fields.hasOptions = true →
          rest = [] := by
  have complete := sound_iff.mp sound
  refine ⟨frame.written [], into_write complete, frame.length_written [],
    fun _ => serialize_eq_ok complete, fun rest => ?_⟩
  rw [written_append, ← next?_eq, ← accepts_iff]
  constructor
  · intro read
    exact (complete_of_decode read).2.2.2
  · exact decode_written complete

/-- Data with a quality of service between two parts of a distribution system. -/
def relayedData : Frame where
  protocol := 0
  flags := .union .toDs .fromDs
  duration := 44
  addr1 := .ofNat 0x000c4182b255
  body := .data {
    subtype := 8
    header := {
      addr2 := .ofNat 0x000d9382363a
      addr3 := .ofNat 0x202122232425
      fragment := 15
      sequence := 4095
      addr4 := .ofNat 0x303132333435 }
    qosControl := 6 }

theorem relayedData_read : relayedData.Sound ∧
    ∃ header, Write.into (List.replicate 32 0) relayedData.write = (.ok (), header) ∧
      ∀ rest, decode (header ++ rest) = .ok ⟨relayedData, rest, some .snap⟩ := by
  have numbers : SequenceHeader.Complete
      ⟨.ofNat 0x000d9382363a, .ofNat 0x202122232425, 15, 4095, .ofNat 0x303132333435⟩
      (.union .toDs .fromDs) := ⟨by decide, by decide, by decide⟩
  have sound : relayedData.Sound := ⟨by decide, ⟨numbers, by decide⟩, by decide⟩
  rcases decode_written_header sound with ⟨header, written, _, _, read⟩
  exact ⟨sound, header, written, fun rest => (read rest).mpr nofun⟩

end Frame

end PacketStack.Wireless
