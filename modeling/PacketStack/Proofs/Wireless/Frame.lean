import PacketStack.Proofs.Wireless.Management
import PacketStack.Wireless.Frame

/-!
802.11 frames that are written and read again.

Main statements: `decode_written` reads a written frame back, `complete_of_decode` says that what
was read can be written so.
-/

namespace PacketStack.Wireless

namespace Body

def Complete (body : Body) (flags : Flags) : Prop :=
  match body with
  | .management content => content.Complete flags
  | .control content => content.Complete
  | .data content => content.Complete flags
  | .other frameType _ => 3 ≤ frameType.toNat

def Accepts (body : Body) (rest : Bytes) : Prop :=
  match body with
  | .management content => content.Accepts rest
  | .control _ | .data _ | .other _ _ => True

def toBytes (body : Body) (flags : Flags) : Bytes :=
  match body with
  | .management content => content.toBytes flags
  | .control content => content.toBytes
  | .data content => content.toBytes flags
  | .other _ _ => []

@[simp] theorem length_toBytes (body : Body) (flags : Flags) :
    (body.toBytes flags).length = body.size flags := by
  cases body with
  | management content => exact content.length_toBytes flags
  | control content | data content | other frameType subtype => rfl

def Fits (body : Body) : Prop :=
  match body with
  | .management content => ∀ option ∈ content.options, option.fits .dot11 = true
  | .control _ | .data _ | .other _ _ => True

theorem Complete.fits {body : Body} {flags : Flags} (complete : body.Complete flags) :
    body.Fits := by
  cases body with
  | management content => exact complete.options.fits
  | control content | data content | other frameType subtype => trivial

theorem turns_write {body : Body} (flags : Flags) (fits : body.Fits)
    {values : List (HeaderField × Nat)} {rest bytes : Bytes} :
    (body.write flags Frame.Header.size).Turns (headed Frame.Header.size values
        (List.replicate (body.size flags) 0 ++ rest)) () bytes ↔
      bytes = headed Frame.Header.size values (body.toBytes flags ++ rest) := by
  have replaced (data : Bytes) (size : data.length = body.size flags) :
      data ++ (List.replicate (body.size flags) (0 : UInt8) ++ rest).drop data.length =
        data ++ rest := by
    rw [size, List.drop_left' List.length_replicate]
  have room (data : Bytes) (size : data.length = body.size flags) : Frame.Header.size +
      data.length ≤ (headed Frame.Header.size values
        (List.replicate (body.size flags) 0 ++ rest)).length := by
    rw [length_headed, List.length_append, List.length_replicate, size]
    omega
  cases body with
  | management content =>
      have whole := content.length_toBytes flags
      have size : (content.toBytes flags).length =
          size (.management content) flags := whole
      have front := SequenceHeader.length_toBytes content.header flags
      have reach := room _ size
      have first : Frame.Header.size + (content.header.toBytes flags ++
          content.fields.toBytes).length ≤ (headed Frame.Header.size values
            (List.replicate (Body.size (.management content) flags) 0 ++ rest)).length := by
        simp only [Management.toBytes, List.length_append] at reach ⊢
        omega
      have spliced (blank : Bytes) (front data : Bytes) :
          (blank.splice 0 front).splice front.length data = blank.splice 0 (front ++ data) := by
        simp only [Bytes.splice, List.take_zero, List.nil_append, Nat.zero_add, List.take_left,
          List.length_append, ← List.drop_drop, List.drop_left, List.append_assoc]
      have both : (headed Frame.Header.size values (List.replicate (Body.size (.management content)
          flags) 0 ++ rest)).splice Frame.Header.size (content.header.toBytes flags ++
            content.fields.toBytes) =
          headed Frame.Header.size values (Bytes.splice (List.replicate (Body.size
            (.management content) flags) 0 ++ rest) 0 (content.header.toBytes flags ++
              content.fields.toBytes)) := splice_headed_behind _ 0 _ _ _
      have last : Bytes.splice (List.replicate (Body.size (.management content) flags) 0 ++
          rest) 0 (content.toBytes flags) = content.toBytes flags ++ rest := by
        rw [Bytes.splice, List.take_zero, List.nil_append, Nat.zero_add, replaced _ size]
      simp only [write, Management.write, Write.turns_put_bind, first, true_and, both,
        OptionList.turns_write fits]
      rw [splice_headed_behind, spliced, List.append_assoc, ← Management.toBytes, last,
        and_iff_right]
      · rfl
      · simp only [Management.size, length_headed, Body.size, List.length_append,
          List.length_replicate, front, Bytes.splice, List.take_zero, List.nil_append,
          List.length_drop]
        omega
  | control content =>
      have size : content.toBytes.length = size (.control content) flags := rfl
      simp only [write, Write.turns_put, room _ size, true_and, splice_headed, replaced _ size]
      rfl
  | data content =>
      have size : (content.toBytes flags).length = size (.data content) flags := rfl
      simp only [write, Write.turns_put, room _ size, true_and, splice_headed, replaced _ size]
      rfl
  | other frameType subtype =>
      simp only [write, Write.turns_pure, true_and]
      rfl

end Body

namespace Frame

theorem decodeBody_toBytes {body : Body} {flags : Flags} {rest : Bytes}
    (complete : body.Complete flags) (accepts : body.Accepts rest) :
    decodeBody body.frameType body.subtype flags (body.toBytes flags ++ rest) =
      .ok (body, body.size flags) := by
  cases body with
  | management content =>
      change Management.parse _ flags _ >>= _ = _
      have parsed := Management.parse_toBytes complete accepts
      rw [Management.length_toBytes] at parsed
      rw [Body.subtype, Body.toBytes, parsed]
      rfl
  | control content =>
      change Control.parse _ _ >>= _ = _
      rw [Body.subtype, Body.toBytes, Control.parse_toBytes complete]
      rfl
  | data content =>
      change Data.parse _ flags _ >>= _ = _
      rw [Body.subtype, Body.toBytes, Data.parse_toBytes complete]
      rfl
  | other frameType subtype =>
      have known : 3 ≤ frameType.toNat := complete
      change decodeBody frameType subtype flags _ = _
      unfold decodeBody
      split
      · omega
      · omega
      · omega
      · rfl

theorem complete_of_decodeBody {frameType subtype : UInt8} {flags : Flags} {bytes : Bytes}
    {body : Body} {used : Nat}
    (read : decodeBody frameType subtype flags bytes = .ok (body, used)) :
    body.Complete flags ∧ body.frameType = frameType ∧ body.subtype = subtype ∧
      body.size flags ≤ used ∧ used ≤ bytes.length ∧ body.Accepts (bytes.drop used) := by
  unfold decodeBody at read
  split at read
  · rename_i number
    rcases Outcome.bind_eq_ok.mp read with ⟨⟨content, size⟩, parsed, result⟩
    cases result
    rcases Management.complete_of_parse parsed with ⟨complete, same, small, inside, accepts⟩
    exact ⟨complete, UInt8.toNat.inj number.symm, same, small, inside, accepts⟩
  · rename_i number
    rcases Outcome.bind_eq_ok.mp read with ⟨content, parsed, result⟩
    cases result
    rcases Control.complete_of_parse parsed with ⟨complete, same, inside⟩
    exact ⟨complete, UInt8.toNat.inj number.symm, same, Nat.le_refl _, inside, trivial⟩
  · rename_i number
    rcases Outcome.bind_eq_ok.mp read with ⟨content, parsed, result⟩
    cases result
    rcases Data.complete_of_parse parsed with ⟨complete, same, inside⟩
    exact ⟨complete, UInt8.toNat.inj number.symm, same, Nat.le_refl _, inside, trivial⟩
  · rename_i notManagement notControl notData
    cases read
    simp only [imp_false] at notManagement notControl notData
    refine ⟨?_, rfl, rfl, Nat.le_refl _, Nat.zero_le _, trivial⟩
    change 3 ≤ frameType.toNat
    omega

/-- A frame whose fields fit their bits. -/
structure Complete (frame : Frame) : Prop where
  protocol : frame.protocol.toNat < 2 ^ 2
  frameType : frame.frameType.toNat < 2 ^ 2
  subtype : frame.subtype.toNat < 2 ^ 4
  body : frame.body.Complete frame.flags

def values (frame : Frame) : List (HeaderField × Nat) :=
  [(Header.protocol, frame.protocol.toNat), (Header.frameType, frame.frameType.toNat),
    (Header.subtype, frame.subtype.toNat), (Header.flags, frame.flags.bits.toNat),
    (Header.duration, frame.duration.toNat), (Header.addr1, frame.addr1.toNat)]

theorem fit (frame : Frame) : Fit Header.size (frame.values.map Prod.fst) := by
  change Fit Header.size [Header.protocol, Header.frameType, Header.subtype, Header.flags,
    Header.duration, Header.addr1]
  decide

def written (frame : Frame) (rest : Bytes) : Bytes :=
  headed Header.size frame.values (frame.body.toBytes frame.flags ++ rest)

theorem length_written (frame : Frame) (rest : Bytes) :
    (frame.written rest).length = frame.headerSize + rest.length := by
  rw [written, length_headed, List.length_append, Body.length_toBytes, headerSize]
  omega

theorem turns_write_of_fits {frame : Frame} (fits : frame.body.Fits) {rest bytes : Bytes} :
    frame.write.Turns (headed frame.headerSize [] rest) () bytes ↔ bytes = frame.written rest := by
  have blank : headed frame.headerSize [] rest = headed Header.size []
      (List.replicate (frame.body.size frame.flags) 0 ++ rest) := headed_split _ _ _
  have room : frame.headerSize ≤ (headed frame.headerSize [] rest).length := by
    rw [length_headed]
    omega
  unfold write
  rw [Write.turns_reach_bind, and_iff_right room, blank]
  simp (disch := decide) only [Write.turns_store_headed, Body.turns_write _ fits,
    List.nil_append, List.cons_append]
  exact Iff.rfl

theorem turns_write {frame : Frame} (complete : frame.Complete) {rest bytes : Bytes} :
    frame.write.Turns (headed frame.headerSize [] rest) () bytes ↔ bytes = frame.written rest :=
  turns_write_of_fits complete.body.fits

def next? (frame : Frame) : Option Kind :=
  match frame.body with
  | .data _ => if frame.isProtected then none else some .snap
  | _ => none

def ofBytes (bytes : Bytes) (body : Body) : Frame where
  protocol := (Header.protocol.get bytes).toUInt8
  flags := ⟨(Header.flags.get bytes).toUInt8⟩
  duration := (Header.duration.get bytes).toUInt16
  addr1 := Header.addr1.hwAddress bytes
  body := body

theorem decode_eq_ok {bytes : Bytes} {decoded : Decoded Frame} :
    decode bytes = .ok decoded ↔
      ∃ body used, Header.size + used ≤ bytes.length ∧
        decodeBody (Header.frameType.get bytes).toUInt8 (Header.subtype.get bytes).toUInt8
          ⟨(Header.flags.get bytes).toUInt8⟩ (bytes.drop Header.size) = .ok (body, used) ∧
        decoded = ⟨ofBytes bytes body, bytes.drop (Header.size + used),
          (ofBytes bytes body).next?⟩ := by
  simp only [decode, Outcome.bind_eq_ok, requireSize_eq_ok, Bytes.rest_eq_ok]
  constructor
  · intro holds
    rcases holds with ⟨_, large, ⟨body, used⟩, read, payload, ⟨inside, rfl⟩, result⟩
    cases result
    exact ⟨body, used, inside, read, rfl⟩
  · intro holds
    rcases holds with ⟨body, used, inside, read, rfl⟩
    exact ⟨(), Nat.le_trans (Nat.le_add_right _ _) inside, ⟨body, used⟩, read, _,
      ⟨inside, rfl⟩, rfl⟩

theorem decode_written {frame : Frame} {rest : Bytes} (complete : frame.Complete)
    (accepts : frame.body.Accepts rest) :
    decode (frame.written rest) = .ok ⟨frame, rest, frame.next?⟩ := by
  have length := frame.length_written rest
  obtain ⟨bytes, equal⟩ : ∃ bytes, bytes = frame.written rest := ⟨_, rfl⟩
  rw [← equal] at length ⊢
  have value {field : HeaderField} {value : Nat} (present : (field, value) ∈ frame.values) :
      field.get bytes = value % 2 ^ field.width := by
    rw [equal]
    exact get_headed frame.fit present _
  have protocol : Header.protocol.get bytes = frame.protocol.toNat := by
    have cut : Header.protocol.get bytes = frame.protocol.toNat % 2 ^ 2 :=
      value (by simp [values])
    rw [cut, Nat.mod_eq_of_lt complete.protocol]
  have frameType : Header.frameType.get bytes = frame.frameType.toNat := by
    have cut : Header.frameType.get bytes = frame.frameType.toNat % 2 ^ 2 :=
      value (by simp [values])
    rw [cut, Nat.mod_eq_of_lt complete.frameType]
  have subtype : Header.subtype.get bytes = frame.subtype.toNat := by
    have cut : Header.subtype.get bytes = frame.subtype.toNat % 2 ^ 4 := value (by simp [values])
    rw [cut, Nat.mod_eq_of_lt complete.subtype]
  have flags : Header.flags.get bytes = frame.flags.bits.toNat % 2 ^ 8 :=
    value (by simp [values])
  have duration : Header.duration.get bytes = frame.duration.toNat % 2 ^ 16 :=
    value (by simp [values])
  have addr1 : Header.addr1.get bytes = frame.addr1.toNat % 2 ^ 48 := value (by simp [values])
  have word (byte : UInt8) : byte.toNat.toUInt8 = byte := UInt8.ofNat_toNat
  have body : bytes.drop Header.size = frame.body.toBytes frame.flags ++ rest := by
    rw [equal, written, drop_headed]
  have payload : bytes.drop (Header.size + frame.body.size frame.flags) = rest := by
    rw [← List.drop_drop, body, List.drop_left' (Body.length_toBytes _ _)]
  have read : ofBytes bytes frame.body = frame := by
    simp only [ofBytes, HeaderField.hwAddress, protocol, flags, duration, addr1, word,
      toUInt8_mod, toUInt16_mod, HwAddress.ofNat_mod]
  rw [decode_eq_ok]
  refine ⟨frame.body, frame.body.size frame.flags, ?_, ?_, ?_⟩
  · rw [length, headerSize]
    exact Nat.le_add_right _ _
  · rw [frameType, subtype, flags, body, word, word, toUInt8_mod]
    exact decodeBody_toBytes complete.body accepts
  · rw [read, payload]

theorem complete_of_decode {bytes : Bytes} {decoded : Decoded Frame}
    (read : decode bytes = .ok decoded) :
    decoded.header.Complete ∧ decoded.next = decoded.header.next? ∧
      decoded.header.headerSize + decoded.payload.length ≤ bytes.length ∧
      decoded.header.body.Accepts decoded.payload := by
  rcases decode_eq_ok.mp read with ⟨body, used, inside, parsed, rfl⟩
  rcases complete_of_decodeBody parsed with ⟨complete, frameType, subtype, small, _, accepts⟩
  have short (field : HeaderField) (whole : field.Whole) (narrow : field.width ≤ 8) :
      (field.get bytes).toUInt8.toNat < 2 ^ field.width := by
    have limit := Span.get_lt field.toSpan bytes whole
    have cut : (field.get bytes).toUInt8.toNat = field.get bytes % 2 ^ 8 := UInt8.toNat_ofNat'
    rw [cut]
    exact Nat.lt_of_le_of_lt (Nat.mod_le _ _) limit
  refine ⟨⟨short Header.protocol (by decide) (by decide), ?_, ?_, complete⟩, rfl, ?_, ?_⟩
  · change body.frameType.toNat < 2 ^ 2
    rw [frameType]
    exact short Header.frameType (by decide) (by decide)
  · change body.subtype.toNat < 2 ^ 4
    rw [subtype]
    exact short Header.subtype (by decide) (by decide)
  · simp only [headerSize, ofBytes, List.length_drop] at small ⊢
    omega
  · rw [List.drop_drop] at accepts
    exact accepts

end Frame

end PacketStack.Wireless
