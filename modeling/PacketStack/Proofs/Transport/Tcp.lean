import PacketStack.Transport.Tcp
import PacketStack.Proofs.Header.Checksums
import PacketStack.Proofs.Header.Values

/-!
TCP segments and their options that are written and read again.

Main statements: `TcpOption.parseAll_toBytes` and `TcpOption.plain_of_parseAll` say which options
survive, `Tcp.decode_written` that a written segment is read back.
-/

namespace PacketStack

namespace TcpOption

/-- An option that is read again as it was written. -/
structure Plain (option : TcpOption) : Prop where
  notEnd : option.kind ≠ endOfList
  bare : option.kind = noOperation → option.data = []
  short : option.data.length ≤ 253

theorem toBytes_nop : nop.toBytes = [noOperation] := rfl

theorem eq_nop {option : TcpOption} (plain : option.Plain) (kind : option.kind = noOperation) :
    option = nop := by
  rcases option with ⟨number, data⟩
  have empty := plain.bare kind
  simp only at kind empty
  rw [kind, empty]
  rfl

theorem toBytes_of_long {option : TcpOption} (plain : option.Plain)
    (long : option.kind ≠ noOperation) :
    option.toBytes = option.kind :: UInt8.ofNat (2 + option.data.length) :: option.data := by
  have several : option.isSingleByte = false := by
    simp only [isSingleByte, Bool.or_eq_false_iff, beq_eq_false_iff_ne]
    exact ⟨plain.notEnd, long⟩
  rw [toBytes, several]
  rfl

theorem parseAll_padding (count : Nat) : parseAll (List.replicate count 0) = .ok [] := by
  cases count with
  | zero => simp [parseAll]
  | succ count => simp [List.replicate_succ, parseAll, endOfList]

theorem parseAll_toBytes_append {option : TcpOption} (plain : option.Plain) (rest : Bytes) :
    parseAll (option.toBytes ++ rest) = (option :: ·) <$> parseAll rest := by
  by_cases single : option.kind = noOperation
  · rw [eq_nop plain single, toBytes_nop, List.cons_append, List.nil_append, parseAll,
      if_neg (by decide), if_pos rfl]
    cases parseAll rest <;> rfl
  · have length : (UInt8.ofNat (2 + option.data.length)).toNat = 2 + option.data.length := by
      have short := plain.short
      rw [UInt8.toNat_ofNat']
      omega
    have bounds : ¬ (2 + option.data.length < 2 ∨
        (UInt8.ofNat (2 + option.data.length) :: (option.data ++ rest)).length + 1 <
          2 + option.data.length) := by
      rw [List.length_cons, List.length_append]
      omega
    have data : Bytes.window (UInt8.ofNat (2 + option.data.length) :: (option.data ++ rest)) 1
        (2 + option.data.length - 2) = option.data := by
      rw [Bytes.window, List.drop_succ_cons, List.drop_zero, Nat.add_sub_cancel_left,
        List.take_left]
    have behind : (UInt8.ofNat (2 + option.data.length) :: (option.data ++ rest)).drop
        (2 + option.data.length - 1) = rest := by
      rw [show 2 + option.data.length - 1 = option.data.length + 1 by omega, List.drop_succ_cons,
        List.drop_left]
    rw [toBytes_of_long plain single, List.cons_append, List.cons_append, parseAll,
      if_neg plain.notEnd, if_neg single]
    simp only [List.headD_cons, length, if_neg bounds, data, behind]
    cases parseAll rest <;> rfl

theorem parseAll_toBytes {options : List TcpOption} (plain : ∀ option ∈ options, option.Plain)
    (count : Nat) :
    parseAll (options.flatMap toBytes ++ List.replicate count 0) = .ok options := by
  induction options with
  | nil => exact parseAll_padding count
  | cons option rest ih =>
      rcases List.forall_mem_cons.mp plain with ⟨first, others⟩
      rw [List.flatMap_cons, List.append_assoc, parseAll_toBytes_append first, ih others]
      rfl

theorem plain_of_parseAll {bytes : Bytes} {options : List TcpOption}
    (read : parseAll bytes = .ok options) :
    (∀ option ∈ options, option.Plain) ∧ (options.flatMap toBytes).length ≤ bytes.length := by
  fun_induction parseAll bytes generalizing options with
  | case1 =>
      cases read
      simp
  | case2 rest =>
      cases read
      simp
  | case3 rest notEnd ih =>
      rcases Outcome.bind_eq_ok.mp read with ⟨others, parsed, result⟩
      cases result
      rcases ih parsed with ⟨plain, fits⟩
      refine ⟨List.forall_mem_cons.mpr ⟨⟨by decide, fun _ => rfl, by decide⟩, plain⟩, ?_⟩
      rw [List.flatMap_cons, List.length_append, toBytes_nop, List.length_cons, List.length_cons,
        List.length_nil]
      omega
  | case4 kind rest notEnd long length => cases read
  | case5 kind rest notEnd long length whole option =>
      rename_i ih
      rcases Outcome.bind_eq_ok.mp read with ⟨others, parsed, result⟩
      cases result
      rcases ih parsed with ⟨plain, fits⟩
      have small : length < 256 := (rest.headD 0).toNat_lt
      have size : option.data.length = length - 2 := by
        simp only [option, Bytes.length_window]
        omega
      have first : option.Plain := ⟨notEnd, fun single => absurd single long, by omega⟩
      refine ⟨List.forall_mem_cons.mpr ⟨first, plain⟩, ?_⟩
      rw [List.length_drop] at fits
      rw [List.flatMap_cons, List.length_append, toBytes_of_long first long, List.length_cons,
        List.length_cons, List.length_cons, size]
      omega

end TcpOption

namespace Tcp

def values (tcp : Tcp) (checksum : UInt16) : List (HeaderField × Nat) :=
  [(Header.source, tcp.sourcePort.toNat), (Header.destination, tcp.destinationPort.toNat),
    (Header.sequence, tcp.sequence.toNat), (Header.acknowledgement, tcp.acknowledgement.toNat),
    (Header.dataOffset, tcp.headerSize / 4), (Header.flags, tcp.flags.bits.toNat),
    (Header.window, tcp.window.toNat), (Header.urgentPointer, tcp.urgentPointer.toNat),
    (Header.checksum, checksum.toNat)]

theorem fit (tcp : Tcp) (checksum : UInt16) :
    Fit Header.size ((tcp.values checksum).map Prod.fst) := by
  change Fit Header.size [Header.source, Header.destination, Header.sequence,
    Header.acknowledgement, Header.dataOffset, Header.flags, Header.window, Header.urgentPointer,
    Header.checksum]
  decide

def written (tcp : Tcp) (checksum : UInt16) (body : Bytes) : Bytes :=
  headed Header.size (tcp.values checksum) (tcp.optionBytes ++ body)

theorem length_written (tcp : Tcp) (checksum : UInt16) (body : Bytes) :
    (tcp.written checksum body).length = tcp.headerSize + body.length := by
  rw [written, length_headed, List.length_append, headerSize]
  omega

theorem transport?_written (tcp : Tcp) (first second : UInt16) (body : Bytes)
    (source destination : IpAddress) :
    Checksum.transport? (tcp.written first body) .tcp source destination =
      Checksum.transport? (tcp.written second body) .tcp source destination := by
  have place : Checksum.At Header.checksum 8 := ⟨rfl, rfl⟩
  have inside : Header.checksum.endByte ≤ Header.size := by decide
  exact Checksum.transport?_headed ((tcp.values 0).take 8) rfl place inside _ _

theorem turns_write {tcp : Tcp} {addresses : Option (IpAddress × IpAddress)}
    {body bytes : Bytes} :
    (tcp.write addresses).Turns (headed tcp.headerSize [] body) () bytes ↔
      tcp.headerSize ≤ maximumHeader ∧
        bytes = tcp.written (Checksum.within addresses .tcp (tcp.written 0 body)) body := by
  have inside : tcp.optionBytes.length ≤
      (List.replicate tcp.optionBytes.length (0 : UInt8) ++ body).length := by
    rw [List.length_append, List.length_replicate]
    omega
  have rest : (List.replicate tcp.optionBytes.length (0 : UInt8) ++ body).drop
      tcp.optionBytes.length = body := List.drop_left' List.length_replicate
  unfold write
  rw [show headed tcp.headerSize [] body = headed Header.size []
    (List.replicate tcp.optionBytes.length 0 ++ body) from headed_split _ _ _]
  simp (disch := decide) only [Write.turns_demand_bind, Write.turns_require_headed,
    Write.turns_store_headed, Write.turns_put_headed inside, List.nil_append, List.cons_append,
    rest]
  apply and_congr_right
  intro _
  have inside : Header.checksum.endByte ≤ Header.size := by decide
  exact Write.turns_checksum_headed ((tcp.values 0).take 8) inside

def ofBytes (bytes : Bytes) (options : List TcpOption) : Tcp where
  sourcePort := (Header.source.get bytes).toUInt16
  destinationPort := (Header.destination.get bytes).toUInt16
  sequence := (Header.sequence.get bytes).toUInt32
  acknowledgement := (Header.acknowledgement.get bytes).toUInt32
  flags := ⟨(Header.flags.get bytes).toUInt8⟩
  window := (Header.window.get bytes).toUInt16
  urgentPointer := (Header.urgentPointer.get bytes).toUInt16
  options := options
  checksum := (Header.checksum.get bytes).toUInt16

theorem decode_eq_ok {bytes : Bytes} {decoded : Decoded Tcp} :
    decode bytes = .ok decoded ↔
      Header.size ≤ 4 * Header.dataOffset.get bytes ∧
        4 * Header.dataOffset.get bytes ≤ bytes.length ∧
        ∃ options, TcpOption.parseAll (Header.options bytes) = .ok options ∧
          decoded =
            ⟨ofBytes bytes options, bytes.drop (4 * Header.dataOffset.get bytes), none⟩ := by
  simp only [decode, Outcome.bind_eq_ok, requireSize_eq_ok, Outcome.demand_eq_ok,
    Bytes.rest_eq_ok]
  constructor
  · intro holds
    rcases holds with ⟨_, _, _, ⟨size, long⟩, options, parsed, payload, ⟨_, rfl⟩, result⟩
    cases result
    exact ⟨size, long, options, parsed, rfl⟩
  · intro holds
    rcases holds with ⟨size, long, options, parsed, rfl⟩
    exact ⟨(), Nat.le_trans size long, (), ⟨size, long⟩, options, parsed, _, ⟨long, rfl⟩, rfl⟩

theorem length_optionBytes (tcp : Tcp) :
    tcp.optionBytes.length = ((tcp.options.flatMap TcpOption.toBytes).length + 3) / 4 * 4 := by
  rw [optionBytes, Bytes.padTo, List.length_append, List.length_replicate]
  omega

theorem plain_of_headerSize_le {tcp : Tcp} (small : tcp.headerSize ≤ maximumHeader)
    (options : ∀ option ∈ tcp.options, option.kind ≠ TcpOption.endOfList ∧
      (option.kind = TcpOption.noOperation → option.data = [])) :
    ∀ option ∈ tcp.options, option.Plain := by
  intro option member
  rcases options option member with ⟨notEnd, bare⟩
  refine ⟨notEnd, bare, ?_⟩
  by_cases single : option.kind = TcpOption.noOperation
  · rw [bare single]
    decide
  · have several : option.isSingleByte = false := by
      simp only [TcpOption.isSingleByte, Bool.or_eq_false_iff, beq_eq_false_iff_ne]
      exact ⟨notEnd, single⟩
    have part : option.toBytes.length ≤ (tcp.options.flatMap TcpOption.toBytes).length := by
      rcases List.mem_iff_append.mp member with ⟨before, behind, split⟩
      rw [split, List.flatMap_append, List.length_append, List.flatMap_cons, List.length_append]
      omega
    have length : option.toBytes.length = option.data.length + 2 := by
      rw [TcpOption.toBytes, several]
      rfl
    have total := tcp.length_optionBytes
    have front : tcp.headerSize = 20 + tcp.optionBytes.length := rfl
    have limit : maximumHeader = 60 := rfl
    omega

theorem headerSize_ofBytes_le {bytes : Bytes} {options : List TcpOption}
    (size : Header.size ≤ 4 * Header.dataOffset.get bytes)
    (parsed : TcpOption.parseAll (Header.options bytes) = .ok options) :
    (ofBytes bytes options).headerSize ≤ 4 * Header.dataOffset.get bytes ∧
      (ofBytes bytes options).headerSize ≤ maximumHeader := by
  have bound : Header.dataOffset.get bytes < 2 ^ 4 := Span.get_lt _ _ (by decide)
  have fits := (TcpOption.plain_of_parseAll parsed).2
  have room : (Header.options bytes).length ≤ 4 * Header.dataOffset.get bytes - Header.size := by
    rw [Header.options, List.length_drop, List.length_take]
    omega
  have length := (ofBytes bytes options).length_optionBytes
  rw [show (ofBytes bytes options).options = options from rfl] at length
  rw [headerSize, length]
  simp only [maximumHeader, Header.size] at size room ⊢
  omega

theorem complete_of_decode {bytes : Bytes} {decoded : Decoded Tcp}
    (read : decode bytes = .ok decoded) :
    (∀ option ∈ decoded.header.options, option.Plain) ∧
      decoded.header.headerSize ≤ maximumHeader ∧ decoded.next = none ∧
      decoded.header.headerSize + decoded.payload.length ≤ bytes.length := by
  rcases decode_eq_ok.mp read with ⟨size, long, options, parsed, rfl⟩
  rcases headerSize_ofBytes_le size parsed with ⟨shorter, small⟩
  refine ⟨(TcpOption.plain_of_parseAll parsed).1, small, rfl, ?_⟩
  calc (ofBytes bytes options).headerSize + (bytes.drop (4 * Header.dataOffset.get bytes)).length
    _ ≤ 4 * Header.dataOffset.get bytes +
        (bytes.drop (4 * Header.dataOffset.get bytes)).length := Nat.add_le_add_right shorter _
    _ = bytes.length := by rw [List.length_drop, Nat.add_sub_cancel' long]

theorem decode_written (tcp : Tcp) (checksum : UInt16) (body : Bytes)
    (plain : ∀ option ∈ tcp.options, option.Plain) (small : tcp.headerSize ≤ maximumHeader) :
    decode (tcp.written checksum body) = .ok ⟨{ tcp with checksum }, body, none⟩ := by
  have room := tcp.length_optionBytes
  have front : tcp.headerSize = Header.size + tcp.optionBytes.length := rfl
  have twenty : Header.size = 20 := rfl
  have sixty : maximumHeader = 60 := rfl
  have length := tcp.length_written checksum body
  obtain ⟨bytes, equal⟩ : ∃ bytes, bytes = tcp.written checksum body := ⟨_, rfl⟩
  rw [← equal] at length ⊢
  have value {field : HeaderField} {value : Nat} (present : (field, value) ∈ tcp.values checksum) :
      field.get bytes = value % 2 ^ field.width := by
    rw [equal]
    exact get_headed (tcp.fit checksum) present _
  have words : 4 * Header.dataOffset.get bytes = tcp.headerSize := by
    have cut : Header.dataOffset.get bytes = tcp.headerSize / 4 % 2 ^ 4 :=
      value (by simp [values])
    rw [cut]
    omega
  have source : Header.source.get bytes = tcp.sourcePort.toNat % 2 ^ 16 :=
    value (by simp [values])
  have destination : Header.destination.get bytes = tcp.destinationPort.toNat % 2 ^ 16 :=
    value (by simp [values])
  have sequence : Header.sequence.get bytes = tcp.sequence.toNat % 2 ^ 32 :=
    value (by simp [values])
  have acknowledgement : Header.acknowledgement.get bytes =
      tcp.acknowledgement.toNat % 2 ^ 32 := value (by simp [values])
  have flags : Header.flags.get bytes = tcp.flags.bits.toNat % 2 ^ 8 := value (by simp [values])
  have window : Header.window.get bytes = tcp.window.toNat % 2 ^ 16 := value (by simp [values])
  have urgentPointer : Header.urgentPointer.get bytes = tcp.urgentPointer.toNat % 2 ^ 16 :=
    value (by simp [values])
  have stored : Header.checksum.get bytes = checksum.toNat % 2 ^ 16 := value (by simp [values])
  have options : Header.options bytes = tcp.optionBytes := by
    rw [Header.options, words, equal, front, written, take_headed, List.take_left, drop_headed]
  have parsed : TcpOption.parseAll (Header.options bytes) = .ok tcp.options := by
    rw [options]
    exact TcpOption.parseAll_toBytes plain _
  have read : ofBytes bytes tcp.options = { tcp with checksum } := by
    simp only [ofBytes, source, destination, sequence, acknowledgement, flags, window,
      urgentPointer, stored, toUInt8_mod, toUInt16_mod, toUInt32_mod]
  have payload : bytes.drop tcp.headerSize = body := by
    rw [equal, front, ← List.drop_drop, written, drop_headed, List.drop_left]
  rw [decode_eq_ok, words]
  refine ⟨Nat.le_add_right _ _, by omega, tcp.options, parsed, ?_⟩
  rw [read, payload]

end Tcp

end PacketStack
