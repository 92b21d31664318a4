import PacketStack.Application.Dhcp
import PacketStack.Proofs.Application.TaggedOptions
import PacketStack.Proofs.Header.Values

/-!
Messages that configure hosts, written and read again. Their options take all that follows the
header.
-/

namespace PacketStack.Dhcp

def values (dhcp : Dhcp) : List (HeaderField × Nat) :=
  [(Header.opcode, dhcp.opcode.toNat), (Header.hardwareType, dhcp.hardwareType.toNat),
    (Header.hardwareLength, dhcp.hardwareLength.toNat), (Header.hops, dhcp.hops.toNat),
    (Header.transaction, dhcp.transaction.toNat), (Header.seconds, dhcp.seconds.toNat),
    (Header.flags, dhcp.flags.toNat), (Header.clientAddress, dhcp.clientAddress.toNat),
    (Header.yourAddress, dhcp.yourAddress.toNat),
    (Header.serverAddress, dhcp.serverAddress.toNat),
    (Header.gatewayAddress, dhcp.gatewayAddress.toNat),
    (Header.clientHardware, dhcp.clientHardware.toNat),
    (Header.serverName, dhcp.serverName.toNat), (Header.file, dhcp.file.toNat),
    (Header.magic, cookie)]

theorem fit (dhcp : Dhcp) : Fit Header.size (dhcp.values.map Prod.fst) := by
  change Fit Header.size [Header.opcode, Header.hardwareType, Header.hardwareLength, Header.hops,
    Header.transaction, Header.seconds, Header.flags, Header.clientAddress, Header.yourAddress,
    Header.serverAddress, Header.gatewayAddress, Header.clientHardware, Header.serverName,
    Header.file, Header.magic]
  decide

def written (dhcp : Dhcp) (body : Bytes) : Bytes :=
  headed Header.size dhcp.values (OptionList.toFlatBytes .dhcp dhcp.options ++ body)

theorem turns_write_of_fits {dhcp : Dhcp}
    (fits : ∀ option ∈ dhcp.options, option.fits .dhcp = true) {body bytes : Bytes} :
    dhcp.write.Turns (headed dhcp.headerSize [] body) () bytes ↔ bytes = dhcp.written body := by
  have size := OptionList.length_toFlatBytes .dhcp dhcp.options
  have blank : headed dhcp.headerSize [] body = headed Header.size []
      (List.replicate (dhcp.options.wireSize .dhcp) 0 ++ body) := headed_split _ _ _
  have room : ∀ values, Header.size + dhcp.options.wireSize .dhcp ≤ (headed Header.size values
      (List.replicate (dhcp.options.wireSize .dhcp) 0 ++ body)).length := by
    intro values
    rw [length_headed, List.length_append, List.length_replicate]
    omega
  have rest : (List.replicate (dhcp.options.wireSize .dhcp) (0 : UInt8) ++ body).drop
      (dhcp.options.wireSize .dhcp) = body := List.drop_left' List.length_replicate
  unfold write
  rw [blank]
  simp (disch := decide) only [Write.turns_require_headed, Write.turns_store_headed,
    List.nil_append, List.cons_append]
  rw [OptionList.turns_write fits, and_iff_right (room _), splice_headed, size, rest]
  exact Iff.rfl

theorem turns_write {dhcp : Dhcp} (readable : OptionList.Readable .dhcp dhcp.options)
    {body bytes : Bytes} :
    dhcp.write.Turns (headed dhcp.headerSize [] body) () bytes ↔ bytes = dhcp.written body :=
  turns_write_of_fits readable.fits

def ofBytes (bytes : Bytes) : Dhcp where
  opcode := (Header.opcode.get bytes).toUInt8
  hardwareType := (Header.hardwareType.get bytes).toUInt8
  hardwareLength := (Header.hardwareLength.get bytes).toUInt8
  hops := (Header.hops.get bytes).toUInt8
  transaction := (Header.transaction.get bytes).toUInt32
  seconds := (Header.seconds.get bytes).toUInt16
  flags := (Header.flags.get bytes).toUInt16
  clientAddress := Header.clientAddress.ipv4Address bytes
  yourAddress := Header.yourAddress.ipv4Address bytes
  serverAddress := Header.serverAddress.ipv4Address bytes
  gatewayAddress := Header.gatewayAddress.ipv4Address bytes
  clientHardware := .ofNat 16 (Header.clientHardware.get bytes)
  serverName := .ofNat 64 (Header.serverName.get bytes)
  file := .ofNat 128 (Header.file.get bytes)
  options := OptionList.parse .dhcp (bytes.drop Header.size)

theorem decode_eq_ok {bytes : Bytes} {decoded : Decoded Dhcp} :
    decode bytes = .ok decoded ↔
      Header.size ≤ bytes.length ∧ Header.magic.get bytes = cookie ∧
        decoded = ⟨ofBytes bytes, [], none⟩ := by
  simp only [decode, requireSize_bind_eq_ok, Outcome.demand_bind_eq_ok, Outcome.pure_eq_ok]
  exact Iff.rfl

theorem complete_of_decode {bytes : Bytes} {decoded : Decoded Dhcp}
    (read : decode bytes = .ok decoded) :
    OptionList.Readable .dhcp decoded.header.options ∧ decoded.next = none ∧
      decoded.payload = [] ∧ decoded.header.headerSize ≤ bytes.length := by
  rcases decode_eq_ok.mp read with ⟨large, magic, rfl⟩
  rcases OptionList.readable_parse .dhcp (bytes.drop Header.size) with ⟨readable, small⟩
  refine ⟨readable, rfl, rfl, ?_⟩
  calc (ofBytes bytes).headerSize
    _ ≤ Header.size + (bytes.drop Header.size).length := Nat.add_le_add_left small _
    _ = bytes.length := by rw [List.length_drop, Nat.add_sub_cancel' large]

theorem decode_written_eq (dhcp : Dhcp) : decode (dhcp.written []) = .ok
    ⟨{ dhcp with
        options := OptionList.parse .dhcp (OptionList.toFlatBytes .dhcp dhcp.options) },
      [], none⟩ := by
  obtain ⟨bytes, equal⟩ : ∃ bytes, bytes = dhcp.written [] := ⟨_, rfl⟩
  have value {field : HeaderField} {value : Nat} (present : (field, value) ∈ dhcp.values) :
      field.get bytes = value % 2 ^ field.width := by
    rw [equal]
    exact get_headed dhcp.fit present _
  have opcode : Header.opcode.get bytes = dhcp.opcode.toNat % 2 ^ 8 := value (by simp [values])
  have hardwareType : Header.hardwareType.get bytes = dhcp.hardwareType.toNat % 2 ^ 8 :=
    value (by simp [values])
  have hardwareLength : Header.hardwareLength.get bytes = dhcp.hardwareLength.toNat % 2 ^ 8 :=
    value (by simp [values])
  have hops : Header.hops.get bytes = dhcp.hops.toNat % 2 ^ 8 := value (by simp [values])
  have transaction : Header.transaction.get bytes = dhcp.transaction.toNat % 2 ^ 32 :=
    value (by simp [values])
  have seconds : Header.seconds.get bytes = dhcp.seconds.toNat % 2 ^ 16 :=
    value (by simp [values])
  have flags : Header.flags.get bytes = dhcp.flags.toNat % 2 ^ 16 := value (by simp [values])
  have clientAddress : Header.clientAddress.get bytes = dhcp.clientAddress.toNat % 2 ^ 32 :=
    value (by simp [values])
  have yourAddress : Header.yourAddress.get bytes = dhcp.yourAddress.toNat % 2 ^ 32 :=
    value (by simp [values])
  have serverAddress : Header.serverAddress.get bytes = dhcp.serverAddress.toNat % 2 ^ 32 :=
    value (by simp [values])
  have gatewayAddress : Header.gatewayAddress.get bytes = dhcp.gatewayAddress.toNat % 2 ^ 32 :=
    value (by simp [values])
  have clientHardware : Header.clientHardware.get bytes = dhcp.clientHardware.toNat % 2 ^ 128 :=
    value (by simp [values])
  have serverName : Header.serverName.get bytes =
      dhcp.serverName.toNat % 2 ^ Header.serverName.width := value (by simp [values])
  have file : Header.file.get bytes = dhcp.file.toNat % 2 ^ Header.file.width :=
    value (by simp [values])
  have magic : Header.magic.get bytes = cookie % 2 ^ 32 := value (by simp [values])
  have options : bytes.drop Header.size = OptionList.toFlatBytes .dhcp dhcp.options := by
    rw [equal, written, drop_headed, List.append_nil]
  have client := dhcp.clientHardware.ofNat_mod 128 rfl
  have server := dhcp.serverName.ofNat_mod Header.serverName.width rfl
  have boot := dhcp.file.ofNat_mod Header.file.width rfl
  have read : ofBytes bytes = { dhcp with
      options := OptionList.parse .dhcp (OptionList.toFlatBytes .dhcp dhcp.options) } := by
    simp only [ofBytes, HeaderField.ipv4Address, opcode, hardwareType, hardwareLength, hops,
      transaction, seconds, flags, clientAddress, yourAddress, serverAddress, gatewayAddress,
      clientHardware, serverName, file, options, client, server, boot, toUInt8_mod, toUInt16_mod,
      toUInt32_mod, Ipv4Address.ofNat_mod]
  rw [← equal, decode_eq_ok, read, magic]
  refine ⟨?_, rfl, rfl⟩
  rw [equal, written, length_headed]
  exact Nat.le_add_right _ _

theorem decode_written (dhcp : Dhcp) (readable : OptionList.Readable .dhcp dhcp.options) :
    decode (dhcp.written []) = .ok ⟨dhcp, [], none⟩ := by
  rw [decode_written_eq, OptionList.parse_toBytes readable]

end PacketStack.Dhcp
