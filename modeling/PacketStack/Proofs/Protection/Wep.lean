import PacketStack.Checked.Wep
import PacketStack.Proofs.Checked.Packet
import PacketStack.Proofs.Protection.Opening

/-!
WEP decryption inverts encapsulation, in the network that the flags of a frame select.

`WepPasswords.decryptChecked_eq` says that a decryption in which every access is checked never meets
a fault, whatever the passwords and the packet. Main statement: `WepPasswords.opened_in_network`,
for passwords and plaintexts of every length.
-/

namespace PacketStack

/-- The network of a data frame as the flags of the distribution system select it. -/
inductive Wireless.Frame.InNetwork (frame : Frame) (fields : Data) (bssid : HwAddress) : Prop where
  | toSystem (up : frame.flags.contains .toDs = true)
      (notDown : frame.flags.contains .fromDs = false) (receiver : frame.addr1 = bssid)
  | fromSystem (notUp : frame.flags.contains .toDs = false)
      (down : frame.flags.contains .fromDs = true) (sender : fields.header.addr2 = bssid)
  | direct (notUp : frame.flags.contains .toDs = false)
      (notDown : frame.flags.contains .fromDs = false) (third : fields.header.addr3 = bssid)
  | relayed (up : frame.flags.contains .toDs = true) (down : frame.flags.contains .fromDs = true)
      (third : fields.header.addr3 = bssid)

theorem Wireless.Frame.bssid?_eq_some_iff {frame : Frame} {fields : Data} {bssid : HwAddress}
    (body : frame.body = .data fields) :
    frame.bssid? = some bssid ↔ frame.InNetwork fields bssid := by
  have second : frame.addr2? = some fields.header.addr2 := by simp [addr2?, sequenceHeader?, body]
  have third : frame.addr3? = some fields.header.addr3 := by simp [addr3?, sequenceHeader?, body]
  unfold bssid?
  constructor
  · intro selected
    split at selected
    · rename_i up down
      exact .toSystem up down (Option.some.inj selected)
    · rename_i up down
      exact .fromSystem up down (Option.some.inj (second.symm.trans selected))
    · have selected := Option.some.inj (third.symm.trans selected)
      cases up : frame.flags.contains .toDs <;> cases down : frame.flags.contains .fromDs
      case false.false => exact .direct up down selected
      case true.true => exact .relayed up down selected
      all_goals simp_all
  · rintro (⟨up, down, same⟩ | ⟨up, down, same⟩ | ⟨up, down, same⟩ | ⟨up, down, same⟩)
    · simp only [up, down, same]
    · simp only [up, down, second, same]
    · simp only [up, down, third, same]
    · simp only [up, down, third, same]

theorem Table.set_of_get? {κ α : Type} [DecidableEq κ] {key : κ} {value : α} {table : Table κ α}
    (found : table.get? key = some value) : table.set key value = table := by
  induction table with
  | nil => cases found
  | cons entry rest ih => grind [set, get?]

namespace Protection

theorem Wep.decrypt?_of_short {password payload : Bytes} (short : payload.length ≤ headerSize + 4) :
    decrypt? password payload = none := by
  unfold decrypt?
  split
  · rename_i first second third keyIndex body
    exact if_pos (by simp only [List.length_cons, headerSize] at short; omega)
  · rfl

theorem Wep.decryptChecked_eq (password payload : Bytes) :
    decryptChecked password payload = .ok (decrypt? password payload) := by
  unfold decryptChecked
  by_cases short : payload.length ≤ headerSize + 4
  · rw [if_pos short, decrypt?_of_short short]
    rfl
  · have large : 8 < payload.length := Nat.lt_of_not_le short
    rcases payload with _ | ⟨first, _ | ⟨second, _ | ⟨third, _ | ⟨keyIndex, body⟩⟩⟩⟩
    case cons.cons.cons.cons =>
      have enough : ¬ body.length ≤ 4 := by simp only [List.length_cons] at large; omega
      have front : Bytes.range (first :: second :: third :: keyIndex :: body) 0 3 =
          .ok [first, second, third] := Bytes.range_front (Nat.le_trans (by decide) large.le)
      have rest : Bytes.rest (first :: second :: third :: keyIndex :: body) headerSize =
          .ok body := Bytes.rest_eq (Nat.le_trans (by decide) large.le)
      have key : Rc4.new ([first, second, third] ++ password) = .ok _ :=
        Rc4.new_eq (List.cons_ne_nil _ _)
      have length : (crypt ⟨first, second, third⟩ password body).length = body.length :=
        Rc4.length_crypt _ _ body
      have size : Outcome.minus (crypt ⟨first, second, third⟩ password body).length 4 = .ok _ :=
        Outcome.minus_eq (by omega)
      rw [if_neg short, front, Outcome.ok_bind, key, Outcome.ok_bind, rest, Outcome.ok_bind]
      change (Outcome.minus (crypt ⟨first, second, third⟩ password body).length 4 >>= _) = _
      rw [size, Outcome.ok_bind]
      change (Bytes.range (crypt ⟨first, second, third⟩ password body) 0 _ >>= _) = _
      rw [Bytes.range_front (Nat.sub_le _ _), Outcome.ok_bind]
      change (Bytes.rest (crypt ⟨first, second, third⟩ password body) _ >>= _) = _
      rw [Bytes.rest_eq (Nat.sub_le _ _), decrypt?, if_neg enough, Crc32.detach?]
      have fits : 4 ≤ (crypt ⟨first, second, third⟩ password body).length := by omega
      simp only [fits, true_and]
      rfl
    all_goals simp at large

theorem attachChecked_eq (plaintext : Bytes) (packet : Packet) :
    attachChecked plaintext packet = .ok ((attachInPlace plaintext).run packet) := by
  have safe := Packet.safe_parse .snap plaintext
  unfold attachChecked attachInPlace
  rw [safe.same]
  cases read : Packet.parse .snap plaintext with
  | ok chain => rfl
  | error failure =>
      cases failure with
      | refused cause => rfl
      | fault fault => exact absurd read (safe.faultless fault)

end Protection

theorem WepPasswords.decryptChecked_eq (keys : WepPasswords) (packet : Packet) :
    keys.decryptChecked packet = .ok (keys.decryptInPlace.run packet) := by
  unfold decryptChecked decryptInPlace
  simp only [StateT.run_bind, StateT.run_get, pure_bind]
  cases Protection.ProtectedFrame.ofPacket? packet with
  | none => rfl
  | some found =>
      simp only
      cases found.frame.bssid?.bind fun bssid => keys.passwords.get? bssid with
      | none => rfl
      | some password =>
          simp only [Protection.Wep.decryptChecked_eq, Outcome.ok_bind]
          cases Protection.Wep.decrypt? password found.payload with
          | none => rfl
          | some plaintext => exact Protection.attachChecked_eq plaintext packet

namespace Protection

theorem Wep.decrypt?_encapsulate (vector : InitialVector) (keyIndex : UInt8) (password : Bytes)
    {data : Bytes} (nonempty : data ≠ []) :
    decrypt? password (encapsulate vector keyIndex password data) = some data := by
  have positive : 0 < data.length := List.length_pos_iff.mpr nonempty
  have length : (crypt vector password (Crc32.attach data)).length = data.length + 4 := by
    rw [crypt, Rc4.length_crypt, Crc32.attach, List.length_append, Crc32.length_bytes]
  refine decrypt?_eq_some_iff.mpr ⟨?_, ?_⟩
  · simp only [encapsulate, List.length_cons, length]
    omega
  · exact Rc4.crypt_crypt _ _ (Crc32.attach data)

end Protection

namespace WepPasswords

open Protection

/-- A network has a password since it was added with it, whatever became of other networks. -/
inductive Registered (bssid : HwAddress) (password : Bytes) : WepPasswords → Prop where
  | added (keys : WepPasswords) : Registered bssid password (keys.add bssid password)
  | addedOther {keys : WepPasswords} (registered : Registered bssid password keys)
      {other : HwAddress} (different : other ≠ bssid) (otherPassword : Bytes) :
      Registered bssid password (keys.add other otherPassword)
  | removedOther {keys : WepPasswords} (registered : Registered bssid password keys)
      {other : HwAddress} (different : other ≠ bssid) :
      Registered bssid password (keys.remove other)

theorem registered_iff {bssid : HwAddress} {password : Bytes} {keys : WepPasswords} :
    keys.Registered bssid password ↔ keys.passwords.get? bssid = some password := by
  constructor
  · intro registered
    induction registered with
    | added keys => rw [add, Table.get?_set, if_pos rfl]
    | addedOther registered different otherPassword ih =>
        rw [add, Table.get?_set, if_neg different, ih]
    | removedOther registered different ih => rw [remove, Table.get?_erase, if_neg different, ih]
  · intro known
    have same : keys.add bssid password = keys := by rw [add, Table.set_of_get? known]
    rw [← same]
    exact .added keys

/-- What was encapsulated under the password of the network of a frame is opened without a fault,
whatever other passwords there are and whichever key the header names. Nothing but the frame is
changed, which has lost its mark, and inside of it is what is read from the plaintext. -/
theorem opened_in_network {keys : WepPasswords} {bssid : HwAddress} {password data : Bytes}
    {packet inside chain : Packet} {frame : Wireless.Frame} {fields : Wireless.Data}
    (vector : Wep.InitialVector) (keyIndex : UInt8)
    (registered : keys.Registered bssid password) (network : frame.InNetwork fields bssid)
    (carries : Carries packet inside frame fields
      (Wep.encapsulate vector keyIndex password data))
    (reads : Packet.parse .snap data = .ok chain) :
    let cleared := { frame with flags := frame.flags.without .protectedFrame }
    cleared.isProtected = false ∧
      ∃ (front : List Layer) (opened : Packet),
        (∀ layer ∈ front, layer.kind ≠ .dot11) ∧
        packet.toList = front ++ .dot11 frame :: inside.toList ∧
        keys.decryptChecked packet = .ok (true, opened) ∧
        keys.decryptInPlace.run packet = (true, opened) ∧
        opened.toList = front ++ .dot11 cleared :: chain.toList := by
  intro cleared
  have selected := (Wireless.Frame.bssid?_eq_some_iff carries.body).mpr network
  have known := registered_iff.mp registered
  have accepted := Wep.decrypt?_encapsulate vector keyIndex password (ne_nil_of_parse_snap reads)
  rcases Packet.exists_front_of_find? carries.found with ⟨front, others, place, changes⟩
  rcases changes fun node => .over (unprotect node.layer) chain with ⟨opened, result, list⟩
  have decrypted : keys.decrypt? packet = some opened := by
    simp only [decrypt?, carries.ofPacket?, selected, known, accepted, Option.bind_eq_bind,
      Option.bind_some, attach?_of_parse reads, result]
  have run : keys.decryptInPlace.run packet = (true, opened) := by
    rw [decryptInPlace_run, decrypted]
    rfl
  refine ⟨Wireless.Flags.contains_without_protectedFrame _, front, opened, others, place, ?_, run,
    list⟩
  rw [decryptChecked_eq, run]

/-- Data between two parts of a distribution system, in a network whose password is empty. -/
def openFields : Wireless.Data := ⟨0, ⟨.ofNat 2, .ofNat 3, 0, 0, .ofNat 4⟩, 0⟩

def openFrame : Wireless.Frame :=
  ⟨0, (Wireless.Flags.toDs.union .fromDs).union .protectedFrame, 0, .ofNat 1, .data openFields⟩

def openPasswords : WepPasswords :=
  ((empty.add (.ofNat 3) [1]).add (.ofNat 3) []).add (.ofNat 1) (List.replicate 300 7)

/-- A subnetwork access header and a byte. -/
def openData : Bytes := [0xaa, 0xaa, 3, 0, 0, 0, 0x88, 0xb5, 42]

def openPayload : Bytes := Wep.encapsulate ⟨0xfb, 2, 0x9e⟩ 0xc0 [] openData

def openChain : Packet := .over (.snap ⟨3, 0, ⟨0x88b5⟩⟩) (.raw [42])

theorem emptyPassword_opened :
    openPasswords.Registered (.ofNat 3) [] ∧ openFrame.InNetwork openFields (.ofNat 3) ∧
      Carries (.over (.dot11 openFrame) (.raw openPayload)) (.raw openPayload) openFrame openFields
        openPayload ∧
      Packet.parse .snap openData = .ok openChain ∧
      ∃ opened, openPasswords.decryptChecked (.over (.dot11 openFrame) (.raw openPayload)) =
        .ok (true, opened) := by
  have registered : openPasswords.Registered (.ofNat 3) [] :=
    .addedOther (.added _) (by decide) _
  have network : openFrame.InNetwork openFields (.ofNat 3) := .relayed rfl rfl rfl
  have carries : Carries (.over (.dot11 openFrame) (.raw openPayload)) (.raw openPayload)
      openFrame openFields openPayload := ⟨rfl, rfl, rfl, rfl⟩
  have reads : Packet.parse .snap openData = .ok openChain := by
    rw [Packet.parse]
    rfl
  rcases opened_in_network ⟨0xfb, 2, 0x9e⟩ 0xc0 registered network carries reads with
    ⟨_, _, opened, _, _, decrypted, _, _⟩
  exact ⟨registered, network, carries, reads, opened, decrypted⟩

end WepPasswords

end PacketStack
