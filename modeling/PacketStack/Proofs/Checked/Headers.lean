import PacketStack.Checked.Headers
import PacketStack.Proofs.Checked.Access

/-!
The readings of the headers of the link, internet and transport layers meet no fault, and their
checked readings give the same.
-/

namespace PacketStack

open Outcome (Safe)

theorem Ethernet.safe_decode (bytes : Bytes) : Safe (decodeChecked bytes) (decode bytes) := by
  apply Safe.sized
  intro large
  simp (disch := decide) only [HeaderField.fetch_eq large, Bytes.rest_eq large, Outcome.ok_bind]
  exact Safe.ok _

theorem Snap.safe_decode (bytes : Bytes) : Safe (decodeChecked bytes) (decode bytes) := by
  apply Safe.sized
  intro large
  simp (disch := decide) only [HeaderField.fetch_eq large, Bytes.rest_eq large, Outcome.ok_bind]
  exact Safe.ok _

theorem CookedCapture.safe_decode (bytes : Bytes) : Safe (decodeChecked bytes) (decode bytes) := by
  apply Safe.sized
  intro large
  simp (disch := decide) only [HeaderField.fetch_eq large, Bytes.rest_eq large, Outcome.ok_bind]
  exact Safe.ok _

theorem Loopback.safe_decode (bytes : Bytes) : Safe (decodeChecked bytes) (decode bytes) := by
  rw [decodeChecked, Bytes.require_eq _ (Nat.zero_le _), bind_assoc]
  apply Safe.sized
  intro large
  simp only [pure_bind, Bytes.rest_eq large, Outcome.ok_bind]
  exact Safe.ok _

theorem Arp.safe_decode (bytes : Bytes) : Safe (decodeChecked bytes) (decode bytes) := by
  apply Safe.sized
  intro large
  simp (disch := decide) only [HeaderField.fetch_eq large, Bytes.rest_eq large, Outcome.ok_bind]
  apply Safe.demanded
  intro _
  exact Safe.ok _

theorem Icmp.safe_decode (bytes : Bytes) : Safe (decodeChecked bytes) (decode bytes) := by
  apply Safe.sized
  intro large
  simp (disch := decide) only [HeaderField.fetch_eq large, Bytes.rest_eq large, Outcome.ok_bind]
  exact Safe.ok _

namespace Ipv4

theorem optionsChecked_eq {bytes : Bytes} (large : Header.size ≤ bytes.length) :
    Header.optionsChecked bytes = .ok (Header.options bytes) := by
  have inside : max (Header.stop bytes) Header.size ≤ bytes.length :=
    Nat.max_le.mpr ⟨Nat.min_le_right _ _, large⟩
  have same : bytes.window Header.size (max (Header.stop bytes) Header.size - Header.size) =
      Header.options bytes := by
    rw [Bytes.window, Header.options, List.drop_take]
    congr 1
    omega
  rw [Header.optionsChecked, HeaderField.fetch_eq large (by decide), Outcome.ok_bind, ← same]
  exact Bytes.range_eq (Nat.le_max_right _ _) inside

theorem safe_decode (bytes : Bytes) : Safe (decodeChecked bytes) (decode bytes) := by
  apply Safe.sized
  intro large
  simp (disch := decide) only [HeaderField.fetch_eq large, optionsChecked_eq large, Outcome.ok_bind]
  apply Safe.demanded
  intro header
  apply Safe.demanded
  intro declared
  apply Safe.bind (Bytes.safe_range _ _)
  · intro payload _
    exact Safe.ok _
  · split <;> omega
  · split <;> omega

end Ipv4

namespace Ipv6

theorem payloadChecked_eq {bytes : Bytes} (large : Header.size ≤ bytes.length) :
    Header.payloadChecked bytes = .ok (Header.payload bytes) := by
  have declared : Header.payloadLength.fetch bytes = .ok (Header.payloadLength.get bytes) :=
    HeaderField.fetch_eq large (by decide)
  rw [Header.payloadChecked, Bytes.rest_eq large, declared, Outcome.ok_bind, Outcome.ok_bind,
    Bytes.range_front (Nat.min_le_right _ _), Header.payload, ← List.take_eq_take_min]

theorem safe_decode (bytes : Bytes) : Safe (decodeChecked bytes) (decode bytes) := by
  apply Safe.sized
  intro large
  simp (disch := decide) only [HeaderField.fetch_eq large, payloadChecked_eq large, Outcome.ok_bind]
  apply Safe.demanded
  intro _
  have cut : (Header.payload bytes).length ≤ bytes.length - Header.size := by
    simp only [Header.payload, List.length_take, List.length_drop]
    omega
  apply Safe.bind (Bytes.safe_range (Nat.le_add_right _ _) (by omega))
  intro payload _
  exact Safe.ok _

end Ipv6

theorem Udp.safe_decode (bytes : Bytes) : Safe (decodeChecked bytes) (decode bytes) := by
  apply Safe.sized
  intro large
  simp (disch := decide) only [HeaderField.fetch_eq large, Outcome.ok_bind]
  apply Safe.bind (Bytes.safe_range _ _)
  · intro payload _
    exact Safe.ok _
  · split <;> omega
  · split <;> omega

theorem TcpOption.safe_parseAll (bytes : Bytes) :
    Safe (parseAllChecked bytes) (parseAll bytes) := by
  fun_induction parseAll bytes with
  | case1 =>
      rw [parseAllChecked]
      exact Safe.ok _
  | case2 rest =>
      rw [parseAllChecked, if_pos rfl]
      exact Safe.ok _
  | case3 rest notEnd ih =>
      rw [parseAllChecked, if_neg notEnd, if_pos rfl]
      exact Safe.bind ih fun _ _ => Safe.ok _
  | case4 kind rest notEnd long length short =>
      rw [parseAllChecked, if_neg notEnd, if_neg long]
      simp only [length, short, if_true]
      exact Safe.refl (Outcome.faultless_malformed _)
  | case5 kind rest notEnd long length whole option ih =>
      have order : 2 ≤ length := by omega
      have inside : length ≤ (kind :: rest).length := by
        rw [List.length_cons]
        omega
      have data : Bytes.window (kind :: rest) 2 (length - 2) = option.data := rfl
      rw [parseAllChecked, if_neg notEnd, if_neg long]
      simp only [length] at whole order inside
      simp only [if_neg whole, Bytes.range_eq order inside, Bytes.rest_eq inside, Outcome.ok_bind]
      exact Safe.bind ih fun _ _ => Safe.ok _

namespace Tcp

theorem optionsChecked_eq {bytes : Bytes} (large : Header.size ≤ bytes.length)
    (declared : Header.size ≤ 4 * Header.dataOffset.get bytes)
    (inside : 4 * Header.dataOffset.get bytes ≤ bytes.length) :
    Header.optionsChecked bytes = .ok (Header.options bytes) := by
  have stop : max Header.size (min (4 * Header.dataOffset.get bytes) bytes.length) =
      4 * Header.dataOffset.get bytes := by omega
  rw [Header.optionsChecked, HeaderField.fetch_eq large (by decide), Outcome.ok_bind,
    Outcome.clamp_eq large, Outcome.ok_bind, stop, Bytes.range_eq declared inside, Header.options,
    List.drop_take, Bytes.window]

theorem safe_decode (bytes : Bytes) : Safe (decodeChecked bytes) (decode bytes) := by
  apply Safe.sized
  intro large
  simp (disch := decide) only [HeaderField.fetch_eq large, Outcome.ok_bind]
  apply Safe.demanded
  intro framed
  rcases framed with ⟨declared, inside⟩
  rw [optionsChecked_eq large declared inside, Outcome.ok_bind]
  apply Safe.bind (TcpOption.safe_parseAll _)
  intro options _
  apply Safe.bind (Bytes.safe_rest inside)
  intro payload _
  exact Safe.ok _

end Tcp

end PacketStack
