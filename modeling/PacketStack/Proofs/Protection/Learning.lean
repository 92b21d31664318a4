import PacketStack.Proofs.Protection.Capturing
import PacketStack.Proofs.Protection.StationKeys

/-!
Where the keys come from that a monitor holds.

`Installs` says which operations give keys: one that names them, and a packet with the last message
of a handshake that proves them right. Main statement: `holds_latest_installed` says that after any
operations the keys of a pair are those of the latest operation that gave it any, and what is known
of networks and their access points.
-/

namespace PacketStack

theorem SessionKeys.code?_of_ofHandshake {handshake : Handshake} {master : MasterKey}
    {keys : SessionKeys} (derived : ofHandshake handshake master = .ok keys) :
    handshake.fourth.code? (confirmationKey keys.material) = some handshake.fourth.key.mic := by
  unfold ofHandshake at derived
  simp only at derived
  split at derived
  · cases derived
  · rename_i code made
    split at derived
    · rename_i right
      cases derived
      rw [made, right]
    · cases derived

namespace Wpa2Monitor

/-- What a monitor may be asked. -/
inductive Operation where
  | addNetwork (passphrase ssid : String)
  | addNetworkAt (passphrase ssid : String) (bssid : HwAddress)
  | addAccessPoint (ssid : String) (bssid : HwAddress)
  | addKeys (stations : StationPair) (keys : SessionKeys)
  | observe (packet : Packet)

/-- What an operation makes of a monitor. One that is refused changes nothing. -/
def apply (monitor : Wpa2Monitor) : Operation → Wpa2Monitor
  | .addNetwork passphrase ssid => monitor.addNetwork passphrase ssid
  | .addNetworkAt passphrase ssid bssid =>
      match monitor.addNetworkAt passphrase ssid bssid with
      | .ok (monitor, _) => monitor
      | .error _ => monitor
  | .addAccessPoint ssid bssid =>
      match monitor.addAccessPoint ssid bssid with
      | .ok (monitor, _) => monitor
      | .error _ => monitor
  | .addKeys stations keys => monitor.addKeys stations keys
  | .observe packet => (monitor.process packet).monitor

/-- A new monitor after operations. -/
def run (operations : List Operation) : Wpa2Monitor := operations.foldl apply empty

def Operation.packet? : Operation → Option Packet
  | .observe packet => some packet
  | _ => none

/-- The passphrase that an operation gives to a network. -/
def Operation.passphrase? (ssid : String) : Operation → Option String
  | .addNetwork passphrase own => if own = ssid then some passphrase else none
  | .addNetworkAt passphrase own _ => if own = ssid then some passphrase else none
  | _ => none

/-- The packets that were observed. -/
def observed (operations : List Operation) : List Packet := operations.filterMap Operation.packet?

/-- The passphrase that was given to a network last. -/
def passphrase? (operations : List Operation) (ssid : String) : Option String :=
  operations.reverse.findSome? (Operation.passphrase? ssid)

/-- The keys that a handshake gives in the network of a frame, whose access point is bound. The code
of the last message is right under them. -/
def Derives (monitor : Wpa2Monitor) (frame : Wireless.Frame) (handshake : Handshake)
    (keys : SessionKeys) : Prop :=
  ∃ bssid ssid master, frame.bssid? = some bssid ∧
    monitor.accessPoints.get? bssid = some ssid ∧ monitor.networks.get? ssid = some master ∧
    SessionKeys.ofHandshake handshake master = .ok keys ∧
    handshake.fourth.code? (SessionKeys.confirmationKey keys.material) =
      some handshake.fourth.key.mic

/-- An operation after others gives keys to a pair. -/
inductive Installs (operations : List Operation) : Operation → StationPair → SessionKeys → Prop
  | named (stations : StationPair) (keys : SessionKeys) :
      Installs operations (.addKeys stations keys) stations keys
  | proved {packet : Packet} {frame : Wireless.Frame} {handshake : Handshake} {keys : SessionKeys}
      (completes : handshake.Completes (observed operations) packet)
      (wireless : packet.findLayer? .dot11 = some (.dot11 frame))
      (derives : (run operations).Derives frame handshake keys) :
      Installs operations (.observe packet) handshake.stations keys

/-- The keys that were given to a pair last. -/
def LastInstalled (operations : List Operation) (stations : StationPair) (keys : SessionKeys) :
    Prop :=
  ∃ before operation after, operations = before ++ operation :: after ∧
    Installs before operation stations keys ∧
    ∀ middle later rest others, after = middle ++ later :: rest →
      ¬ Installs (before ++ operation :: middle) later stations others

variable {monitor : Wpa2Monitor} {operations : List Operation} {operation : Operation}
variable {packets : List Packet} {packet : Packet} {frame : Wireless.Frame}
variable {handshake : Handshake} {stations : StationPair} {keys : SessionKeys}

theorem run_append (operations : List Operation) (operation : Operation) :
    run (operations ++ [operation]) = (run operations).apply operation := by
  rw [run, List.foldl_append]
  rfl

theorem observed_append (operations : List Operation) (operation : Operation) :
    observed (operations ++ [operation]) = observed operations ++ operation.packet?.toList := by
  cases known : operation.packet? <;> simp [observed, List.filterMap_append, known]

@[simp] theorem apply_observe (monitor : Wpa2Monitor) (packet : Packet) :
    monitor.apply (.observe packet) = (monitor.process packet).monitor := rfl

theorem passphrase?_append (operations : List Operation) (operation : Operation) (ssid : String) :
    passphrase? (operations ++ [operation]) ssid =
      (operation.passphrase? ssid).or (passphrase? operations ssid) := by
  cases given : operation.passphrase? ssid <;> simp [passphrase?, given]

theorem Derives.unique {other : SessionKeys} (first : monitor.Derives frame handshake keys)
    (second : monitor.Derives frame handshake other) : keys = other := by
  rcases first with ⟨bssid, ssid, master, network, bound, known, derived, _⟩
  rcases second with ⟨_, _, _, network', bound', known', derived', _⟩
  rw [network, Option.some.injEq] at network'
  rw [← network', bound, Option.some.injEq] at bound'
  rw [← bound', known, Option.some.injEq] at known'
  rw [← known', derived, Except.ok.injEq] at derived'
  exact derived'

theorem learnKeys_of_derives (derives : monitor.Derives frame handshake keys) :
    (monitor.learnKeys frame handshake).1 = monitor.addKeys handshake.stations keys := by
  rcases derives with ⟨bssid, ssid, master, network, bound, known, derived, _⟩
  simp [learnKeys, network, bound, known, derived, Except.toOption]

theorem learnKeys_of_not_derives (useless : ∀ keys, ¬ monitor.Derives frame handshake keys) :
    (monitor.learnKeys frame handshake).1 = monitor := by
  cases network : frame.bssid? with
  | none => simp [learnKeys, network]
  | some bssid =>
      cases bound : monitor.accessPoints.get? bssid with
      | none => simp [learnKeys, network, bound]
      | some ssid =>
          cases known : monitor.networks.get? ssid with
          | none => simp [learnKeys, network, bound, known]
          | some master =>
              cases derived : SessionKeys.ofHandshake handshake master with
              | error cause =>
                  simp [learnKeys, network, bound, known, derived, Except.toOption]
              | ok keys =>
                  have code := SessionKeys.code?_of_ofHandshake derived
                  exact absurd ⟨bssid, ssid, master, network, bound, known, derived, code⟩
                    (useless keys)

theorem eq_of_completes (follows : monitor.capture.Follows packets) {other : Wireless.Frame}
    {others : Handshake} (completes : handshake.Completes packets packet)
    (also : others.Completes packets packet)
    (wireless : packet.findLayer? .dot11 = some (.dot11 frame))
    (found : packet.findLayer? .dot11 = some (.dot11 other)) :
    handshake = others ∧ frame = other := by
  constructor
  · exact follows.eq_of_completes completes also
  · rw [wireless] at found
    cases found
    rfl

/-- What a packet after others makes of a monitor. -/
inductive Step (monitor : Wpa2Monitor) (packets : List Packet) (packet : Packet) :
    Wpa2Monitor → Prop
  | followed (unfinished : ∀ handshake : Handshake, ¬ handshake.Completes packets packet) :
      Step monitor packets packet { monitor with capture := (monitor.capture.process packet).2 }
  | bound {bssid : HwAddress} {ssid : String}
      (unfinished : ∀ handshake : Handshake, ¬ handshake.Completes packets packet)
      (unbound : monitor.accessPoints.contains bssid = false)
      (known : monitor.networks.contains ssid = true) :
      Step monitor packets packet
        { monitor with
          capture := (monitor.capture.process packet).2
          accessPoints := monitor.accessPoints.set bssid ssid }
  | refused {frame : Wireless.Frame} {handshake : Handshake}
      (completes : handshake.Completes packets packet)
      (wireless : packet.findLayer? .dot11 = some (.dot11 frame))
      (useless : ∀ keys, ¬ monitor.Derives frame handshake keys) :
      Step monitor packets packet
        { monitor with capture := (monitor.capture.process packet).2.clear }
  | learned {frame : Wireless.Frame} {handshake : Handshake} {keys : SessionKeys}
      (completes : handshake.Completes packets packet)
      (wireless : packet.findLayer? .dot11 = some (.dot11 frame))
      (derives : monitor.Derives frame handshake keys) :
      Step monitor packets packet
        { monitor with
          capture := (monitor.capture.process packet).2.clear
          keys := monitor.keys.set handshake.stations keys }

theorem discover_fst (monitor : Wpa2Monitor) (frame : Wireless.Frame) :
    (monitor.discover frame).1 = monitor ∨
      ∃ bssid ssid, monitor.accessPoints.contains bssid = false ∧
        monitor.networks.contains ssid = true ∧
        (monitor.discover frame).1 =
          { monitor with accessPoints := monitor.accessPoints.set bssid ssid } := by
  unfold discover addAccessPoint
  split
  · exact .inl rfl
  · rename_i bssid ssid _
    split
    · exact .inl rfl
    · rename_i unbound
      cases known : monitor.networks.contains ssid with
      | false => exact .inl (by simp)
      | true => exact .inr ⟨bssid, ssid, by simpa using unbound, known, by simp⟩

theorem step_process (follows : monitor.capture.Follows packets)
    (idle : monitor.capture.complete = []) (packet : Packet) :
    Step monitor packets packet (monitor.process packet).monitor := by
  rcases follows.process_eq packet with ⟨finishes, adds, _⟩
  cases finished : (monitor.capture.process packet).1 with
  | false =>
      have unfinished : ∀ handshake : Handshake, ¬ handshake.Completes packets packet := by
        intro handshake completes
        rw [finishes.mpr ⟨handshake, completes⟩] at finished
        cases finished
      unfold process
      simp only [finished]
      split
      · rename_i frame _
        simp only [Bool.false_eq_true, if_false]
        let followed : Wpa2Monitor :=
          { monitor with capture := (monitor.capture.process packet).2 }
        rcases followed.discover_fst frame with same | ⟨bssid, ssid, unbound, known, found⟩
        · rw [same]
          exact .followed unfinished
        · rw [found]
          exact .bound unfinished unbound known
      · exact .followed unfinished
  | true =>
      rcases finishes.mp finished with ⟨handshake, completes⟩
      have complete : (monitor.capture.process packet).2.complete = [handshake] := by
        rw [adds handshake completes, idle, List.nil_append]
      have ⟨frame, wireless⟩ : ∃ frame, packet.findLayer? .dot11 = some (.dot11 frame) := by
        rcases completes with ⟨_, _, _, _, _, _, carried, _⟩
        rcases carried.stations with ⟨frame, _, _, wireless, _⟩
        exact ⟨frame, wireless⟩
      let cleared : Wpa2Monitor :=
        { monitor with capture := (monitor.capture.process packet).2.clear }
      have result : (monitor.process packet).monitor = (cleared.learnKeys frame handshake).1 := by
        simp [process, wireless, finished, complete, learnAll, cleared]
      rw [result]
      by_cases useful : ∃ keys, monitor.Derives frame handshake keys
      · rcases useful with ⟨keys, derives⟩
        have also : cleared.Derives frame handshake keys := derives
        rw [learnKeys_of_derives also]
        exact .learned completes wireless derives
      · rw [not_exists] at useful
        have also : ∀ keys, ¬ cleared.Derives frame handshake keys := useful
        rw [learnKeys_of_not_derives also]
        exact .refused completes wireless useful

theorem apply_addNetworkAt (monitor : Wpa2Monitor) (passphrase ssid : String) (bssid : HwAddress) :
    monitor.apply (.addNetworkAt passphrase ssid bssid) =
      { monitor.addNetwork passphrase ssid with
        accessPoints := monitor.accessPoints.set bssid ssid } := by
  have known : (monitor.addNetwork passphrase ssid).networks.contains ssid = true := by
    simp [addNetwork, Table.contains_set]
  simp only [apply, addNetworkAt, addAccessPoint, known, if_true]
  rfl

theorem apply_addAccessPoint (monitor : Wpa2Monitor) (ssid : String) (bssid : HwAddress) :
    monitor.apply (.addAccessPoint ssid bssid) =
      if monitor.networks.contains ssid then
        { monitor with accessPoints := monitor.accessPoints.set bssid ssid }
      else monitor := by
  simp only [apply, addAccessPoint]
  cases monitor.networks.contains ssid <;> rfl

/-- What is known of a monitor after operations. -/
structure Sound (operations : List Operation) (monitor : Wpa2Monitor) : Prop where
  follows : monitor.capture.Follows (observed operations)
  idle : monitor.capture.complete = []
  networks : ∀ ssid, monitor.networks.get? ssid =
    (passphrase? operations ssid).map fun passphrase => .ofPassphrase passphrase ssid
  registered : ∀ bssid ssid, monitor.accessPoints.get? bssid = some ssid →
    monitor.networks.contains ssid = true

namespace Sound

variable {changed : Wpa2Monitor} {passphrase ssid : String} {bssid : HwAddress}

theorem start : Sound [] empty where
  follows := Handshake.Capture.follows_empty
  idle := rfl
  networks _ := rfl
  registered _ _ bound := by cases bound

theorem registered_set (sound : Sound operations monitor)
    (known : changed.networks.contains ssid = true)
    (kept : ∀ other, monitor.networks.contains other = true →
      changed.networks.contains other = true)
    (bound : changed.accessPoints = monitor.accessPoints.set bssid ssid) :
    ∀ own name, changed.accessPoints.get? own = some name →
      changed.networks.contains name = true := by
  intro own name found
  rw [bound, Table.get?_set] at found
  split at found
  · cases found
    exact known
  · exact kept name (sound.registered own name found)

theorem follows_of_quiet (sound : Sound operations monitor) (quiet : operation.packet? = none) :
    monitor.capture.Follows (observed (operations ++ [operation])) := by
  rw [observed_append, quiet]
  simpa using sound.follows

theorem networks_of_silent (sound : Sound operations monitor)
    (silent : ∀ own, operation.passphrase? own = none) (own : String) :
    monitor.networks.get? own =
      (passphrase? (operations ++ [operation]) own).map
        fun passphrase => .ofPassphrase passphrase own := by
  rw [passphrase?_append, silent, Option.none_or]
  exact sound.networks own

theorem networks_set (sound : Sound operations monitor)
    (given : ∀ own, operation.passphrase? own = if ssid = own then some passphrase else none)
    (own : String) :
    (monitor.addNetwork passphrase ssid).networks.get? own =
      (passphrase? (operations ++ [operation]) own).map
        fun passphrase => .ofPassphrase passphrase own := by
  rw [passphrase?_append, given, addNetwork, Table.get?_set]
  split
  · rename_i same
    rw [same]
    rfl
  · exact sound.networks own

theorem apply (sound : Sound operations monitor) (operation : Operation) :
    Sound (operations ++ [operation]) (monitor.apply operation) := by
  have added (passphrase ssid other : String)
      (known : monitor.networks.contains other = true) :
      (monitor.addNetwork passphrase ssid).networks.contains other = true := by
    simp [addNetwork, Table.contains_set, known]
  cases operation with
  | addNetwork passphrase ssid =>
      exact {
        follows := sound.follows_of_quiet rfl
        idle := sound.idle
        networks := sound.networks_set fun _ => rfl
        registered := fun own name bound =>
          added passphrase ssid name (sound.registered own name bound) }
  | addNetworkAt passphrase ssid bssid =>
      rw [apply_addNetworkAt]
      exact {
        follows := sound.follows_of_quiet rfl
        idle := sound.idle
        networks := sound.networks_set fun _ => rfl
        registered := sound.registered_set (by simp [addNetwork, Table.contains_set])
          (added passphrase ssid) rfl }
  | addAccessPoint ssid bssid =>
      have unchanged : Sound (operations ++ [.addAccessPoint ssid bssid]) monitor := {
        follows := sound.follows_of_quiet rfl
        idle := sound.idle
        networks := sound.networks_of_silent fun _ => rfl
        registered := sound.registered }
      rw [apply_addAccessPoint]
      split
      · rename_i known
        exact { unchanged with
          registered := sound.registered_set known (fun _ known => known) rfl }
      · exact unchanged
  | addKeys stations keys =>
      exact {
        follows := sound.follows_of_quiet rfl
        idle := sound.idle
        networks := sound.networks_of_silent fun _ => rfl
        registered := sound.registered }
  | observe packet =>
      have follows : (monitor.capture.process packet).2.Follows
          (observed (operations ++ [.observe packet])) := by
        rw [observed_append]
        exact sound.follows.process packet
      have silent : ∀ own, (Operation.observe packet).passphrase? own = none := fun _ => rfl
      have networks := sound.networks_of_silent silent
      have step := step_process sound.follows sound.idle packet
      have still (unfinished : ∀ handshake : Handshake,
          ¬ handshake.Completes (observed operations) packet) :
          (monitor.capture.process packet).2.complete = [] := by
        rw [sound.follows.complete_of_not_completes unfinished, sound.idle]
      rw [apply_observe]
      generalize (monitor.process packet).monitor = changed at step
      cases step with
      | followed unfinished => exact ⟨follows, still unfinished, networks, sound.registered⟩
      | bound unfinished unbound known =>
          exact ⟨follows, still unfinished, networks,
            sound.registered_set known (fun _ known => known) rfl⟩
      | refused completes wireless useless => exact ⟨follows.clear, rfl, networks, sound.registered⟩
      | learned completes wireless derives => exact ⟨follows.clear, rfl, networks, sound.registered⟩

end Sound

theorem sound_run (operations : List Operation) : Sound operations (run operations) := by
  induction operations using List.reverseRecOn with
  | nil => exact .start
  | append_singleton operations operation ih =>
      rw [run_append]
      exact ih.apply operation

theorem Installs.keys_apply (installs : Installs operations operation stations keys) :
    ((run operations).apply operation).keys = (run operations).keys.set stations keys := by
  have sound := sound_run operations
  cases installs with
  | named stations keys => rfl
  | @proved packet frame handshake _ completes wireless derives =>
      have step := step_process sound.follows sound.idle packet
      rw [apply_observe]
      generalize ((run operations).process packet).monitor = changed at step
      cases step with
      | followed unfinished => exact absurd completes (unfinished handshake)
      | bound unfinished _ _ => exact absurd completes (unfinished handshake)
      | refused also found useless =>
          rcases eq_of_completes sound.follows completes also wireless found with ⟨rfl, rfl⟩
          exact absurd derives (useless keys)
      | learned also found others =>
          rcases eq_of_completes sound.follows completes also wireless found with ⟨rfl, rfl⟩
          rw [derives.unique others]

theorem keys_apply_of_not_installs
    (nothing : ∀ stations keys, ¬ Installs operations operation stations keys) :
    ((run operations).apply operation).keys = (run operations).keys := by
  have sound := sound_run operations
  cases operation with
  | addNetwork passphrase ssid => rfl
  | addNetworkAt passphrase ssid bssid =>
      rw [apply_addNetworkAt]
      rfl
  | addAccessPoint ssid bssid =>
      rw [apply_addAccessPoint]
      split <;> rfl
  | addKeys stations keys => exact absurd (.named stations keys) (nothing stations keys)
  | observe packet =>
      have step := step_process sound.follows sound.idle packet
      rw [apply_observe]
      generalize ((run operations).process packet).monitor = changed at step
      cases step with
      | followed _ => rfl
      | bound _ _ _ => rfl
      | refused _ _ _ => rfl
      | learned completes wireless derives =>
          exact absurd (.proved completes wireless derives) (nothing _ _)

theorem Installs.get?_apply (installs : Installs operations operation stations keys) :
    ((run operations).apply operation).keys.get? stations = some keys := by
  rw [installs.keys_apply, Table.get?_set, if_pos rfl]

theorem get?_apply_of_not_installs
    (nothing : ∀ keys, ¬ Installs operations operation stations keys) :
    ((run operations).apply operation).keys.get? stations =
      (run operations).keys.get? stations := by
  by_cases given : ∃ other others, Installs operations operation other others
  · rcases given with ⟨other, others, installs⟩
    have different : other ≠ stations := by
      rintro rfl
      exact nothing others installs
    rw [installs.keys_apply, Table.get?_set, if_neg different]
  · simp only [not_exists] at given
    rw [keys_apply_of_not_installs given]

theorem eq_or_before_of_append_eq {α : Type} {list before after : List α} {last entry : α}
    (split : list ++ [last] = before ++ entry :: after) :
    (list = before ∧ last = entry ∧ after = []) ∨
      ∃ shorter, after = shorter ++ [last] ∧ list = before ++ entry :: shorter := by
  rcases List.eq_nil_or_concat after with rfl | ⟨shorter, final, rfl⟩
  · rcases List.append_inj' split rfl with ⟨same, ends⟩
    cases ends
    exact .inl ⟨same, rfl, rfl⟩
  · rw [List.concat_eq_append, ← List.cons_append, ← List.append_assoc] at split
    rcases List.append_inj' split rfl with ⟨same, ends⟩
    cases ends
    exact .inr ⟨shorter, List.concat_eq_append, same⟩

theorem lastInstalled_append_of_installs {others : SessionKeys}
    (installs : Installs operations operation stations others) :
    LastInstalled (operations ++ [operation]) stations keys ↔ keys = others := by
  constructor
  · intro last
    rcases last with ⟨before, given, after, split, also, latest⟩
    rcases eq_or_before_of_append_eq split with ⟨rfl, rfl, rfl⟩ | ⟨shorter, rfl, rfl⟩
    · exact Option.some.inj (also.get?_apply.symm.trans installs.get?_apply)
    · exact absurd installs (latest shorter operation [] others rfl)
  · intro same
    rw [same]
    refine ⟨operations, operation, [], rfl, installs, ?_⟩
    intro middle later rest _ split
    cases middle <;> cases split

theorem lastInstalled_append_of_not_installs
    (nothing : ∀ others, ¬ Installs operations operation stations others) :
    LastInstalled (operations ++ [operation]) stations keys ↔
      LastInstalled operations stations keys := by
  constructor
  · intro last
    rcases last with ⟨before, given, after, split, also, latest⟩
    rcases eq_or_before_of_append_eq split with ⟨rfl, rfl, rfl⟩ | ⟨shorter, rfl, rfl⟩
    · exact absurd also (nothing keys)
    · refine ⟨before, given, shorter, rfl, also, ?_⟩
      intro middle later rest others parts
      apply latest middle later (rest ++ [operation]) others
      rw [parts, List.append_assoc, List.cons_append]
  · intro last
    rcases last with ⟨before, given, after, rfl, also, latest⟩
    refine ⟨before, given, after ++ [operation], by simp, also, ?_⟩
    intro middle later rest others split
    rcases eq_or_before_of_append_eq split with ⟨rfl, rfl, rfl⟩ | ⟨shorter, rfl, parts⟩
    · exact nothing others
    · exact latest middle later shorter others parts

theorem get?_run_eq_some_iff (operations : List Operation) (stations : StationPair)
    (keys : SessionKeys) :
    (run operations).keys.get? stations = some keys ↔ LastInstalled operations stations keys := by
  induction operations using List.reverseRecOn with
  | nil =>
      constructor
      · intro held
        cases held
      · intro last
        rcases last with ⟨before, given, after, split, _⟩
        cases before <;> cases split
  | append_singleton operations operation ih =>
      rw [run_append]
      by_cases given : ∃ others, Installs operations operation stations others
      · rcases given with ⟨others, installs⟩
        rw [lastInstalled_append_of_installs installs, installs.get?_apply, Option.some.injEq,
          eq_comm]
      · rw [not_exists] at given
        rw [lastInstalled_append_of_not_installs given, get?_apply_of_not_installs given, ih]

theorem bound_process (sound : Sound operations monitor) {bssid : HwAddress} {ssid : String}
    (held : monitor.accessPoints.get? bssid = some ssid) (packet : Packet) :
    (monitor.process packet).monitor.accessPoints.get? bssid = some ssid := by
  have step := step_process sound.follows sound.idle packet
  generalize (monitor.process packet).monitor = changed at step ⊢
  cases step with
  | @bound other _ _ unbound _ =>
      have different : other ≠ bssid := by
        rintro rfl
        rw [Table.contains, held] at unbound
        cases unbound
      rw [Table.get?_set, if_neg different]
      exact held
  | followed _ => exact held
  | refused _ _ _ => exact held
  | learned _ _ _ => exact held

/-- After any operations every access point is bound to a network with a passphrase, and packets
change no binding. Keys are given by operations that name them and by handshakes that prove them
right, never by other operations or handshakes, and a pair holds those it was given last. -/
theorem holds_latest_installed (operations : List Operation) :
    let monitor := run operations
    ((∀ bssid ssid, monitor.accessPoints.get? bssid = some ssid →
        monitor.networks.contains ssid = true) ∧
      (∀ ssid, monitor.networks.get? ssid =
        (passphrase? operations ssid).map fun passphrase => .ofPassphrase passphrase ssid) ∧
      ∀ packet bssid ssid, monitor.accessPoints.get? bssid = some ssid →
        (monitor.process packet).monitor.accessPoints.get? bssid = some ssid) ∧
    ((∀ operation stations keys, Installs operations operation stations keys →
        (monitor.apply operation).keys = monitor.keys.set stations keys) ∧
      (∀ operation, (∀ stations keys, ¬ Installs operations operation stations keys) →
        (monitor.apply operation).keys = monitor.keys) ∧
      ∀ packet frame (handshake : Handshake), handshake.Completes (observed operations) packet →
        packet.findLayer? .dot11 = some (.dot11 frame) →
        (∀ keys, ¬ monitor.Derives frame handshake keys) →
        (monitor.process packet).monitor.keys = monitor.keys) ∧
    ∀ stations keys,
      monitor.keys.get? stations = some keys ↔ LastInstalled operations stations keys := by
  intro monitor
  have sound : Sound operations monitor := sound_run operations
  refine ⟨⟨sound.registered, sound.networks, ?_⟩, ⟨?_, ?_, ?_⟩, ?_⟩
  · intro packet bssid ssid held
    exact bound_process sound held packet
  · intro operation stations keys installs
    exact installs.keys_apply
  · intro operation nothing
    exact keys_apply_of_not_installs nothing
  · intro packet frame handshake completes wireless useless
    have nothing : ∀ stations keys, ¬ Installs operations (.observe packet) stations keys := by
      intro stations keys installs
      cases installs with
      | proved also found derives =>
          rcases eq_of_completes sound.follows completes also wireless found with ⟨rfl, rfl⟩
          exact useless keys derives
    exact keys_apply_of_not_installs nothing
  · intro stations keys
    exact get?_run_eq_some_iff operations stations keys

end Wpa2Monitor

end PacketStack
