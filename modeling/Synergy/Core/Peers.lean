import Mathlib.Data.Finset.Sort
import Synergy.Core.Snapshots
import Synergy.Lib.Split

/-!
# Whom the router dials

The addresses of a machine go through the cloud as one string, which `Screen::ipList` joins and the
slots of `ServiceWorker` split. How an address is written and read is a parameter, with what is
documented of it: reading undoes writing, and there is no comma in what is written.

What is dialled was in the list of another machine's screen, in a snapshot that was received. The
slots look at the id of the local screen when they run, and the handlers that they post do not; so
the ids have to be right at the first, and after the local screen was removed, when there is no such
id any more, no screen may be left over that has it.
-/

set_option autoImplicit false

namespace Synergy

open Lib

/-! ## IP lists -/

namespace Screen

variable {α : Type} [LinearOrder α] (toString : α → String)

/-- `ipList`, and whether the list has changed. The set is in ascending order. -/
def setIpList (s : Screen) (ips : Finset α) : Screen × Bool :=
  let list := ",".intercalate ((ips.sort (· ≤ ·)).map toString)
  ({ s with ipList := list }, s.ipList ≠ list)

/-- The parts of the list, as the slots see them. -/
def addresses (s : Screen) : List String := s.ipList.splitOn ","

/-- **What was joined is split again**, if there was an address. -/
theorem addresses_setIpList (hcomma : ∀ ip, ',' ∉ (toString ip).toList) (s : Screen)
    {ips : Finset α} (hne : ips.Nonempty) :
    (s.setIpList toString ips).1.addresses = (ips.sort (· ≤ ·)).map toString := by
  have hparts : (ips.sort (· ≤ ·)).map toString ≠ [] := by
    obtain ⟨ip, hip⟩ := hne
    exact List.ne_nil_of_mem (List.mem_map_of_mem ((Finset.mem_sort _).mpr hip))
  refine splitOn_intercalate ',' hparts fun part hpart => ?_
  obtain ⟨ip, _, rfl⟩ := List.mem_map.mp hpart
  exact hcomma ip

end Screen

namespace ServiceWorker

variable {w : ServiceWorker} {isAddress : String → Bool} {screen : Screen} {cause : Cause}

/-- The addresses of a list that are dialled. -/
def dialled (w : ServiceWorker) (addresses : List String) (cause : Cause) : List Dial :=
  if w.running then (addresses.filter fun a => a ∉ w.peers).map fun a => ⟨a, cause⟩ else []

theorem foldl_addPeer (addresses : List String) :
    addresses.foldl (addPeer cause) w =
      { w with dials := w.dials ++ w.dialled addresses cause } := by
  induction addresses generalizing w with
  | nil => simp [dialled]
  | cons address addresses ih =>
    rw [List.foldl_cons, ih]
    by_cases hpeer : address ∈ w.peers
    · simp [addPeer, dialled, hpeer]
    · cases hrunning : w.running <;> simp [addPeer, dialled, hpeer, hrunning]

/-- Either an address does not parse, which is thrown, or all that the router is not connected to
are dialled. -/
theorem dial_eq : w.dial isAddress screen cause =
    if ∀ address ∈ screen.addresses, isAddress address then
      some { w with dials := w.dials ++ w.dialled screen.addresses cause }
    else none := by
  rw [dial, ← foldl_addPeer]
  rfl

section

variable {α : Type} [LinearOrder α] (toString : α → String) (fromString : String → Option α)

/-- **A machine is dialled at the addresses it has**: the other machines read the list that it
wrote, and their routers dial all its addresses in ascending order, but for those that they are
connected to. If it has none, then what they read does not parse, and `from_string` throws. -/
theorem dial_setIpList (hround : ∀ ip, fromString (toString ip) = some ip)
    (hcomma : ∀ ip, ',' ∉ (toString ip).toList) (hempty : fromString "" = none)
    (w : ServiceWorker) (screen : Screen) (ips : Finset α) (cause : Cause) :
    w.dial (fun a => (fromString a).isSome) (screen.setIpList toString ips).1 cause =
      if ips.Nonempty then
        some { w with
          dials := w.dials ++
            if w.running then
              ((ips.sort (· ≤ ·)).filter fun ip => toString ip ∉ w.peers).map
                fun ip => ⟨toString ip, cause⟩
            else [] }
      else none := by
  rw [dial_eq]
  by_cases hne : ips.Nonempty
  · rw [Screen.addresses_setIpList toString hcomma screen hne, if_pos hne, if_pos]
    · simp [dialled, List.filter_map, Function.comp_def]
    · intro address haddress
      obtain ⟨ip, _, rfl⟩ := List.mem_map.mp haddress
      simp [hround]
  · obtain rfl := Finset.not_nonempty_iff_eq_empty.mp hne
    rw [if_neg hne, if_neg]
    intro hall
    have hlist : (screen.setIpList toString ∅).1.ipList = "" := by simp [Screen.setIpList]
    have hparts : "" ∈ (screen.setIpList toString ∅).1.addresses := by
      rw [Screen.addresses, hlist, splitOn_empty]
      exact List.mem_singleton_self _
    simpa [hempty] using hall "" hparts

end

end ServiceWorker

/-! ## Addresses in dotted decimal -/

namespace Ipv4

def octets (ip : Fin (2 ^ 32)) : List ℕ :=
  [ip / 2 ^ 24, ip / 2 ^ 16 % 256, ip / 2 ^ 8 % 256, ip % 256]

def toString (ip : Fin (2 ^ 32)) : String := ".".intercalate ((octets ip).map Nat.repr)

/-- The octet of which that is the decimal representation. -/
def octetOf (part : String) : Option ℕ :=
  let n := part.toList.foldl (fun n c => 10 * n + (c.toNat - '0'.toNat)) 0
  if n < 256 ∧ n.repr = part then some n else none

def fromString (s : String) : Option (Fin (2 ^ 32)) :=
  match (s.splitOn ".").mapM octetOf with
  | some [a, b, c, d] => some (Fin.ofNat _ (a * 2 ^ 24 + b * 2 ^ 16 + c * 2 ^ 8 + d))
  | _ => none

variable {ip : Fin (2 ^ 32)}

theorem octets_lt : ∀ n ∈ octets ip, n < 256 := by
  have hlt := ip.isLt
  simp only [octets, List.mem_cons, List.not_mem_nil, or_false]
  rintro n (rfl | rfl | rfl | rfl) <;> omega

theorem octet_spec : ∀ n ∈ List.range 256, octetOf n.repr = some n ∧ ',' ∉ n.repr.toList ∧
    '.' ∉ n.repr.toList := by
  decide +kernel

theorem mapM_octetOf {ns : List ℕ} (h : ∀ n ∈ ns, octetOf n.repr = some n) :
    (ns.map Nat.repr).mapM octetOf = some ns := by
  induction ns with
  | nil => rfl
  | cons n ns ih =>
    obtain ⟨hn, hns⟩ := List.forall_mem_cons.mp h
    rw [List.map_cons, List.mapM_cons, hn, ih hns]
    rfl

theorem fromString_toString (ip : Fin (2 ^ 32)) : fromString (toString ip) = some ip := by
  have hoctets : ∀ n ∈ octets ip, n ∈ List.range 256 :=
    fun n hn => List.mem_range.mpr (octets_lt n hn)
  have hparts : (toString ip).splitOn "." = (octets ip).map Nat.repr := by
    refine splitOn_intercalate '.' (by simp [octets]) fun part hpart => ?_
    obtain ⟨n, hn, rfl⟩ := List.mem_map.mp hpart
    exact (octet_spec n (hoctets n hn)).2.2
  have hread : ((octets ip).map Nat.repr).mapM octetOf = some (octets ip) :=
    mapM_octetOf fun n hn => (octet_spec n (hoctets n hn)).1
  have hvalue : (ip : ℕ) / 2 ^ 24 * 2 ^ 24 + ip / 2 ^ 16 % 256 * 2 ^ 16 +
      ip / 2 ^ 8 % 256 * 2 ^ 8 + ip % 256 = ip := by
    omega
  rw [fromString, hparts, hread]
  simp only [octets, hvalue, Fin.ofNat_val_eq_self]

theorem comma_not_mem_toString (ip : Fin (2 ^ 32)) : ',' ∉ (toString ip).toList := by
  have hspec : ∀ n ∈ octets ip, ',' ∉ n.repr.toList :=
    fun n hn => (octet_spec n (List.mem_range.mpr (octets_lt n hn))).2.1
  rw [toString, String.toList_intercalate]
  simpa [octets, List.intercalate] using hspec

theorem fromString_empty : fromString "" = none := by
  have hparts : "".splitOn "." = [""] := splitOn_ofList '.' ""
  rw [fromString, hparts]
  decide +kernel

end Ipv4

namespace ServiceWorker

/-- The list of a machine with two addresses, read by one that is connected to the first. -/
theorem dial_setIpList_twoAddresses :
    ({ alone with running := true, peers := ["10.0.0.5"] } : ServiceWorker).dial
        (fun a => (Ipv4.fromString a).isSome)
        ((Screen.setIpList Ipv4.toString { id := 5 } {0x0a000107, 0x0a000005}).1) .earlier =
      if ({0x0a000107, 0x0a000005} : Finset (Fin (2 ^ 32))).Nonempty then
        some { alone with
          running := true
          peers := ["10.0.0.5"]
          dials := alone.dials ++
            if true then
              ((({0x0a000107, 0x0a000005} : Finset (Fin (2 ^ 32))).sort (· ≤ ·)).filter
                fun ip => Ipv4.toString ip ∉ ["10.0.0.5"]).map
                fun ip => ⟨Ipv4.toString ip, .earlier⟩
            else [] }
      else none :=
  dial_setIpList Ipv4.toString Ipv4.fromString Ipv4.fromString_toString
    Ipv4.comma_not_mem_toString Ipv4.fromString_empty
    { alone with running := true, peers := ["10.0.0.5"] } { id := 5 } _ .earlier

/-! ## Where the addresses come from -/

variable {w w' : ServiceWorker} {isAddress : String → Bool} {screen : Screen} {cause : Cause}
  {P : String → Prop} {snapshot : ProfileConfig} {signals : List ProfileSignal}

/-- Every address in the list of the screen is one of those. -/
def Known (P : String → Prop) (screen : Screen) : Prop := ∀ address ∈ screen.addresses, P address

instance [DecidablePred P] (screen : Screen) : Decidable (Known P screen) :=
  decidable_of_iff (∀ address ∈ (screen.ipList.toList.splitOn ',').map String.ofList, P address) <|
    by rw [← splitOn_ofList]; rfl

/-- The screen that is dialled for a signal, if it is not the local one. -/
def peer : ProfileSignal → Option Screen
  | .screenOnline screen => some screen
  | .screenIPSetChanged screen => some screen
  | .modified | .profileIdChanged _ | .profileNameChanged _ | .profileServerChanged _
  | .screenNameChanged _ | .screenPositionChanged _ | .screenStatusChanged _
  | .screenSetChanged _ _ | .screenOffline _ => none

/-- The slots of those signals dial known addresses only. Where one of them finds the local screen
removed, so do the slots of those that are left then, for whichever screen. -/
structure Knows (P : String → Prop) (screenId : Int) (signals : List ProfileSignal) : Prop where
  others : ∀ signal ∈ signals, ∀ screen, peer signal = some screen → screen.id ≠ screenId →
    Known P screen
  removed : ∀ added removed, .screenSetChanged added removed ∈ signals →
    (∃ screen ∈ removed, screen.id = screenId) →
    ∀ signal ∈ signals, ∀ screen, peer signal = some screen → Known P screen

theorem Knows.tail {screenId : Int} {signal : ProfileSignal}
    (h : Knows P screenId (signal :: signals)) : Knows P screenId signals where
  others s hs := h.others s (List.mem_cons_of_mem _ hs)
  removed added removed hmem hlocal s hs :=
    h.removed added removed (List.mem_cons_of_mem _ hmem) hlocal s (List.mem_cons_of_mem _ hs)

theorem knows_of_forall (h : ∀ signal ∈ signals, ∀ screen, peer signal = some screen →
    Known P screen) (screenId : Int) : Knows P screenId signals :=
  ⟨fun s hs screen hpeer _ => h s hs screen hpeer, fun _ _ _ _ => h⟩

/-- What is received, and has other machines' screens with known addresses only. -/
theorem knows_compare (m : ProfileConfig) {target : ProfileConfig} {screenId : Int}
    (h : ∀ screen ∈ target.screens, screen.id ≠ screenId → Known P screen) :
    Knows P screenId (m.compare target) := by
  by_cases hversion : m.profile.version ≤ target.profile.version
  · have hpeer : ∀ signal ∈ m.compare target, ∀ screen, peer signal = some screen →
        screen ∈ target.screens := by
      intro signal hsignal screen hscreen
      cases signal with
      | screenOnline t =>
        obtain rfl := Option.some.inj hscreen
        exact ((ProfileConfig.online_mem_compare hversion).mp hsignal).1
      | screenIPSetChanged t =>
        obtain rfl := Option.some.inj hscreen
        exact ((ProfileConfig.ipSet_mem_compare hversion).mp hsignal).1
      | modified | profileIdChanged _ | profileNameChanged _ | profileServerChanged _
      | screenNameChanged _ | screenPositionChanged _ | screenStatusChanged _
      | screenSetChanged _ _ | screenOffline _ => exact absurd hscreen (by simp [peer])
    refine ⟨fun s hs screen hscreen => h screen (hpeer s hs screen hscreen), ?_⟩
    intro added removed hmem hlocal s hs screen hscreen
    refine h screen (hpeer s hs screen hscreen) fun hid => ?_
    exact ProfileConfig.keepsLocal_compare ⟨screen, hpeer s hs screen hscreen, hid⟩ added removed
      hmem hlocal
  · have hnil : m.compare target = [] := by
      rw [ProfileConfig.compare, if_pos (by omega)]
    rw [hnil]
    exact knows_of_forall (by simp) screenId

/-- All that was dialled, and all that will be for what has come in so far, is known. -/
structure Sourced (P : String → Prop) (w : ServiceWorker) : Prop where
  posted : ∀ p ∈ w.posted, ∀ screen, p.task = .dial screen → Known P screen
  dials : ∀ d ∈ w.dials, P d.address
  leaving : ∀ l, w.leaving = some l →
    ∀ signal ∈ l.signals, ∀ screen, peer signal = some screen → Known P screen

theorem Sourced.dial (h : w.Sourced P) (hknown : Known P screen)
    (hdial : w.dial isAddress screen cause = some w') : w'.Sourced P := by
  rw [dial_eq] at hdial
  obtain ⟨_, hdial⟩ := Option.ite_none_right_eq_some.mp hdial
  obtain rfl := Option.some.inj hdial
  refine ⟨h.posted, fun d hd => ?_, h.leaving⟩
  rcases List.mem_append.mp hd with hold | hnew
  · exact h.dials d hold
  · unfold dialled at hnew
    split at hnew
    · obtain ⟨address, haddress, rfl⟩ := List.mem_map.mp hnew
      exact hknown address (List.mem_filter.mp haddress).1
    · exact absurd hnew List.not_mem_nil

theorem Sourced.post (h : w.Sourced P) {task : Task}
    (htask : ∀ screen, task = .dial screen → Known P screen) : (w.post task).Sourced P := by
  refine ⟨fun p hp screen hdial => ?_, h.dials, h.leaving⟩
  rcases List.mem_append.mp hp with hold | hnew
  · exact h.posted p hold screen hdial
  · rw [List.mem_singleton.mp hnew] at hdial
    exact htask screen hdial

theorem Sourced.slot {signal : ProfileSignal} (h : w.Sourced P)
    (hpeer : ∀ screen, peer signal = some screen → screen.id ≠ w.screenId → Known P screen)
    (hslot : w.slot isAddress signal = some w') : w'.Sourced P ∧ w'.screenId = w.screenId := by
  refine ⟨?_, congrArg CoreManager.screenId (Passed.slot hslot).coreManager⟩
  cases signal with
  | profileServerChanged serverId =>
    obtain rfl := Option.some.inj hslot
    exact h.post (by simp)
  | screenPositionChanged id =>
    obtain rfl := Option.some.inj hslot
    exact h.post (by simp)
  | screenOnline screen =>
    obtain rfl := Option.some.inj hslot
    by_cases hlocal : w.screenId = screen.id
    · rw [if_pos hlocal]
      exact ⟨h.posted, h.dials, h.leaving⟩
    · rw [if_neg hlocal]
      refine h.post fun screen' hdial => ?_
      cases hdial
      exact hpeer screen rfl (Ne.symm hlocal)
  | screenIPSetChanged screen =>
    have hslot' : (if w.screenId = screen.id then some w
        else w.dial isAddress screen .snapshot) = some w' := hslot
    by_cases hlocal : w.screenId = screen.id
    · rw [if_pos hlocal] at hslot'
      exact Option.some.inj hslot' ▸ h
    · rw [if_neg hlocal] at hslot'
      exact h.dial (hpeer screen rfl (Ne.symm hlocal)) hslot'
  | modified | profileIdChanged _ | profileNameChanged _ | screenNameChanged _
  | screenStatusChanged _ | screenSetChanged _ _ | screenOffline _ =>
    exact Option.some.inj hslot ▸ h

theorem Sourced.runSlots (h : w.Sourced P) (hsignals : Knows P w.screenId signals)
    (hrun : runSlots isAddress snapshot signals w = some w') : w'.Sourced P := by
  induction signals generalizing w with
  | nil =>
    obtain rfl := Option.some.inj hrun
    exact ⟨h.posted, h.dials, h.leaving⟩
  | cons signal signals ih =>
    by_cases hset : signal.SetChange
    · cases signal with
      | screenSetChanged added removed =>
        have hposted : (w.screenSetChanged added).Sourced P :=
          (h.post (by simp)).post (by simp)
        rw [ServiceWorker.runSlots] at hrun
        split at hrun
        · rename_i hlocal
          obtain rfl := Option.some.inj hrun
          refine ⟨hposted.posted, hposted.dials, fun l hl => ?_⟩
          obtain rfl := Option.some.inj hl
          intro s hs
          exact hsignals.removed added removed List.mem_cons_self hlocal s
            (List.mem_cons_of_mem _ hs)
        · exact ih hposted hsignals.tail hrun
      | modified | profileIdChanged _ | profileNameChanged _ | profileServerChanged _
      | screenNameChanged _ | screenPositionChanged _ | screenStatusChanged _ | screenOnline _
      | screenIPSetChanged _ | screenOffline _ => exact hset.elim
    · rw [runSlots_cons hset] at hrun
      obtain ⟨v, hslot, hrest⟩ := Option.bind_eq_some_iff.mp hrun
      obtain ⟨hv, hid⟩ := h.slot (hsignals.others signal List.mem_cons_self) hslot
      exact ih hv (hid ▸ hsignals.tail) hrest

/-- The other machines' screens in what is received have known addresses only. -/
def Received (P : String → Prop) (w : ServiceWorker) : Event → Prop
  | .receive snapshot => ∀ screen ∈ snapshot.screens, screen.id ≠ w.screenId → Known P screen
  | _ => True

instance [DecidablePred P] (w : ServiceWorker) : (ev : Event) → Decidable (w.Received P ev)
  | .receive snapshot => inferInstanceAs
      (Decidable (∀ screen ∈ snapshot.screens, screen.id ≠ w.screenId → Known P screen))
  | .proceed | .task _ | .core _ => inferInstanceAs (Decidable True)

theorem Sourced.settle (h : w.Sourced P) : w.settle.Sourced P := by
  refine ⟨fun p hp => ?_, fun d hd => ?_, h.leaving⟩
  · obtain ⟨p', hp', rfl⟩ := List.mem_map.mp hp
    exact h.posted p' hp'
  · obtain ⟨d', hd', rfl⟩ := List.mem_map.mp hd
    exact h.dials d' hd'

theorem Sourced.receive (h : w.Sourced P) (hok : w.Received P (.receive snapshot))
    (hstep : w.receive isAddress snapshot = some w') : w'.Sourced P := by
  have hbegin : { w.settle with remoteProfileConfig := snapshot }.Sourced P :=
    ⟨h.settle.posted, h.settle.dials, h.settle.leaving⟩
  unfold ServiceWorker.receive at hstep
  split at hstep
  · split at hstep
    · obtain rfl := Option.some.inj hstep
      exact ⟨hbegin.posted, hbegin.dials, hbegin.leaving⟩
    · rename_i signal signals hcompare
      exact hbegin.runSlots (hcompare ▸ knows_compare w.localProfileConfig hok) hstep
  · exact Option.some.inj hstep ▸ hbegin

theorem Sourced.proceed {l : Leaving} (h : w.Sourced P) (hl : w.leaving = some l)
    (hstep : w.proceed isAddress l = some w') : w'.Sourced P := by
  have hphase : ∀ phase, ∀ l', some { l with phase := phase } = some l' →
      ∀ signal ∈ l'.signals, ∀ screen, peer signal = some screen → Known P screen := by
    intro phase l' hl'
    obtain rfl := Option.some.inj hl'
    exact h.leaving l hl
  unfold ServiceWorker.proceed at hstep
  split at hstep
  · split at hstep
    · exact absurd hstep (by simp)
    · split at hstep
      · exact Option.some.inj hstep ▸ ⟨h.posted, h.dials, hphase _⟩
      · exact Option.some.inj hstep ▸ ⟨h.posted, h.dials, hphase _⟩
  · split at hstep
    · exact absurd hstep (by simp)
    · exact Option.some.inj hstep ▸ ⟨h.posted, h.dials, hphase _⟩
  · split at hstep
    · exact absurd hstep (by simp)
    · have hclear : w.clear.Sourced P := ⟨h.posted, h.dials, by simp [clear]⟩
      exact hclear.runSlots (knows_of_forall (h.leaving l hl) _) hstep

theorem Sourced.runTask {p : Posted} {attempt : Attempt} (h : w.Sourced P)
    (hp : ∀ screen, p.task = .dial screen → Known P screen)
    (hstep : w.runTask isAddress p attempt = some w') : w'.Sourced P := by
  unfold ServiceWorker.runTask at hstep
  cases htask : p.task with
  | dial screen =>
    rw [htask] at hstep
    exact h.dial (hp screen htask) hstep
  | switchServer serverId =>
    rw [htask] at hstep
    obtain ⟨m, _, rfl⟩ := Option.map_eq_some_iff.mp hstep
    exact ⟨h.posted, h.dials, h.leaving⟩
  | restartServer =>
    rw [htask] at hstep
    obtain rfl := Option.some.inj hstep
    split
    · exact ⟨h.posted, h.dials, h.leaving⟩
    · exact h
  | resumeAdded added =>
    rw [htask] at hstep
    obtain rfl := Option.some.inj hstep
    split
    · exact ⟨h.posted, h.dials, h.leaving⟩
    · exact h

theorem Sourced.step {ev : Event} (h : w.Sourced P) (hok : w.Received P ev)
    (hstep : w.step isAddress ev = some w') : w'.Sourced P := by
  cases ev with
  | receive snapshot =>
    simp only [ServiceWorker.step] at hstep
    split at hstep
    · exact h.receive hok hstep
    · exact absurd hstep (by simp)
  | proceed =>
    simp only [ServiceWorker.step] at hstep
    split at hstep
    · exact absurd hstep (by simp)
    · rename_i l hl
      exact h.proceed hl hstep
  | task attempt =>
    simp only [ServiceWorker.step] at hstep
    split at hstep
    · exact absurd hstep (by simp)
    · rename_i p posted hposted
      split at hstep
      · have hrest : { w with posted := posted }.Sourced P := by
          refine ⟨fun q hq => h.posted q ?_, h.dials, h.leaving⟩
          exact hposted ▸ List.mem_cons_of_mem p hq
        exact hrest.runTask (h.posted p (hposted ▸ List.mem_cons_self)) hstep
      · exact absurd hstep (by simp)
  | core ev =>
    simp only [ServiceWorker.step] at hstep
    split at hstep
    · obtain ⟨m, _, rfl⟩ := Option.map_eq_some_iff.mp hstep
      exact ⟨h.posted, h.dials, h.leaving⟩
    · exact absurd hstep (by simp)

/-- **A router dials only addresses that some snapshot lists for another machine**: whatever holds
of all addresses in the IP lists of the other machines' screens, in every snapshot that is received,
holds of every address that is dialled, also for what is posted before the local screen is removed
from the profile and runs after it. -/
theorem dials_of_received {m : CoreManager} (h : Run (step isAddress) (Received P)
    { coreManager := m } w) : ∀ d ∈ w.dials, P d.address := by
  have hinit : ({ coreManager := m } : ServiceWorker).Sourced P :=
    ⟨by simp, by simp, by simp⟩
  have hsourced : w.Sourced P :=
    h.invariant hinit fun _ _ _ _ hw hok hstep => hw.step hok hstep
  exact hsourced.dials

/-- Screens 3 and 5 come online, up to the dialling of the second. -/
def online : List Event :=
  [.receive (joined "10.0.0.5"), .task .client, .task .client, .task .client]

/-- The router of the first dials the second. -/
def newcomer : List Event := online ++ [.task .client]

theorem dials_newcomer :
    (execs (step knownAddress) { coreManager := alone.coreManager } newcomer).dials =
      [⟨"10.0.0.5", .snapshot⟩] := by
  rw [newcomer, execs, List.foldl_append]
  show (exec _ (execs (step knownAddress) { coreManager := alone.coreManager } online) _).dials = _
  generalize hw : execs (step knownAddress) { coreManager := alone.coreManager } online = w
  have hposted : w.posted = [⟨.dial (joined "10.0.0.5").screens[1], .snapshot⟩] := by
    rw [← hw]
    decide +kernel
  have hready : w.Idle ∧ w.running = true ∧ w.peers = [] ∧ w.dials = [] := by
    rw [← hw]
    decide +kernel
  obtain ⟨hidle, hrunning, hpeers, hdials⟩ := hready
  have haddresses : (joined "10.0.0.5").screens[1].addresses = ["10.0.0.5"] :=
    splitOn_ofList ',' "10.0.0.5"
  have hstep : w.step knownAddress (.task .client) =
      some { w with posted := [], dials := [⟨"10.0.0.5", .snapshot⟩] } := by
    simp only [step, hposted, if_pos hidle, runTask]
    rw [dial_eq, haddresses, if_pos (by decide)]
    simp [dialled, hrunning, hpeers, hdials]
  rw [exec, hstep, Option.getD_some]

theorem dials_of_received_newcomer :
    (execs (step knownAddress) { coreManager := alone.coreManager } newcomer).dials ≠ [] ∧
      ∀ d ∈ (execs (step knownAddress) { coreManager := alone.coreManager } newcomer).dials,
        d.address = "10.0.0.5" :=
  ⟨by rw [dials_newcomer]; simp, dials_of_received (Run.nil.execs (by decide +kernel) :
    Run (step knownAddress) (Received fun a => a = "10.0.0.5")
      { coreManager := alone.coreManager }
      (execs (step knownAddress) { coreManager := alone.coreManager } newcomer))⟩

end ServiceWorker

end Synergy
