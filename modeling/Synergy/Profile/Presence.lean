import Synergy.Lib.Alternation
import Synergy.Lib.Deliveries
import Synergy.Profile.ProfileConfig

/-!
# Which screens are online

The signals `screenOnline` and `screenOffline` come from two places: from a screen that both
profiles have and whose flag changed, and from the screens that were added. A screen that is removed
while it is active is in neither, and nothing is emitted for it. So its listeners still take it to
be online, and are told so once more if it comes back.

Where no active screen is removed, the signals of every screen mirror (`Mirrors`) its flag. The ids
of a snapshot's screens are distinct.
-/

set_option autoImplicit false

namespace Synergy

open Lib

/-- What a signal says about the screen `id`, if anything: `true` is online. -/
def ProfileSignal.about (id : Int) : ProfileSignal → Option Bool
  | .screenOnline s => if s.id = id then some true else none
  | .screenOffline s => if s.id = id then some false else none
  | _ => none

namespace ProfileConfig

/-- The screen is there and active. -/
def Active (m : ProfileConfig) (id : Int) : Prop := ∃ s ∈ m.screens, s.id = id ∧ s.active = true

def DistinctIds (m : ProfileConfig) : Prop := (m.screens.map Screen.id).Nodup

instance (m : ProfileConfig) : Decidable m.DistinctIds := inferInstanceAs (Decidable (List.Nodup _))

/-- The signals of one `apply` for each of a list of snapshots. -/
def signals (m : ProfileConfig) : List ProfileConfig → List ProfileSignal
  | [] => []
  | snapshot :: rest => m.compare snapshot ++ (m.apply snapshot).signals rest

/-- The signals for every screen mirror its flag. -/
def Tracked (m : ProfileConfig) (delivered : List ProfileConfig) : Prop :=
  ∀ id, Mirrors ((m.signals delivered).filterMap (ProfileSignal.about id))
    ((m.applyAll delivered).Active id)

/-- A snapshot that is not too old keeps every screen that is active. -/
def KeepsActive (m snapshot : ProfileConfig) : Prop :=
  m.profileVersion ≤ snapshot.profileVersion →
    ∀ s ∈ m.screens, s.active = true → snapshot.HasScreen s.id

variable {m target : ProfileConfig} {s t : Screen} {id : Int}

theorem signals_append (m : ProfileConfig) (before after : List ProfileConfig) :
    m.signals (before ++ after) = m.signals before ++ (m.applyAll before).signals after := by
  induction before generalizing m with
  | nil => rfl
  | cons snapshot before ih =>
    show m.compare snapshot ++ (m.apply snapshot).signals (before ++ after) = _
    rw [ih, ← List.append_assoc]
    rfl

/-! ## Screens by their ids -/

theorem eq_of_id_eq {screens : List Screen} (h : (screens.map Screen.id).Nodup)
    (hs : s ∈ screens) (ht : t ∈ screens) (hid : s.id = t.id) : s = t :=
  List.inj_on_of_nodup_map h hs ht hid

theorem DistinctIds.active_iff (h : m.DistinctIds) (hs : s ∈ m.screens) :
    m.Active s.id ↔ s.active = true := by
  constructor
  · rintro ⟨s', hs', hid, hactive⟩
    rwa [eq_of_id_eq h hs' hs hid] at hactive
  · intro hactive
    exact ⟨s, hs, rfl, hactive⟩

theorem Active.hasScreen (h : m.Active id) : m.HasScreen id := by
  obtain ⟨s, hs, hid, _⟩ := h
  exact ⟨s, hs, hid⟩

theorem KeepsActive.hasScreen (h : m.KeepsActive target)
    (hversion : m.profileVersion ≤ target.profileVersion) (hactive : m.Active id) :
    target.HasScreen id := by
  obtain ⟨s, hs, rfl, hon⟩ := hactive
  exact h hversion s hs hon

/-- What a loop over screens with distinct ids logs, where only one of them can log anything. -/
theorem flatMap_eq_of_distinct {β : Type} {screens : List Screen} {f : Screen → List β}
    (h : (screens.map Screen.id).Nodup) (hs : s ∈ screens)
    (hother : ∀ x ∈ screens, x.id ≠ s.id → f x = []) : screens.flatMap f = f s := by
  induction screens with
  | nil => exact absurd hs (by simp)
  | cons x screens ih =>
    obtain ⟨hx, hnodup⟩ := List.nodup_cons.mp h
    rw [List.flatMap_cons]
    rcases List.mem_cons.mp hs with rfl | hs
    · have hrest : screens.flatMap f = [] := by
        refine List.flatMap_eq_nil_iff.mpr fun y hy => hother y (List.mem_cons_of_mem s hy) ?_
        intro hid
        exact hx (hid ▸ List.mem_map_of_mem hy)
      rw [hrest, List.append_nil]
    · have hne : x.id ≠ s.id := fun hid => hx (hid ▸ List.mem_map_of_mem hs)
      rw [hother x List.mem_cons_self hne, List.nil_append]
      exact ih hnodup hs fun y hy => hother y (List.mem_cons_of_mem x hy)

/-! ## What the parts of `compare` say about one screen -/

theorem about_changes (s t : Screen) :
    (s.changes t).filterMap (ProfileSignal.about id) =
      if t.id = id ∧ s.active ≠ t.active then [t.active] else [] := by
  have hite : ∀ (p : Prop) [Decidable p] (signal : ProfileSignal),
      (if p then [signal] else []).filterMap (ProfileSignal.about id) =
        if p then (ProfileSignal.about id signal).toList else [] := by
    intro p _ signal
    split
    · cases hsignal : ProfileSignal.about id signal <;> simp [hsignal]
    · rfl
  unfold Screen.changes
  simp only [List.filterMap_append, hite, ProfileSignal.about, Option.toList_none, ite_self,
    List.append_nil, List.nil_append]
  by_cases hid : t.id = id
  · cases ht : t.active <;> simp [hid]
  · cases ht : t.active <;> simp [hid]

theorem about_profileChanges :
    (m.profileChanges target).filterMap (ProfileSignal.about id) = [] := by
  unfold profileChanges
  simp only [List.filterMap_append]
  split_ifs <;> rfl

theorem about_screenChanges :
    (m.screenChanges target).filterMap (ProfileSignal.about id) =
      target.screens.flatMap fun t => m.screens.flatMap fun s =>
        if s.id = t.id ∧ t.id = id ∧ s.active ≠ t.active then [t.active] else [] := by
  unfold screenChanges
  simp only [List.filterMap_flatMap]
  refine List.flatMap_congr fun t _ => List.flatMap_congr fun s _ => ?_
  by_cases hid : s.id = t.id
  · rw [if_pos hid, about_changes]
    simp [hid]
  · simp [hid]

theorem about_screenChanges_of_mem (hm : m.DistinctIds) (htarget : target.DistinctIds)
    (hs : s ∈ m.screens) (ht : t ∈ target.screens) (hid : s.id = t.id) :
    (m.screenChanges target).filterMap (ProfileSignal.about t.id) =
      if s.active ≠ t.active then [t.active] else [] := by
  rw [about_screenChanges, flatMap_eq_of_distinct htarget ht, flatMap_eq_of_distinct hm hs]
  · simp [hid]
  · intro s' _ hne
    simp [hid ▸ hne]
  · intro t' _ hne
    simp [hne]

theorem about_screenChanges_of_not_mem (h : ¬(m.HasScreen id ∧ target.HasScreen id)) :
    (m.screenChanges target).filterMap (ProfileSignal.about id) = [] := by
  rw [about_screenChanges]
  refine List.flatMap_eq_nil_iff.mpr fun t ht => List.flatMap_eq_nil_iff.mpr fun s hs => ?_
  refine if_neg fun ⟨hst, htid, _⟩ => h ⟨⟨s, hs, hst.trans htid⟩, ⟨t, ht, htid⟩⟩

theorem about_screenSetChanges :
    (m.screenSetChanges target).filterMap (ProfileSignal.about id) =
      (m.added target).flatMap fun t => if t.id = id ∧ t.active = true then [true] else [] := by
  have honline : ∀ screens : List Screen,
      ((screens.filter (·.active)).map ProfileSignal.screenOnline).filterMap
        (ProfileSignal.about id) =
      screens.flatMap fun t => if t.id = id ∧ t.active = true then [true] else [] := by
    intro screens
    induction screens with
    | nil => rfl
    | cons t screens ih =>
      rw [List.flatMap_cons, ← ih]
      cases ht : t.active <;> by_cases hid : t.id = id <;>
        simp [ht, hid, ProfileSignal.about]
  unfold screenSetChanges
  split
  · rw [List.filterMap_cons_none (by rfl), honline]
  · rename_i hnone
    have hadded : m.added target = [] := by
      by_contra hne
      exact hnone (Or.inl hne)
    rw [hadded]
    rfl

theorem about_screenSetChanges_of_added (htarget : target.DistinctIds) (ht : t ∈ target.screens)
    (hnew : ¬m.HasScreen t.id) :
    (m.screenSetChanges target).filterMap (ProfileSignal.about t.id) =
      if t.active = true then [true] else [] := by
  have hmem : t ∈ m.added target := List.mem_filter.mpr ⟨ht, by simpa using hnew⟩
  have hdistinct : ((m.added target).map Screen.id).Nodup :=
    List.Nodup.sublist (List.Sublist.map _ List.filter_sublist) htarget
  rw [about_screenSetChanges, flatMap_eq_of_distinct hdistinct hmem]
  · simp
  · intro t' _ hne
    simp [hne]

theorem about_screenSetChanges_of_not_added (h : ¬(target.HasScreen id ∧ ¬m.HasScreen id)) :
    (m.screenSetChanges target).filterMap (ProfileSignal.about id) = [] := by
  rw [about_screenSetChanges]
  refine List.flatMap_eq_nil_iff.mpr fun t ht => if_neg fun ⟨hid, _⟩ => h ?_
  obtain ⟨hmem, hnew⟩ := List.mem_filter.mp ht
  exact ⟨⟨t, hmem, hid⟩, hid ▸ of_decide_eq_true hnew⟩

/-! ## What `compare` says about one screen -/

theorem about_compare (h : m.profileVersion ≤ target.profileVersion) :
    (m.compare target).filterMap (ProfileSignal.about id) =
      (m.screenChanges target).filterMap (ProfileSignal.about id) ++
        (m.screenSetChanges target).filterMap (ProfileSignal.about id) := by
  have hnot : ¬target.profile.version < m.profile.version := not_lt.mpr h
  unfold compare
  rw [if_neg hnot]
  simp only [List.filterMap_append, about_profileChanges, List.nil_append]

/-- A screen that stays is signalled when its flag changes. -/
theorem about_compare_of_kept (h : m.profileVersion ≤ target.profileVersion) (hm : m.DistinctIds)
    (htarget : target.DistinctIds) (hs : s ∈ m.screens) (ht : t ∈ target.screens)
    (hid : s.id = t.id) :
    (m.compare target).filterMap (ProfileSignal.about t.id) =
      if s.active ≠ t.active then [t.active] else [] := by
  rw [about_compare h, about_screenChanges_of_mem hm htarget hs ht hid,
    about_screenSetChanges_of_not_added fun hadded => hadded.2 ⟨s, hs, hid⟩, List.append_nil]

/-- A screen that is added is signalled when it is active. -/
theorem about_compare_of_added (h : m.profileVersion ≤ target.profileVersion)
    (htarget : target.DistinctIds) (ht : t ∈ target.screens) (hnew : ¬m.HasScreen t.id) :
    (m.compare target).filterMap (ProfileSignal.about t.id) =
      if t.active = true then [true] else [] := by
  rw [about_compare h, about_screenChanges_of_not_mem fun hboth => hnew hboth.1,
    about_screenSetChanges_of_added htarget ht hnew, List.nil_append]

/-- Nothing is said about a screen that is not in the target, removed or not. -/
theorem about_compare_of_absent (h : m.profileVersion ≤ target.profileVersion)
    (habsent : ¬target.HasScreen id) :
    (m.compare target).filterMap (ProfileSignal.about id) = [] := by
  rw [about_compare h, about_screenChanges_of_not_mem fun hboth => habsent hboth.2,
    about_screenSetChanges_of_not_added fun hadded => habsent hadded.1, List.append_nil]

/-- Which screens are active after `apply` is what the snapshot says, stored or not. -/
theorem active_apply (h : m.profileVersion ≤ target.profileVersion) :
    (m.apply target).Active id ↔ target.Active id := by
  by_cases hsame : m.Unchanged target
  · rw [apply_unchanged hsame]
    constructor
    · rintro ⟨s, hs, rfl, hactive⟩
      obtain ⟨t, ht, hid⟩ := hsame.removed s hs
      have hview := hsame.view t ht s hs hid.symm
      exact ⟨t, ht, hid, (congrArg Screen.View.active hview).symm.trans hactive⟩
    · rintro ⟨t, ht, rfl, hactive⟩
      obtain ⟨s, hs, hid⟩ := hsame.added t ht
      have hview := hsame.view t ht s hs hid
      exact ⟨s, hs, hid, (congrArg Screen.View.active hview).trans hactive⟩
  · rw [apply_changed h hsame]

theorem distinctIds_applyAll {snapshots : List ProfileConfig} (hm : m.DistinctIds)
    (h : ∀ snapshot ∈ snapshots, snapshot.DistinctIds) : (m.applyAll snapshots).DistinctIds := by
  induction snapshots generalizing m with
  | nil => exact hm
  | cons snapshot snapshots ih =>
    refine ih ?_ fun x hx => h x (List.mem_cons_of_mem snapshot hx)
    unfold apply
    split
    · exact hm
    · exact h snapshot List.mem_cons_self

/-! ## One snapshot, and all of them -/

variable {log : List Bool} {before snapshots : List ProfileConfig} {snapshot : ProfileConfig}

theorem mirrors_of_kept (h : Mirrors log (m.Active t.id))
    (hversion : m.profileVersion ≤ target.profileVersion) (hm : m.DistinctIds)
    (htarget : target.DistinctIds) (hs : s ∈ m.screens) (ht : t ∈ target.screens)
    (hid : s.id = t.id) :
    Mirrors (log ++ (m.compare target).filterMap (ProfileSignal.about t.id))
      (target.Active t.id) := by
  have hold : m.Active t.id ↔ s.active = true := hid ▸ hm.active_iff hs
  have hnew : target.Active t.id ↔ t.active = true := htarget.active_iff ht
  rw [about_compare_of_kept hversion hm htarget hs ht hid]
  cases hsactive : s.active with
  | false =>
    have hoff : ¬m.Active t.id := fun hactive => absurd (hold.mp hactive) (by simp [hsactive])
    cases htactive : t.active with
    | false => simpa using h.keep (hold.trans (by simp [hnew, hsactive, htactive]))
    | true => simpa using h.rise hoff (hnew.mpr htactive)
  | true =>
    have hon : m.Active t.id := hold.mpr hsactive
    cases htactive : t.active with
    | false => simpa using h.fall hon fun hactive => absurd (hnew.mp hactive) (by simp [htactive])
    | true => simpa using h.keep (hold.trans (by simp [hnew, hsactive, htactive]))

theorem mirrors_of_added (h : Mirrors log (m.Active t.id))
    (hversion : m.profileVersion ≤ target.profileVersion) (htarget : target.DistinctIds)
    (ht : t ∈ target.screens) (hadded : ¬m.HasScreen t.id) :
    Mirrors (log ++ (m.compare target).filterMap (ProfileSignal.about t.id))
      (target.Active t.id) := by
  have hoff : ¬m.Active t.id := fun hactive => hadded hactive.hasScreen
  have hnew : target.Active t.id ↔ t.active = true := htarget.active_iff ht
  rw [about_compare_of_added hversion htarget ht hadded]
  cases htactive : t.active with
  | false =>
    simpa using h.keep (iff_of_false hoff fun hon => absurd (hnew.mp hon) (by simp [htactive]))
  | true => simpa using h.rise hoff (hnew.mpr htactive)

/-- The signals of one screen go on mirroring its flag, unless it is removed while it is active. -/
theorem mirrors_apply (h : Mirrors log (m.Active id))
    (hversion : m.profileVersion ≤ target.profileVersion) (hm : m.DistinctIds)
    (htarget : target.DistinctIds) :
    Mirrors (log ++ (m.compare target).filterMap (ProfileSignal.about id))
      ((m.apply target).Active id) ↔ (m.Active id → target.HasScreen id) := by
  rw [active_apply hversion]
  by_cases hhas : target.HasScreen id
  · refine iff_of_true ?_ fun _ => hhas
    obtain ⟨t, ht, rfl⟩ := hhas
    by_cases hold : m.HasScreen t.id
    · obtain ⟨s, hs, hid⟩ := hold
      exact mirrors_of_kept h hversion hm htarget hs ht hid
    · exact mirrors_of_added h hversion htarget ht hold
  · have hnew : ¬target.Active id := fun hactive => hhas hactive.hasScreen
    rw [about_compare_of_absent hversion hhas, List.append_nil]
    constructor
    · intro hafter hactive
      exact absurd (hafter.ends.mp (h.ends.mpr hactive)) hnew
    · intro hkept
      exact h.keep (iff_of_false (fun hactive => hhas (hkept hactive)) hnew)

namespace Tracked

theorem nil : Tracked {} [] := by
  intro id
  exact Mirrors.nil fun ⟨s, hs, _⟩ => absurd hs (by simp)

/-- One snapshot keeps the screens tracked if and only if it keeps the active ones. -/
theorem step (h : Tracked m before) (hm : (m.applyAll before).DistinctIds)
    (hsnapshot : snapshot.DistinctIds) :
    Tracked m (before ++ [snapshot]) ↔ (m.applyAll before).KeepsActive snapshot := by
  unfold Tracked
  simp only [signals_append, applyAll_append_singleton, List.filterMap_append]
  have hone : ∀ x : ProfileConfig, x.signals [snapshot] = x.compare snapshot := fun x =>
    List.append_nil _
  rw [hone]
  by_cases hversion : (m.applyAll before).profileVersion ≤ snapshot.profileVersion
  · constructor
    · intro hafter _ s hs hactive
      exact (mirrors_apply (h s.id) hversion hm hsnapshot).mp (hafter s.id) ⟨s, hs, rfl, hactive⟩
    · intro hkept id
      exact (mirrors_apply (h id) hversion hm hsnapshot).mpr (hkept.hasScreen hversion)
  · have holder : snapshot.profile.version < (m.applyAll before).profile.version :=
      not_le.mp hversion
    have hsilent : (m.applyAll before).compare snapshot = [] :=
      compare_eq_nil.mpr (Or.inl holder)
    rw [hsilent, apply_older holder]
    refine iff_of_true (fun id => ?_) fun hle => absurd hle hversion
    rw [List.filterMap_nil, List.append_nil]
    exact h id

end Tracked

/-- From the empty profile, the signals of every screen mirror its flag after each of a sequence of
snapshots if and only if none of them removes a screen that is active. -/
theorem tracked_iff_keepsActive (h : ∀ snapshot ∈ snapshots, snapshot.DistinctIds) :
    (∀ delivered, delivered <+: snapshots → Tracked {} delivered) ↔
    ∀ delivered snapshot, delivered ++ [snapshot] <+: snapshots →
      (({} : ProfileConfig).applyAll delivered).KeepsActive snapshot := by
  refine forall_prefix_iff Tracked.nil fun before snapshot hpre hbefore => ?_
  have hempty : ({} : ProfileConfig).DistinctIds := List.nodup_nil
  refine hbefore.step (distinctIds_applyAll hempty fun x hx => ?_) ?_
  · exact h x (hpre.subset (List.mem_append_left [snapshot] hx))
  · exact h snapshot (hpre.subset (List.mem_append_right before (by simp)))

/-- Two screens, the second one with the given flag. -/
def desks (version : Int) (active : Bool) : ProfileConfig where
  profile := { id := 1, version := version, server := 7, name := "office" }
  screens := [{ id := 7, name := "desk", active := true },
    { id := 8, name := "lab", active := active }]

/-- The first screen alone. -/
def deskAlone (version : Int) : ProfileConfig where
  profile := { id := 1, version := version, server := 7, name := "office" }
  screens := [{ id := 7, name := "desk", active := true }]

theorem desks_tracked_iff_keepsActive :
    (desks 1 true).DistinctIds ∧
    ((∀ delivered, delivered <+: [desks 1 true, desks 2 false, deskAlone 3] →
      Tracked {} delivered) ↔
    ∀ delivered snapshot, delivered ++ [snapshot] <+: [desks 1 true, desks 2 false, deskAlone 3] →
      (({} : ProfileConfig).applyAll delivered).KeepsActive snapshot) :=
  ⟨by decide, tracked_iff_keepsActive (by decide)⟩

/-- The second screen is removed while it is active, and comes back: two rises and no fall. -/
theorem desks_removed_while_active :
    (({} : ProfileConfig).signals [desks 1 true, deskAlone 2]).filterMap (ProfileSignal.about 8) =
      [true] ∧
    ¬(({} : ProfileConfig).applyAll [desks 1 true, deskAlone 2]).Active 8 ∧
    (({} : ProfileConfig).signals [desks 1 true, deskAlone 2, desks 3 true]).filterMap
      (ProfileSignal.about 8) = [true, true] ∧
    ¬Tracked {} [desks 1 true, deskAlone 2] := by
  have hlog : (({} : ProfileConfig).signals [desks 1 true, deskAlone 2]).filterMap
      (ProfileSignal.about 8) = [true] := by decide +kernel
  have hoff : ¬(({} : ProfileConfig).applyAll [desks 1 true, deskAlone 2]).Active 8 := by
    unfold Active
    decide +kernel
  refine ⟨hlog, hoff, by decide +kernel, fun h => hoff ((h 8).ends.mp ?_)⟩
  rw [hlog]
  rfl

end ProfileConfig

end Synergy
