import Mathlib.Algebra.Order.Group.Int
import Synergy.Lib.Deliveries
import Synergy.Profile.ProfileConfig

/-!
# The version of the local profile

`apply` keeps out snapshots that are older than the profile, and it stores a snapshot only where
`compare` finds a difference. The version is not among the things compared, so a newer snapshot that
changes nothing leaves the old version behind, and with it the door open for what was delivered
late: a snapshot between the two versions is taken for a new one.

That is the only way to go back in time. While every newer snapshot differs in something, the
profile is at any moment the newest one delivered.
-/

set_option autoImplicit false

namespace Synergy.ProfileConfig

open Lib

variable {m snapshot : ProfileConfig} {before snapshots : List ProfileConfig}

/-- The profile has the version of the newest snapshot delivered, and its contents. -/
def UpToDate (delivered : List ProfileConfig) (m : ProfileConfig) : Prop :=
  delivered ≠ [] → ∃ newest, Newest profileVersion delivered newest ∧
    m.profileVersion = newest.profileVersion ∧ m.SameContents newest

/-- A newer snapshot differs in something that `compare` looks at. -/
def Fresh (m snapshot : ProfileConfig) : Prop :=
  m.profileVersion < snapshot.profileVersion → ¬m.Unchanged snapshot

instance (m snapshot : ProfileConfig) : Decidable (m.Fresh snapshot) :=
  inferInstanceAs (Decidable (m.profileVersion < snapshot.profileVersion → _))

namespace UpToDate

theorem nil : UpToDate [] m := fun hne => absurd rfl hne

/-- No snapshot was newer than the profile. -/
theorem le (h : UpToDate before m) (hmem : snapshot ∈ before) :
    snapshot.profileVersion ≤ m.profileVersion := by
  obtain ⟨newest, hnewest, hversion, _⟩ := h (List.ne_nil_of_mem hmem)
  rw [hversion]
  exact hnewest.le hmem

/-- An older snapshot is not the newest, unless it is the only one. -/
theorem older (h : UpToDate before m) (hne : before ≠ [])
    (holder : snapshot.profileVersion < m.profileVersion) :
    UpToDate (before ++ [snapshot]) (m.apply snapshot) := by
  intro _
  obtain ⟨newest, hnewest, hversion, hcontents⟩ := h hne
  rw [apply_older holder]
  exact ⟨newest, hnewest.append_older (hversion ▸ holder), hversion, hcontents⟩

/-- A snapshot that is not older is the newest. -/
theorem newest (h : UpToDate before m) (hversion : m.profileVersion ≤ snapshot.profileVersion) :
    Newest profileVersion (before ++ [snapshot]) snapshot :=
  Newest.last fun _ hy => le_trans (h.le hy) hversion

theorem changed (h : UpToDate before m) (hversion : m.profileVersion ≤ snapshot.profileVersion)
    (hdiffers : ¬m.Unchanged snapshot) : UpToDate (before ++ [snapshot]) (m.apply snapshot) := by
  intro _
  rw [apply_changed hversion hdiffers]
  exact ⟨snapshot, h.newest hversion, rfl, SameContents.refl snapshot⟩

/-- What changes nothing may stay out if its version is the profile's. -/
theorem unchanged (h : UpToDate before m) (hversion : m.profileVersion = snapshot.profileVersion)
    (hsame : m.Unchanged snapshot) : UpToDate (before ++ [snapshot]) (m.apply snapshot) := by
  intro _
  rw [apply_unchanged hsame]
  exact ⟨snapshot, h.newest (le_of_eq hversion), hversion, hsame.sameContents⟩

/-- A newer snapshot that changes nothing leaves the profile behind. -/
theorem behind (hversion : m.profileVersion < snapshot.profileVersion)
    (hsame : m.Unchanged snapshot) : ¬UpToDate (before ++ [snapshot]) (m.apply snapshot) := by
  intro hafter
  rw [apply_unchanged hsame] at hafter
  have hle : snapshot.profileVersion ≤ m.profileVersion :=
    hafter.le (List.mem_append_right before List.mem_cons_self)
  exact absurd hversion (not_lt.mpr hle)

/-- One delivery keeps the profile up to date if and only if the snapshot is fresh. -/
theorem step (h : UpToDate before m)
    (hfirst : before = [] → m.profileVersion ≤ snapshot.profileVersion) :
    UpToDate (before ++ [snapshot]) (m.apply snapshot) ↔ m.Fresh snapshot := by
  rcases lt_trichotomy snapshot.profileVersion m.profileVersion with hlt | heq | hgt
  · have hne : before ≠ [] := fun hnil => absurd (hfirst hnil) (not_le.mpr hlt)
    have hfresh : m.Fresh snapshot := fun hnewer => absurd hnewer (lt_asymm hlt)
    exact iff_of_true (h.older hne hlt) hfresh
  · have hfresh : m.Fresh snapshot := fun hnewer => absurd heq (ne_of_gt hnewer)
    by_cases hsame : m.Unchanged snapshot
    · exact iff_of_true (h.unchanged heq.symm hsame) hfresh
    · exact iff_of_true (h.changed (le_of_eq heq.symm) hsame) hfresh
  · by_cases hsame : m.Unchanged snapshot
    · exact iff_of_false (behind hgt hsame) fun hfresh => hfresh hgt hsame
    · exact iff_of_true (h.changed (le_of_lt hgt) hsame) fun _ => hsame

end UpToDate

/-- From the empty profile, the local profile is up to date after each of a sequence of snapshots if
and only if each of them that is newer than the profile it finds differs from it. -/
theorem upToDate_iff_fresh (h : ∀ snapshot ∈ snapshots, 0 ≤ snapshot.profileVersion) :
    (∀ delivered, delivered <+: snapshots →
      UpToDate delivered (({} : ProfileConfig).applyAll delivered)) ↔
    ∀ delivered snapshot, delivered ++ [snapshot] <+: snapshots →
      (({} : ProfileConfig).applyAll delivered).Fresh snapshot := by
  refine forall_prefix_iff UpToDate.nil fun before snapshot hpre hbefore => ?_
  rw [applyAll_append_singleton]
  refine hbefore.step fun hnil => ?_
  have hmem : snapshot ∈ snapshots := hpre.subset (List.mem_append_right before (by simp))
  rw [hnil]
  exact le_trans (show (-1 : Int) ≤ 0 by decide) (h snapshot hmem)

/-- A profile with one screen. -/
def office (version server : Int) : ProfileConfig where
  profile := { id := 1, version := version, server := server, name := "office" }
  screens := [{ id := 7, name := "desk", active := true, ipList := "192.168.3.1" }]

theorem office_upToDate_iff_fresh :
    (office 2 8).profileVersion = 2 ∧
    ((∀ delivered, delivered <+: [office 1 7, office 2 8] →
      UpToDate delivered (({} : ProfileConfig).applyAll delivered)) ↔
    ∀ delivered snapshot, delivered ++ [snapshot] <+: [office 1 7, office 2 8] →
      (({} : ProfileConfig).applyAll delivered).Fresh snapshot) :=
  ⟨rfl, upToDate_iff_fresh (by decide)⟩

/-- Version 2 says what version 1 said. Then version 1 again, with another server, as it was before
the server changed: the profile takes it, and is back at version 1. -/
theorem office_goes_back :
    ({} : ProfileConfig).applyAll [office 1 7, office 2 7, office 1 8] = office 1 8 ∧
    ¬UpToDate [office 1 7, office 2 7]
      (({} : ProfileConfig).applyAll [office 1 7, office 2 7]) ∧
    ¬UpToDate [office 1 7, office 2 7, office 1 8]
      (({} : ProfileConfig).applyAll [office 1 7, office 2 7, office 1 8]) := by
  refine ⟨by decide, fun h => ?_, fun h => ?_⟩
  · have hmem : office 2 7 ∈ [office 1 7, office 2 7] := by simp
    exact absurd (h.le hmem) (by decide)
  · have hmem : office 2 7 ∈ [office 1 7, office 2 7, office 1 8] := by simp
    exact absurd (h.le hmem) (by decide)

end Synergy.ProfileConfig
