import Synergy.Profile.ProfileConfig

/-!
# Taking over another profile

`compare` has a branch for a profile with another id, which emits `profileIdChanged` and counts as a
difference. The test of the version stands before it, and does not ask whose version it is: each
profile counts its own, so after a switch from an old profile to a young one the snapshots of the
young one are dropped as stale, for as long as it takes its version to catch up.
-/

set_option autoImplicit false

namespace Synergy

def ProfileSignal.isProfileIdChanged : ProfileSignal → Bool
  | .profileIdChanged _ => true
  | _ => false

namespace ProfileConfig

variable {m src : ProfileConfig}

/-- `apply` takes the branch that assigns. -/
def Stores (m src : ProfileConfig) : Prop := m.compare src ≠ []

instance (m src : ProfileConfig) : Decidable (m.Stores src) :=
  inferInstanceAs (Decidable (m.compare src ≠ []))

/-- Another profile is taken over whatever its version, the same one if it brings something new. -/
structure Adopts (m src : ProfileConfig) : Prop where
  stored : src.profile.id ≠ m.profile.id → m.Stores src ∧ m.apply src = src
  signalled : src.profile.id ≠ m.profile.id →
    (m.compare src).filter (·.isProfileIdChanged) = [.profileIdChanged src.profile.id]
  same : src.profile.id = m.profile.id →
    (m.Stores src ↔ m.profile.version ≤ src.profile.version ∧ ¬m.Unchanged src)

theorem stores_iff :
    m.Stores src ↔ m.profile.version ≤ src.profile.version ∧ ¬m.Unchanged src := by
  rw [Stores, ne_eq, compare_eq_nil, not_or, Int.not_lt]

theorem apply_eq_of_stores (h : m.Stores src) : m.apply src = src := if_neg h

theorem not_unchanged_of_id (h : src.profile.id ≠ m.profile.id) : ¬m.Unchanged src :=
  fun hsame => h hsame.id

/-! ## The signal of the id -/

theorem not_isProfileIdChanged_of_changes {s t : Screen} {signal : ProfileSignal}
    (h : signal ∈ s.changes t) : ¬signal.isProfileIdChanged := by
  simp only [Screen.changes, List.mem_append, List.mem_ite_nil_right, List.mem_singleton] at h
  rcases h with (((⟨_, rfl⟩ | ⟨_, rfl⟩) | ⟨_, rfl⟩) | ⟨_, rfl⟩) | ⟨_, rfl⟩
  · simp [ProfileSignal.isProfileIdChanged]
  · split <;> simp [ProfileSignal.isProfileIdChanged]
  all_goals simp [ProfileSignal.isProfileIdChanged]

theorem filter_screenChanges (m src : ProfileConfig) :
    (m.screenChanges src).filter (·.isProfileIdChanged) = [] := by
  rw [List.filter_eq_nil_iff]
  intro signal hsignal
  obtain ⟨t, _, hsignal⟩ := List.mem_flatMap.mp hsignal
  obtain ⟨s, _, hsignal⟩ := List.mem_flatMap.mp hsignal
  rw [List.mem_ite_nil_right] at hsignal
  exact not_isProfileIdChanged_of_changes hsignal.2

theorem filter_screenSetChanges (m src : ProfileConfig) :
    (m.screenSetChanges src).filter (·.isProfileIdChanged) = [] := by
  rw [List.filter_eq_nil_iff]
  intro signal hsignal
  unfold screenSetChanges at hsignal
  rw [List.mem_ite_nil_right, List.mem_cons, List.mem_map] at hsignal
  rcases hsignal with ⟨_, rfl | ⟨_, _, rfl⟩⟩
  · simp [ProfileSignal.isProfileIdChanged]
  · simp [ProfileSignal.isProfileIdChanged]

theorem filter_profileChanges (h : src.profile.id ≠ m.profile.id) :
    (m.profileChanges src).filter (·.isProfileIdChanged) =
      [.profileIdChanged src.profile.id] := by
  unfold profileChanges
  rw [if_pos h, List.filter_append, List.filter_append]
  split <;> split <;> simp [ProfileSignal.isProfileIdChanged]

theorem filter_compare (hversion : m.profile.version ≤ src.profile.version)
    (h : src.profile.id ≠ m.profile.id) :
    (m.compare src).filter (·.isProfileIdChanged) = [.profileIdChanged src.profile.id] := by
  unfold compare
  rw [if_neg (Int.not_lt.mpr hversion), List.filter_append, List.filter_append,
    filter_profileChanges h, filter_screenChanges, filter_screenSetChanges]
  rfl

/-! ## Whose version it is -/

/-- A profile is taken over as it should be if and only if it is not another one with an older
version. -/
theorem adopts_iff : m.Adopts src ↔
    (src.profile.id ≠ m.profile.id → m.profile.version ≤ src.profile.version) := by
  constructor
  · intro hadopts hid
    exact (stores_iff.mp (hadopts.stored hid).1).1
  · intro hversion
    refine ⟨fun hid => ?_, fun hid => filter_compare (hversion hid) hid, fun _ => stores_iff⟩
    have hstores : m.Stores src := stores_iff.mpr ⟨hversion hid, not_unchanged_of_id hid⟩
    exact ⟨hstores, apply_eq_of_stores hstores⟩

/-- The fifth version of one profile, and then the first one of another. -/
theorem not_adopts_young :
    ¬({ profile := { id := 1, version := 5, server := 7, name := "office" } } :
        ProfileConfig).Adopts { profile := { id := 2, version := 1, server := 9, name := "home" } }
    := by
  intro h
  exact absurd (h.stored (by decide)).1 (by decide)

/-- While its versions are older, no number of snapshots of another profile changes anything. -/
theorem applyAll_older {snapshots : List ProfileConfig}
    (h : ∀ src ∈ snapshots, src.profile.version < m.profile.version) :
    m.applyAll snapshots = m := by
  induction snapshots with
  | nil => rfl
  | cons src snapshots ih =>
    have hfirst : m.apply src = m := apply_older (h src List.mem_cons_self)
    have hrest := ih fun src hsrc => h src (List.mem_cons_of_mem _ hsrc)
    calc m.applyAll (src :: snapshots) = (m.apply src).applyAll snapshots := rfl
      _ = m := by rw [hfirst, hrest]

end ProfileConfig

end Synergy
