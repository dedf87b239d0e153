import Synergy.Lib.Run
import Synergy.Profile.Versions

/-!
# A server claim on its way to the cloud

`ProfileConfig::claimServer` sets the server of the local profile and emits `modified`.
`ServiceWorker` then lets the remote profile `compare` itself with the local one, and the slot of
the remote `profileServerChanged`, in `CloudClient`, queues a job. So the claim is lost where the
local profile has a lower version than the remote one: `compare` returns before it looks at the
server.

The remote profile is every snapshot that comes, the local one only those that `apply` stores. The
local version is the lower one exactly while the last snapshot was newer than the local profile and
changed nothing in it. The answer of the cloud to a claim can be just that.
-/

set_option autoImplicit false

namespace Synergy

open Lib

/-- `CloudClient::HttpJob`, with the JSON object in its context. -/
structure HttpJob where
  target : String
  method : String
  context : List (String × Int)
  retryTimes : Int := 0
  deriving DecidableEq

/-- The job of `CloudClient::claimServer`. -/
def serverClaimJob (serverId profileId profileVersion : Int) : HttpJob where
  target := "/profile/server/claim"
  method := "POST"
  context :=
    [("screen_id", serverId), ("profile_id", profileId), ("profile_version", profileVersion)]

/-- The two profiles of a `ServiceWorker`, the profile id of its `UserConfig`, and the jobs that
`CloudClient` was given in the category `ProfileUpdate`. -/
structure Profiles where
  remoteProfile : ProfileConfig := {}
  localProfile : ProfileConfig := {}
  userProfileId : Int
  profileUpdates : List HttpJob := []
  deriving DecidableEq

/-- The server in a signal that the server has changed. -/
def ProfileSignal.server : ProfileSignal → Option Int
  | .profileServerChanged server => some server
  | _ => none

namespace Profiles

inductive Event where
  /-- A snapshot that is not ignored. -/
  | snapshot (snapshot : ProfileConfig)
  | claimServer (serverId : Int)

/-- `websocketMessageReceived`, as far as the two profiles go. -/
def receive (s : Profiles) (snapshot : ProfileConfig) : Profiles :=
  { s with remoteProfile := snapshot, localProfile := s.localProfile.apply snapshot }

/-- The slot of `m_remoteProfileConfig->profileServerChanged`. -/
def queueClaim (s : Profiles) (serverId : Int) : Profiles :=
  { s with
    profileUpdates := s.profileUpdates ++
      [serverClaimJob serverId s.userProfileId s.remoteProfile.profileVersion] }

/-- The slot of `m_localProfileConfig->modified`. -/
def modified (s : Profiles) : Profiles :=
  ((s.remoteProfile.compare s.localProfile).filterMap ProfileSignal.server).foldl queueClaim s

def claimServer (s : Profiles) (serverId : Int) : Profiles :=
  modified { s with localProfile := s.localProfile.setServer serverId }

def step (s : Profiles) : Event → Option Profiles
  | .snapshot snapshot => some (s.receive snapshot)
  | .claimServer serverId => some (s.claimServer serverId)

/-- Snapshots that are newer than the local profile change something in it. -/
def Fresh (s : Profiles) : Event → Prop
  | .snapshot snapshot => s.localProfile.Fresh snapshot
  | .claimServer _ => True

/-- A claim queues one job, for its server and with the version of the remote profile. -/
def Queues (s : Profiles) (serverId : Int) : Prop :=
  (s.claimServer serverId).profileUpdates = s.profileUpdates ++
    [serverClaimJob serverId s.userProfileId s.remoteProfile.profileVersion]

instance (s : Profiles) : DecidablePred s.Queues := fun _ => inferInstanceAs (Decidable (_ = _))

/-- The local profile is not behind the remote one. -/
def InStep (s : Profiles) : Prop :=
  s.remoteProfile.profileVersion ≤ s.localProfile.profileVersion

instance (s : Profiles) : Decidable s.InStep := inferInstanceAs (Decidable (_ ≤ _))

end Profiles

/-! ## The signals about the server -/

namespace ProfileConfig

variable {m target : ProfileConfig}

theorem server_changes (s t : Screen) : (s.changes t).filterMap ProfileSignal.server = [] := by
  unfold Screen.changes
  simp only [List.filterMap_append, List.append_eq_nil_iff]
  refine ⟨⟨⟨⟨?_, ?_⟩, ?_⟩, ?_⟩, ?_⟩
  · split <;> rfl
  · split
    · split <;> rfl
    · rfl
  · split <;> rfl
  · split <;> rfl
  · split <;> rfl

theorem server_screenChanges : (m.screenChanges target).filterMap ProfileSignal.server = [] := by
  unfold screenChanges
  simp only [List.filterMap_flatMap]
  refine List.flatMap_eq_nil_iff.mpr fun t _ => List.flatMap_eq_nil_iff.mpr fun s _ => ?_
  split
  · exact server_changes s t
  · rfl

theorem server_screenSetChanges :
    (m.screenSetChanges target).filterMap ProfileSignal.server = [] := by
  have honline : ∀ screens : List Screen,
      (screens.map ProfileSignal.screenOnline).filterMap ProfileSignal.server = [] := by
    intro screens
    induction screens with
    | nil => rfl
    | cons t screens ih => exact ih
  unfold screenSetChanges
  split
  · exact honline _
  · rfl

/-- `compare` says once that the server has changed, if it has and if the target is not older. -/
theorem server_compare :
    (m.compare target).filterMap ProfileSignal.server =
      if m.profileVersion ≤ target.profileVersion ∧ target.profile.server ≠ m.profile.server then
        [target.profile.server]
      else [] := by
  unfold compare
  by_cases hversion : target.profile.version < m.profile.version
  · have hnot : ¬m.profileVersion ≤ target.profileVersion := not_le.mpr hversion
    rw [if_pos hversion, if_neg fun hand => hnot hand.1]
    rfl
  · have hle : m.profileVersion ≤ target.profileVersion := not_lt.mp hversion
    rw [if_neg hversion]
    simp only [List.filterMap_append, server_screenChanges, server_screenSetChanges,
      List.append_nil, hle, true_and]
    unfold profileChanges
    split_ifs <;> rfl

end ProfileConfig

/-! ## Claims -/

namespace Profiles

variable {s : Profiles} {snapshot : ProfileConfig} {serverId : Int}

/-- What a claim does to the queue. -/
theorem profileUpdates_claimServer :
    (s.claimServer serverId).profileUpdates = s.profileUpdates ++
      if s.InStep ∧ serverId ≠ s.remoteProfile.profile.server then
        [serverClaimJob serverId s.userProfileId s.remoteProfile.profileVersion]
      else [] := by
  have hserver : (s.remoteProfile.compare (s.localProfile.setServer serverId)).filterMap
      ProfileSignal.server =
      if s.InStep ∧ serverId ≠ s.remoteProfile.profile.server then [serverId] else [] :=
    ProfileConfig.server_compare
  unfold claimServer modified
  rw [hserver]
  by_cases h : s.InStep ∧ serverId ≠ s.remoteProfile.profile.server
  · rw [if_pos h, if_pos h]
    rfl
  · rw [if_neg h, if_neg h, List.append_nil]
    rfl

/-- A claim is queued exactly where the local profile is not behind. -/
theorem queues_iff_inStep (h : s.remoteProfile.profile.server ≠ serverId) :
    s.Queues serverId ↔ s.InStep := by
  unfold Queues
  rw [profileUpdates_claimServer]
  by_cases hstep : s.InStep
  · rw [if_pos ⟨hstep, h.symm⟩]
    exact iff_of_true rfl hstep
  · rw [if_neg fun hand => hstep hand.1]
    simp [hstep]

@[simp] theorem inStep_claimServer : (s.claimServer serverId).InStep ↔ s.InStep := by
  have hfold : ∀ (servers : List Int) (x : Profiles),
      (servers.foldl queueClaim x).InStep ↔ x.InStep := by
    intro servers
    induction servers with
    | nil =>
      intro x
      rfl
    | cons server servers ih =>
      intro x
      exact ih (x.queueClaim server)
  exact hfold _ _

/-- After a snapshot the local profile is in step if and only if the snapshot was fresh. -/
theorem inStep_receive : (s.receive snapshot).InStep ↔ s.localProfile.Fresh snapshot := by
  show snapshot.profileVersion ≤ (s.localProfile.apply snapshot).profileVersion ↔ _
  by_cases hold : snapshot.profileVersion < s.localProfile.profileVersion
  · have holder : snapshot.profile.version < s.localProfile.profile.version := hold
    rw [ProfileConfig.apply_older holder]
    exact iff_of_true (le_of_lt hold) fun hnewer => absurd hnewer (lt_asymm hold)
  · by_cases hsame : s.localProfile.Unchanged snapshot
    · rw [ProfileConfig.apply_unchanged hsame]
      constructor
      · intro hle hnewer
        exact absurd hle (not_le.mpr hnewer)
      · intro hfresh
        exact not_lt.mp fun hnewer => hfresh hnewer hsame
    · rw [ProfileConfig.apply_changed (not_lt.mp hold) hsame]
      exact iff_of_true (le_refl _) fun _ => hsame

/-- While the claims since the last snapshot are made, they are queued if and only if that snapshot
was fresh. -/
theorem queues_after_snapshot_iff (claims : List Int)
    (h : (claims.foldl claimServer (s.receive snapshot)).remoteProfile.profile.server ≠ serverId) :
    (claims.foldl claimServer (s.receive snapshot)).Queues serverId ↔
      s.localProfile.Fresh snapshot := by
  rw [queues_iff_inStep h, ← inStep_receive]
  clear h
  induction claims using List.reverseRecOn with
  | nil => rfl
  | append_singleton claims claim ih =>
    rw [List.foldl_append]
    exact inStep_claimServer.trans ih

/-- In a run whose newer snapshots all change something, every claim for a server that the remote
profile does not have is queued. -/
theorem queues_of_fresh {userProfileId : Int}
    (run : Run step Fresh { userProfileId := userProfileId } s)
    (h : s.remoteProfile.profile.server ≠ serverId) : s.Queues serverId := by
  refine (queues_iff_inStep h).mpr ?_
  refine run.invariant (I := InStep) (le_refl _) fun s s' ev _ hin hok hstep => ?_
  cases ev with
  | snapshot snapshot =>
    obtain rfl := Option.some.inj hstep
    exact inStep_receive.mpr hok
  | claimServer serverId =>
    obtain rfl := Option.some.inj hstep
    exact inStep_claimServer.mpr hin

/-- Two different snapshots, and the claim of a server that is neither's. -/
theorem queues_of_fresh_office :
    ProfileConfig.office 1 7 ≠ ProfileConfig.office 2 8 ∧
    (execs step { userProfileId := 1 }
      [.snapshot (.office 1 7), .snapshot (.office 2 8)]).Queues 9 := by
  have run : Run step Fresh ({ userProfileId := 1 } : Profiles)
      (execs step { userProfileId := 1 } [.snapshot (.office 1 7), .snapshot (.office 2 8)]) := by
    refine Run.execs .nil ⟨?_, ?_, trivial⟩
    · show ProfileConfig.Fresh _ _
      decide
    · show ProfileConfig.Fresh _ _
      decide
  exact ⟨by decide, queues_of_fresh run (by decide)⟩

/-- The second snapshot is newer and says what the first one said. After it the local profile is a
version behind, and the claim of the screen 8 queues no job. -/
theorem claim_lost :
    (execs step ({ userProfileId := 1 } : Profiles)
      [.snapshot (.office 1 7), .snapshot (.office 2 7)]).remoteProfile.profile.server ≠ 8 ∧
    ((execs step ({ userProfileId := 1 } : Profiles)
      [.snapshot (.office 1 7), .snapshot (.office 2 7)]).claimServer 8).profileUpdates = [] ∧
    ¬(execs step ({ userProfileId := 1 } : Profiles)
      [.snapshot (.office 1 7), .snapshot (.office 2 7)]).Queues 8 := by
  decide

end Profiles

end Synergy
