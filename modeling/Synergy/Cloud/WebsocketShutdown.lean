import Synergy.Cloud.WebsocketSession

/-!
# How long the websocket stays shut down

`shutdown` does nothing where the session is not connected, and where it is, the poll inside it and
the slot that called it may leave something that goes on when it has returned. It stays shut down
where nothing is left that leads to a connection: no timer, no handshake, no operation that closing
the socket does not end silently, and no frame that goes on to reconnect or to read.
-/

set_option autoImplicit false

namespace Synergy

open Lib
open SecuredTcpClient (ErrorCode Outcome Result)

namespace WebsocketSession

/-- An operation that will have been aborted, and whose handler then returns at once. -/
def Pending.Mute (p : Pending) : Prop :=
  p.due = .aborted ∧ p.op ≠ .handshake

instance (p : Pending) : Decidable p.Mute := inferInstanceAs (Decidable (_ ∧ _))

/-- A frame that neither reconnects nor reads when it goes on. -/
def Frame.Mute : Frame → Prop
  | .shutdown => True
  | .connectionError retries => retries = false
  | _ => False

instance (frame : Frame) : Decidable frame.Mute :=
  match frame with
  | .shutdown => isTrue trivial
  | .connectionError retries => inferInstanceAs (Decidable (retries = false))
  | .reconnect | .connected | .messageReceived => isFalse id

/-- Nothing is left that leads to a connection. -/
structure Quiet (s : WebsocketSession) : Prop where
  timer : s.timer = false
  expired : s.expired = 0
  ops : ∀ p ∈ s.ops, p.Mute
  calls : ∀ frame ∈ s.calls, frame.Mute

/-- `Quiet`, when the socket has been closed after a poll and the first frame has gone. -/
structure QuietOnceClosed (s : WebsocketSession) : Prop where
  timer : s.timer = false
  ops : ∀ p ∈ s.ops, p.op ≠ .handshake ∧ p.op.OnSocket
  calls : ∀ frame ∈ s.calls.tail, frame.Mute

/-- The owner shuts down where that leaves nothing, and nothing is used that is gone. -/
def Silences (s : WebsocketSession) (ev : Event) : Prop :=
  s.UsesLive ev ∧
    match ev with
    | .shutdown => s.connected = false → s.Quiet
    | .resume => s.calls.head? = some .shutdown → s.QuietOnceClosed
    | _ => True

/-- What is to hold: nothing is undefined, no message was emitted while the session was down, and it
is not connected while it is. -/
def StaysDown (s : WebsocketSession) : Prop :=
  s.undefined = false ∧ s.late = 0 ∧ (s.down = true → s.connected = false)

variable {isAddress : String → Bool} {s s' : WebsocketSession}

/-! ## What the handlers leave alone -/

/-- Neither was the session shut down, nor was a message emitted while it was. -/
structure SameDown (s s' : WebsocketSession) : Prop where
  down : s'.down = s.down
  late : s'.late = s.late

theorem SameDown.refl (s : WebsocketSession) : SameDown s s := ⟨rfl, rfl⟩

theorem SameDown.start (s : WebsocketSession) (op : Op) : SameDown s (s.start op) := by
  unfold WebsocketSession.start
  split <;> exact ⟨rfl, rfl⟩

theorem SameDown.settle (s : WebsocketSession) (outcome : Outcome) :
    SameDown s (s.settle outcome) := by
  cases outcome with
  | started op => exact .start s (.client op)
  | connected => exact .start s .handshake
  | connectFailed ec =>
    show SameDown s s.onTcpClientConnectFailed
    unfold onTcpClientConnectFailed
    split <;> exact ⟨rfl, rfl⟩
  | silent => exact .refl s

theorem SameDown.connect {target : String} {resolved : Resolved}
    (h : s.connect isAddress target resolved = some s') : SameDown s s' := by
  obtain ⟨client, outcome, heq, -, -⟩ := connect_spec isAddress s target resolved
  rw [← Option.some.inj (heq.symm.trans h)]
  exact ⟨(SameDown.settle _ outcome).down, (SameDown.settle _ outcome).late⟩

theorem SameDown.reconnect (s : WebsocketSession) : SameDown s s.reconnect := by
  unfold WebsocketSession.reconnect beginShutdown
  split
  · split <;> exact ⟨rfl, rfl⟩
  · exact ⟨rfl, rfl⟩

theorem SameDown.onWebsocketHandshakeFinished (s : WebsocketSession) (ec : Option ErrorCode)
    (rejects : Option Bool) : SameDown s (s.onWebsocketHandshakeFinished ec rejects) := by
  cases ec <;> exact ⟨rfl, rfl⟩

theorem SameDown.onReadFinished (h : ¬s.down = true) (ec : Option ErrorCode) :
    SameDown s (s.onReadFinished ec) := by
  cases ec with
  | none => exact ⟨rfl, if_neg h⟩
  | some ec => cases ec <;> exact ⟨rfl, rfl⟩

/-! ## A session that is down -/

/-- While the session is down, it is not connected and nothing is left. -/
structure Downed (s : WebsocketSession) : Prop where
  late : s.late = 0
  quiet : s.down = true → s.connected = false ∧ s.Quiet

theorem Downed.of_sameDown (h : s.Downed) (hup : ¬s.down = true) (hsame : SameDown s s') :
    s'.Downed :=
  ⟨hsame.late.trans h.late, fun hdown => absurd (hsame.down.symm.trans hdown) hup⟩

theorem Quiet.erase (h : s.Quiet) (n : ℕ) : ∀ p ∈ s.ops.eraseIdx n, p.Mute :=
  fun p hp => h.ops p (List.mem_of_mem_eraseIdx hp)

/-- Of what completes while the session is down nothing comes. -/
theorem Downed.completed (h : s.Downed) {n : ℕ} {p : Pending} (hhere : s.ops[n]? = some p)
    {result : Result} (hadmits : p.Admits result) {rejects : Option Bool}
    (hhandled : handle { s with ops := s.ops.eraseIdx n } p.op result rejects = some s') :
    s'.Downed := by
  obtain ⟨op, due⟩ := p
  by_cases hdown : s.down = true
  · obtain ⟨hconnected, hquiet⟩ := h.quiet hdown
    obtain ⟨hdue, hop⟩ := hquiet.ops _ (List.mem_of_getElem? hhere)
    have haborted : result.ec = some .operationAborted := hadmits hdue
    cases handle_cases hhandled with
    | @client op _ _ client hclient =>
      have hsilent : (client.completed op result).2 = .silent :=
        SecuredTcpClient.completed_silent.mpr (SecuredTcpClient.not_heard_of_aborted haborted)
      rw [hsilent]
      exact ⟨h.late, fun _ => ⟨hconnected, hquiet.timer, hquiet.expired, hquiet.erase n,
        hquiet.calls⟩⟩
    | handshake => exact absurd rfl hop
    | read =>
      rw [haborted]
      exact ⟨h.late, fun _ => ⟨hconnected, hquiet.timer, hquiet.expired, hquiet.erase n,
        hquiet.calls⟩⟩
  · refine h.of_sameDown hdown ?_
    cases handle_cases hhandled with
    | client => exact ⟨(SameDown.settle _ _).down, (SameDown.settle _ _).late⟩
    | handshake =>
      exact ⟨(SameDown.onWebsocketHandshakeFinished _ _ _).down,
        (SameDown.onWebsocketHandshakeFinished _ _ _).late⟩
    | read =>
      have hsame :=
        SameDown.onReadFinished (s := { s with ops := s.ops.eraseIdx n }) hdown result.ec
      exact ⟨hsame.down, hsame.late⟩

theorem Downed.step (h : s.Downed) (hsane : s.Sane) {ev : Event} (hsilences : s.Silences ev)
    (hstep : s.step isAddress ev = some s') : s'.Downed := by
  cases step_cases hsane hstep with
  | connect hconnects =>
    -- the owner has asked for a connection
    have hsame := SameDown.connect hconnects
    exact ⟨hsame.late.trans h.late, fun hdown => by
      rw [hsame.down] at hdown
      cases hdown⟩
  | reconnect =>
    have hsame := SameDown.reconnect { s with down := false }
    exact ⟨hsame.late.trans h.late, fun hdown => by
      rw [hsame.down] at hdown
      cases hdown⟩
  | shutdown hconnected =>
    refine ⟨h.late, fun hdown => ?_⟩
    rw [(h.quiet hdown).1] at hconnected
    cases hconnected
  | shutdownIdle hconnected =>
    have hquiet := hsilences.2 hconnected
    exact ⟨h.late, fun _ => ⟨hconnected, hquiet.timer, hquiet.expired, hquiet.ops,
      hquiet.calls⟩⟩
  | setProxy =>
    refine ⟨h.late, fun hdown => ?_⟩
    obtain ⟨hconnected, hquiet⟩ := h.quiet hdown
    exact ⟨hconnected, hquiet.timer, hquiet.expired, hquiet.ops, hquiet.calls⟩
  | completed hhere _ hadmits hhandled => exact h.completed hhere hadmits hhandled
  | orphanCompleted _ hhere =>
    rw [hsane.orphans] at hhere
    cases hhere
  | timerExpires htimer =>
    refine ⟨h.late, fun hdown => ?_⟩
    rw [(h.quiet hdown).2.timer] at htimer
    cases htimer
  | timerHandler _ hexpired hconnects =>
    by_cases hdown : s.down = true
    · rw [(h.quiet hdown).2.expired] at hexpired
      cases hexpired
    · have hsame := SameDown.connect hconnects
      exact h.of_sameDown hdown ⟨hsame.down, hsame.late⟩
  | shutdownEnds hhere hpolled =>
    -- closing the socket aborts what is left, and that has been said to be on the socket
    have hquiet := hsilences.2 (by rw [hhere]; rfl)
    refine ⟨h.late, fun _ => ⟨rfl, hquiet.timer, hpolled.2.1, fun p hp => ?_, ?_⟩⟩
    · obtain ⟨q, hq, rfl⟩ := List.mem_map.mp hp
      obtain ⟨hop, hsocket⟩ := hquiet.ops q hq
      unfold Pending.close
      rw [if_pos hsocket]
      exact ⟨rfl, hop⟩
    · have hcalls := hquiet.calls
      rw [hhere] at hcalls
      exact hcalls
  | reconnectEnds hhere =>
    by_cases hdown : s.down = true
    · exact absurd ((h.quiet hdown).2.calls _ (hhere ▸ List.mem_cons_self)) id
    · exact h.of_sameDown hdown ⟨rfl, rfl⟩
  | @retries calls hhere =>
    -- a frame that reconnects is not left when the session is shut down
    by_cases hdown : s.down = true
    · have hmute := (h.quiet hdown).2.calls _ (hhere ▸ List.mem_cons_self)
      cases hmute
    · have hsame := SameDown.reconnect { s with calls := calls }
      exact h.of_sameDown hdown ⟨hsame.down, hsame.late⟩
  | abandons hhere =>
    refine ⟨h.late, fun hdown => ?_⟩
    obtain ⟨hconnected, hquiet⟩ := h.quiet hdown
    exact ⟨hconnected, hquiet.timer, hquiet.expired, hquiet.ops,
      fun frame hmem => hquiet.calls frame (hhere ▸ List.mem_cons_of_mem _ hmem)⟩
  | reads hhere =>
    by_cases hdown : s.down = true
    · rcases hhere with hhere | hhere
      · exact absurd ((h.quiet hdown).2.calls _ (hhere ▸ List.mem_cons_self)) id
      · exact absurd ((h.quiet hdown).2.calls _ (hhere ▸ List.mem_cons_self)) id
    · exact h.of_sameDown hdown ⟨rfl, rfl⟩

theorem downed_initial : Downed {} :=
  ⟨rfl, fun hdown => by cases hdown⟩

/-- The websocket stays shut down, if the owner shuts it down where that leaves nothing. -/
theorem stays_down (isAddress : String → Bool) (s : WebsocketSession)
    (h : Run (step isAddress) Silences {} s) : s.StaysDown := by
  have hinv : s.Sane ∧ s.Downed :=
    h.invariant (I := fun s => s.Sane ∧ s.Downed) ⟨sane_initial, downed_initial⟩
      fun _ _ _ _ hinv hsilences hstep =>
        ⟨hinv.1.step hsilences.1 hstep, hinv.2.step hinv.1 hsilences hstep⟩
  exact ⟨hinv.1.defined, hinv.2.late, fun hdown => (hinv.2.quiet hdown).1⟩

instance (s : WebsocketSession) : Decidable s.Quiet :=
  decidable_of_iff (s.timer = false ∧ s.expired = 0 ∧ (∀ p ∈ s.ops, p.Mute) ∧
    ∀ frame ∈ s.calls, frame.Mute)
    ⟨fun h => ⟨h.1, h.2.1, h.2.2.1, h.2.2.2⟩,
      fun h => ⟨h.timer, h.expired, h.ops, h.calls⟩⟩

instance (s : WebsocketSession) : Decidable s.QuietOnceClosed :=
  decidable_of_iff (s.timer = false ∧ (∀ p ∈ s.ops, p.op ≠ .handshake ∧ p.op.OnSocket) ∧
    ∀ frame ∈ s.calls.tail, frame.Mute)
    ⟨fun h => ⟨h.1, h.2.1, h.2.2⟩, fun h => ⟨h.timer, h.ops, h.calls⟩⟩

instance (s : WebsocketSession) (ev : Event) : Decidable (s.Silences ev) :=
  match ev with
  | .shutdown => inferInstanceAs (Decidable (_ ∧ (s.connected = false → s.Quiet)))
  | .resume =>
    inferInstanceAs (Decidable (_ ∧ (s.calls.head? = some .shutdown → s.QuietOnceClosed)))
  | .connect _ _ | .timerHandler _ | .completed _ _ _ | .reconnect _ | .setProxy _ _
  | .orphanCompleted | .timerExpires => inferInstanceAs (Decidable (_ ∧ True))

/-- The session connects, and reads a message. -/
def opened : List Event :=
  [.connect "/synergy/sub/auth" .endpoints, .completed 0 {} none, .completed 0 {} none,
    .completed 0 {} none, .resume, .completed 0 {} none, .resume]

/-- Then the owner shuts it down, and the read is aborted in the poll. -/
def paused : List Event :=
  opened ++ [.shutdown, .completed 0 { ec := some .operationAborted } none, .resume]

theorem paused_stays_down : (execs (step fun _ => false) {} paused).down = true ∧
    (execs (step fun _ => false) {} paused).StaysDown :=
  ⟨by decide +kernel, stays_down (fun _ => false) _ (Run.nil.execs (by decide +kernel))⟩

/-- The owner shuts the session down while it connects. -/
def pausedEarly : List Event :=
  [.connect "/synergy/sub/auth" .endpoints, .shutdown, .completed 0 {} none, .completed 0 {} none,
    .completed 0 {} none]

theorem comes_up : ∃ s, Run (step fun _ => false) (fun _ _ => True) {} s ∧
    s.down = true ∧ s.connected = true :=
  ⟨execs (step fun _ => false) {} pausedEarly,
    Run.nil.execs (allOk_of_forall (fun _ _ => trivial) _ _), by decide +kernel⟩

end WebsocketSession

end Synergy
