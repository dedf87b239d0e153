import Synergy.Cloud.WebsocketSession

/-!
# What a websocket that is wanted waits for

After a `connect` something is always to come: a read of the connection, an operation that sets one
up, or the timer after which there is a new attempt. A handler that returns without a word takes its
operation away. Those are the handlers of an operation that was aborted, or that failed to reach a
proxy, and the handler of a websocket handshake that failed without a response, where `m_res` still
holds an earlier rejection. Where nothing else is to come, the session waits for nothing.
-/

set_option autoImplicit false

namespace Synergy

open Lib
open SecuredTcpClient (ErrorCode Outcome Result)

namespace WebsocketSession

/-- An operation that sets a connection up. -/
def Op.Connects (op : Op) : Prop :=
  op ≠ .read

instance (op : Op) : Decidable op.Connects := inferInstanceAs (Decidable (_ ≠ _))

/-- A frame that reconnects when it goes on. -/
def Frame.Retries : Frame → Prop
  | .reconnect => True
  | .connectionError retries => retries = true
  | _ => False

instance (frame : Frame) : Decidable frame.Retries :=
  match frame with
  | .reconnect => isTrue trivial
  | .connectionError retries => inferInstanceAs (Decidable (retries = true))
  | .shutdown | .connected | .messageReceived => isFalse id

/-- Frames after which there is a read. -/
def Frame.Reads (frame : Frame) : Prop :=
  frame = .connected ∨ frame = .messageReceived

/-- An attempt to connect is under way or to come. -/
def Attempts (s : WebsocketSession) : Prop :=
  s.timer = true ∨ 0 < s.expired ∨ (∃ p ∈ s.ops, p.op.Connects) ∨
    ∃ frame ∈ s.calls, frame.Retries

instance (s : WebsocketSession) : Decidable s.Attempts := inferInstanceAs (Decidable (_ ∨ _))

/-- The session is connected, and reads or is going to. -/
def Reading (s : WebsocketSession) : Prop :=
  s.connected = true ∧ ((∃ p ∈ s.ops, p.op = .read) ∨ ∃ frame ∈ s.calls, frame.Reads)

/-- The handler of the operation does something about it. -/
def Op.Heard (op : Op) (result : Result) (rejects : Option Bool) (rejected : Bool) : Prop :=
  match op with
  | .client op => SecuredTcpClient.Heard op result
  | .handshake => result.ec = none ∨ rejects ≠ none ∨ rejected = false
  | .read => result.ec ≠ some .operationAborted

instance (op : Op) (result : Result) (rejects : Option Bool) (rejected : Bool) :
    Decidable (op.Heard result rejects rejected) :=
  match op with
  | .client op => inferInstanceAs (Decidable (SecuredTcpClient.Heard op result))
  | .handshake => inferInstanceAs (Decidable (_ ∨ _))
  | .read => inferInstanceAs (Decidable (result.ec ≠ some .operationAborted))

/-- While the session is wanted, nothing is passed over that was the last to come, and nothing is
used that is gone. -/
def Heeds (s : WebsocketSession) (ev : Event) : Prop :=
  s.UsesLive ev ∧
    match ev with
    | .connect _ resolved => resolved ≠ .error .operationAborted
    | .timerHandler resolved => resolved ≠ .error .operationAborted
    | .completed n result rejects => s.wanted = true → ∀ p ∈ s.ops[n]?,
        p.op.Heard result rejects s.rejected ∨ Attempts { s with ops := s.ops.eraseIdx n }
    | _ => True

instance (s : WebsocketSession) (ev : Event) : Decidable (s.Heeds ev) :=
  match ev with
  | .connect _ resolved =>
    inferInstanceAs (Decidable (_ ∧ resolved ≠ .error .operationAborted))
  | .timerHandler resolved =>
    inferInstanceAs (Decidable (_ ∧ resolved ≠ .error .operationAborted))
  | .completed n result rejects => inferInstanceAs (Decidable (_ ∧ (s.wanted = true →
      ∀ p ∈ s.ops[n]?, p.op.Heard result rejects s.rejected ∨
        Attempts { s with ops := s.ops.eraseIdx n })))
  | .reconnect _ | .shutdown | .setProxy _ _ | .orphanCompleted | .timerExpires | .resume =>
    inferInstanceAs (Decidable (_ ∧ True))

/-- What is to hold of a session that is wanted, between the calls: it is connected with a read
outstanding, an operation is outstanding that sets a connection up, or the wait of the timer has not
completed. -/
def Alive (s : WebsocketSession) : Prop :=
  s.undefined = false ∧ (s.wanted = true → s.calls = [] →
    (s.connected = true ∧ ∃ p ∈ s.ops, p.op = .read) ∨
    (∃ p ∈ s.ops, p.op.Connects) ∨ (s.timer = true ∨ 0 < s.expired))

variable {isAddress : String → Bool} {s s' : WebsocketSession}

/-! ## What is to come -/

/-- Something is to come, if the session is wanted. -/
def Waits (s : WebsocketSession) : Prop :=
  s.wanted = true → s.Attempts ∨ s.Reading

theorem Attempts.of_op {p : Pending} (hmem : p ∈ s.ops) (h : p.op.Connects) : s.Attempts :=
  Or.inr (Or.inr (Or.inl ⟨p, hmem, h⟩))

theorem Attempts.of_frame {frame : Frame} (hmem : frame ∈ s.calls) (h : frame.Retries) :
    s.Attempts :=
  Or.inr (Or.inr (Or.inr ⟨frame, hmem, h⟩))

/-- What is to come stays to come, if it is still there. -/
theorem Attempts.mono (h : s.Attempts) (htimer : s.timer = true → s'.timer = true)
    (hexpired : s.expired ≤ s'.expired)
    (hops : ∀ p ∈ s.ops, p.op.Connects → ∃ q ∈ s'.ops, q.op = p.op)
    (hcalls : ∀ frame ∈ s.calls, frame.Retries → frame ∈ s'.calls) : s'.Attempts := by
  rcases h with htime | hexp | ⟨p, hp, hconnects⟩ | ⟨frame, hframe, hretries⟩
  · exact Or.inl (htimer htime)
  · exact Or.inr (Or.inl (by omega))
  · obtain ⟨q, hq, heq⟩ := hops p hp hconnects
    exact .of_op hq (heq ▸ hconnects)
  · exact .of_frame (hcalls frame hframe hretries) hretries

theorem handleConnectError_attempts : (s.handleConnectError true).Attempts :=
  .of_frame List.mem_cons_self rfl

/-- Unless the client is silent, an attempt goes on or is to come. -/
theorem settle_attempts (hclient : s.tcpClient.isSome) {outcome : Outcome}
    (h : outcome ≠ .silent) : (s.settle outcome).Attempts := by
  cases outcome with
  | started op =>
    show (s.start (.client op)).Attempts
    rw [start_eq hclient]
    exact .of_op (List.mem_append_right _ List.mem_cons_self) (by simp [Op.Connects])
  | connected =>
    show (s.start .handshake).Attempts
    rw [start_eq hclient]
    exact .of_op (List.mem_append_right _ List.mem_cons_self) (by simp [Op.Connects])
  | connectFailed ec =>
    show s.onTcpClientConnectFailed.Attempts
    rw [onTcpClientConnectFailed_eq hclient]
    exact handleConnectError_attempts
  | silent => exact absurd rfl h

theorem connect_attempts {target : String} {resolved : Resolved}
    (hresolved : resolved ≠ .error .operationAborted)
    (h : s.connect isAddress target resolved = some s') : s'.Attempts := by
  obtain ⟨client, outcome, heq, hsilent, -⟩ := connect_spec isAddress s target resolved
  rw [← Option.some.inj (heq.symm.trans h)]
  exact settle_attempts rfl fun hout => hresolved (hsilent.mp hout)

theorem reconnect_attempts (h : s.Sane) : s.reconnect.Attempts := by
  unfold WebsocketSession.reconnect
  split
  · rename_i hconnected
    rw [beginShutdown_eq (h.isSome_of_connected hconnected)]
    exact .of_frame List.mem_cons_self trivial
  · exact Or.inl rfl

theorem start_wanted (s : WebsocketSession) (op : Op) : (s.start op).wanted = s.wanted := by
  unfold start
  split <;> rfl

theorem settle_wanted (s : WebsocketSession) (outcome : Outcome) :
    (s.settle outcome).wanted = s.wanted := by
  cases outcome with
  | started op => exact start_wanted s (.client op)
  | connected => exact start_wanted s .handshake
  | connectFailed ec =>
    show s.onTcpClientConnectFailed.wanted = s.wanted
    unfold onTcpClientConnectFailed
    split <;> rfl
  | silent => rfl

/-- The handler of a failed handshake goes on to reconnect, or the rejection is an earlier one. -/
theorem handshakeFailed_waits {ec : ErrorCode} {rejects : Option Bool}
    (h : s.wanted = true → rejects ≠ none ∨ s.rejected = false ∨ s.Attempts) :
    (s.onWebsocketHandshakeFinished (some ec) rejects).Waits := by
  intro hwanted
  have hboth : s.wanted = true ∧ rejects ≠ some true := by
    simpa [onWebsocketHandshakeFinished, handleConnectError] using hwanted
  have herror : ∀ retries : Bool, (!(rejects.getD s.rejected)) = retries →
      s.onWebsocketHandshakeFinished (some ec) rejects = handleConnectError { s with
        rejected := rejects.getD s.rejected
        wanted := s.wanted && rejects != some true } retries := by
    intro retries hretries
    rw [← hretries]
    rfl
  by_cases hrejected : rejects.getD s.rejected = true
  · have hnone : rejects = none := by
      cases rejects with
      | none => rfl
      | some r => exact absurd (congrArg some hrejected) hboth.2
    rcases h hboth.1 with hsome | hclean | hattempts
    · exact absurd hnone hsome
    · rw [hnone, hclean] at hrejected
      cases hrejected
    · rw [herror false (by simp [hrejected])]
      exact Or.inl (hattempts.mono id (Nat.le_refl _)
        (fun p hp _ => ⟨p, hp, rfl⟩) fun frame hframe _ => List.mem_cons_of_mem _ hframe)
  · rw [herror true (by simp [hrejected])]
    exact Or.inl handleConnectError_attempts

theorem mem_erase_of_connects {n : ℕ} {due : Due} (hhere : s.ops[n]? = some ⟨.read, due⟩)
    {p : Pending} (hp : p ∈ s.ops) (hconnects : p.op.Connects) : p ∈ s.ops.eraseIdx n := by
  obtain ⟨i, hi⟩ := List.getElem?_of_mem hp
  refine List.mem_eraseIdx_iff_getElem?.mpr ⟨i, fun heq => ?_, hi⟩
  rw [heq, hhere] at hi
  cases hi
  exact hconnects rfl

/-- A handler whose operation was heeded leaves something to come. -/
theorem Waits.completed (h : s.Waits) {n : ℕ} {p : Pending} {result : Result}
    {rejects : Option Bool} (hhere : s.ops[n]? = some p)
    (hheeds : s.wanted = true → p.op.Heard result rejects s.rejected ∨
      Attempts { s with ops := s.ops.eraseIdx n })
    (hhandled : handle { s with ops := s.ops.eraseIdx n } p.op result rejects = some s') :
    s'.Waits := by
  obtain ⟨op, due⟩ := p
  cases handle_cases hhandled with
  | @client op _ _ client hclient =>
    intro hwanted
    rw [settle_wanted] at hwanted
    -- the client starts the next operation, hands over or fails, unless it is silent
    by_cases hsilent : (client.completed op result).2 = .silent
    · rcases hheeds hwanted with hheard | hattempts
      · exact absurd hheard (SecuredTcpClient.completed_silent.mp hsilent)
      · rw [hsilent]
        exact Or.inl hattempts
    · exact Or.inl (settle_attempts rfl hsilent)
  | handshake =>
    cases hec : result.ec with
    | none => exact fun _ => Or.inr ⟨rfl, Or.inr ⟨.connected, List.mem_cons_self, Or.inl rfl⟩⟩
    | some ec =>
      refine handshakeFailed_waits fun hwanted => ?_
      rcases hheeds hwanted with hheard | hattempts
      · rcases hheard with hnone | hsome | hclean
        · rw [hec] at hnone
          cases hnone
        · exact Or.inl hsome
        · exact Or.inr (Or.inl hclean)
      · exact Or.inr (Or.inr hattempts)
  | read =>
    cases hec : result.ec with
    | none =>
      intro hwanted
      rcases h hwanted with hattempts | ⟨hconnected, -⟩
      · exact Or.inl (hattempts.mono id (Nat.le_refl _)
          (fun q hq hconnects => ⟨q, mem_erase_of_connects hhere hq hconnects, rfl⟩)
          fun frame hframe _ => List.mem_cons_of_mem _ hframe)
      · exact Or.inr ⟨hconnected, Or.inr ⟨.messageReceived, List.mem_cons_self, Or.inr rfl⟩⟩
    | some ec =>
      -- after every other error the session reconnects
      cases ec with
      | operationAborted =>
        intro hwanted
        rcases hheeds hwanted with hheard | hattempts
        · exact absurd hec hheard
        · exact Or.inl hattempts
      | other value => exact fun _ => Or.inl handleConnectError_attempts

/-- When the first frame has gone, what was to come of the others still is. -/
theorem Attempts.tail {frame : Frame} {calls : List Frame} (hhere : s.calls = frame :: calls)
    (hframe : ¬frame.Retries) (h : s.Attempts) (ops : List Pending) :
    Attempts { s with calls := calls, ops := s.ops ++ ops } := by
  refine h.mono id (Nat.le_refl _)
    (fun p hp _ => ⟨p, List.mem_append_left _ hp, rfl⟩) fun other hother hretries => ?_
  rw [hhere] at hother
  rcases List.mem_cons.mp hother with rfl | hmem
  · exact absurd hretries hframe
  · exact hmem

theorem Waits.step (h : s.Waits) (hsane : s.Sane) {ev : Event} (hheeds : s.Heeds ev)
    (hstep : s.step isAddress ev = some s') : s'.Waits := by
  cases step_cases hsane hstep with
  | connect hconnects => exact fun _ => Or.inl (connect_attempts hheeds.2 hconnects)
  | reconnect =>
    exact fun _ =>
      Or.inl (reconnect_attempts ⟨hsane.defined, hsane.orphans, hsane.unused, hsane.ops⟩)
  | shutdown => exact fun hwanted => absurd hwanted (by simp)
  | shutdownIdle => exact fun hwanted => absurd hwanted (by simp)
  | setProxy => exact h
  | completed hhere _ _ hhandled =>
    exact h.completed hhere (fun hwanted => hheeds.2 hwanted _ hhere) hhandled
  | orphanCompleted _ hhere =>
    rw [hsane.orphans] at hhere
    cases hhere
  | timerExpires => exact fun _ => Or.inl (Or.inr (Or.inl (Nat.succ_pos _)))
  | timerHandler _ _ hconnects => exact fun _ => Or.inl (connect_attempts hheeds.2 hconnects)
  | shutdownEnds => exact fun hwanted => absurd hwanted (by simp)
  | reconnectEnds => exact fun _ => Or.inl (Or.inl rfl)
  | retries hhere => exact fun _ => Or.inl (reconnect_attempts (hsane.tail hhere))
  | abandons hhere =>
    -- the frame that has gone is neither one that reconnects nor one that reads
    intro hwanted
    rcases h hwanted with hattempts | ⟨hconnected, hreads⟩
    · have htail := hattempts.tail hhere (fun hretries => by cases hretries) []
      rw [List.append_nil] at htail
      exact Or.inl htail
    · refine Or.inr ⟨hconnected, ?_⟩
      rcases hreads with hop | ⟨frame, hframe, hkind⟩
      · exact Or.inl hop
      · rw [hhere] at hframe
        rcases List.mem_cons.mp hframe with rfl | hmem
        · rcases hkind with heq | heq <;> cases heq
        · exact Or.inr ⟨frame, hmem, hkind⟩
  | reads hhere =>
    intro hwanted
    rcases h hwanted with hattempts | ⟨hconnected, -⟩
    · rcases hhere with hhere | hhere
      · exact Or.inl (hattempts.tail hhere id _)
      · exact Or.inl (hattempts.tail hhere id _)
    · exact Or.inr ⟨hconnected, Or.inl ⟨_, List.mem_append_right _ List.mem_cons_self, rfl⟩⟩

theorem waits_initial : Waits {} :=
  fun hwanted => by cases hwanted

/-- A session that is wanted never waits for nothing, if it heeds what happens. -/
theorem never_wedges (isAddress : String → Bool) (s : WebsocketSession)
    (h : Run (step isAddress) Heeds {} s) : s.Alive := by
  have hinv : s.Sane ∧ s.Waits :=
    h.invariant (I := fun s => s.Sane ∧ s.Waits) ⟨sane_initial, waits_initial⟩
      fun _ _ _ _ hinv hheeds hstep =>
        ⟨hinv.1.step hheeds.1 hstep, hinv.2.step hinv.1 hheeds hstep⟩
  refine ⟨hinv.1.defined, fun hwanted hcalls => ?_⟩
  rcases hinv.2 hwanted with hattempts | ⟨hconnected, hreads⟩
  · rcases hattempts with htimer | hexpired | hop | ⟨frame, hframe, -⟩
    · exact Or.inr (Or.inr (Or.inl htimer))
    · exact Or.inr (Or.inr (Or.inr hexpired))
    · exact Or.inr (Or.inl hop)
    · rw [hcalls] at hframe
      cases hframe
  · rcases hreads with hop | ⟨frame, hframe, -⟩
    · exact Or.inl ⟨hconnected, hop⟩
    · rw [hcalls] at hframe
      cases hframe

/-- The first attempt fails, and the second one, after the timer, succeeds. -/
def secondAttempt : List Event :=
  [.connect "/synergy/sub/auth" .endpoints, .completed 0 { ec := some (.other 111) } none, .resume,
    .timerExpires, .timerHandler .endpoints, .completed 0 {} none, .completed 0 {} none,
    .completed 0 {} none, .resume]

theorem secondAttempt_alive :
    (execs (step fun _ => false) {} secondAttempt).wanted = true ∧
      (execs (step fun _ => false) {} secondAttempt).connected = true ∧
      (execs (step fun _ => false) {} secondAttempt).Alive :=
  ⟨by decide +kernel, by decide +kernel,
    never_wedges (fun _ => false) _ (Run.nil.execs (by decide +kernel))⟩

/-- The proxy is changed while the session connects. -/
def proxyChanged : List Event :=
  [.connect "/synergy/sub/auth" .endpoints, .setProxy "proxy" 8080,
    .completed 0 { ec := some .operationAborted } none]

theorem wedges : ∃ s, Run (step fun _ => false) (fun _ _ => True) {} s ∧
    s.wanted = true ∧ s.calls = [] ∧ s.connected = false ∧ s.ops = [] ∧ s.orphans = 0 ∧
      s.timer = false ∧ s.expired = 0 :=
  ⟨execs (step fun _ => false) {} proxyChanged,
    Run.nil.execs (allOk_of_forall (fun _ _ => trivial) _ _), by decide +kernel⟩

end WebsocketSession

end Synergy
