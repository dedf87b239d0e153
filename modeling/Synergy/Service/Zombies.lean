import Synergy.Service.Removal

/-!
# Connections whose loop has ended

A receive loop ends in three ways, and two of them take the connection out of the router: it
finds `enabled_` cleared, which only `Router::remove` does, or it finds an error and calls
`on_disconnect`. The third is `operation_aborted` in a loop that is still enabled, and that is
what the timer of a message that does not come in produces: the loop ends without a word, and
the connection and its routes stay.

Where no timer cancels the read of an enabled loop, and no `stop` leaves a loop reading, a
loop that has ended is accounted for (`Accounted`): its removal is under way or done.
-/

set_option autoImplicit false

namespace Synergy

open Lib

/-! ## One session -/

/-- The socket is waiting for a read. -/
def ReceiveLoop.Waits : ReceiveLoop → Prop
  | .reading _ ⟨_, .outstanding⟩ => True
  | _ => False

/-- The read has been cancelled. -/
def ReceiveLoop.AbortQueued : ReceiveLoop → Prop
  | .reading _ ⟨_, .queued .operationAborted _⟩ => True
  | _ => False

instance : (l : ReceiveLoop) → Decidable l.Waits
  | .reading _ ⟨_, .outstanding⟩ => inferInstanceAs (Decidable True)
  | .reading _ ⟨_, .queued _ _⟩ | .absent | .spawned | .testing | .leaving | .ended =>
    inferInstanceAs (Decidable False)

namespace Session

/-- A read of the loop has been cancelled, some time or other. -/
def Aborted (x : Session) : Prop := x.loop.AbortQueued ∨ x.reader.error = .operationAborted

/-- The loop has ended or will end, for another reason than that its read was cancelled. -/
def Over (x : Session) : Prop :=
  x.loop.Begun ∧ (x.enabled = false ∨ x.loop = .leaving ∨ x.loop = .ended)

variable {x y : Session}

theorem not_abortQueued_start (header : Option MessageHeader) (r : MessageReader) :
    ¬(ReceiveLoop.reading header (.start r)).AbortQueued := by
  unfold AsyncRead.start
  split
  · exact not_false
  · exact not_false

theorem begun_of_abortQueued {l : ReceiveLoop} (h : l.AbortQueued) : l.Begun := by
  cases l with
  | reading header read => trivial
  | absent => exact absurd h not_false
  | spawned => exact absurd h not_false
  | testing => trivial
  | leaving => trivial
  | ended => trivial

theorem cancel_of_not_waits (h : ¬x.loop.Waits) : x.cancel = x := by
  obtain ⟨enabled, reader, loop⟩ := x
  cases loop with
  | reading header read =>
    obtain ⟨total, op⟩ := read
    cases op with
    | outstanding => exact absurd trivial h
    | queued ec bytes => rfl
  | _ => rfl

@[simp] theorem cancel_reader (x : Session) : x.cancel.reader = x.reader := by
  unfold cancel
  split <;> rfl

theorem over_of_cancel (h : x.cancel.Over) : x.Over := by
  refine ⟨(cancel_begun x).mp h.1, ?_⟩
  have hover := h.2
  rw [cancel_enabled] at hover
  refine hover.imp_right fun hloop => ?_
  unfold cancel at hloop
  split at hloop
  · exact hloop.elim nofun nofun
  · exact hloop

theorem over_of_reading {header header' : Option MessageHeader} {read read' : AsyncRead}
    (hx : x.loop = .reading header read) (hy : y.loop = .reading header' read')
    (enabled : y.enabled = x.enabled) (h : y.Over) : x.Over := by
  refine ⟨by rw [hx]; trivial, ?_⟩
  rw [← enabled]
  rcases h.2 with h | h | h
  · exact Or.inl h
  · exact absurd (hy.symm.trans h) nofun
  · exact absurd (hy.symm.trans h) nofun

/-! ### What every move makes of these -/

theorem transfer_spec {ec : ErrorCode} {bytes : ℕ} (h : x.transfer ec bytes = some y) :
    (y.Aborted → x.Aborted) ∧ (y.Over → x.Over) := by
  unfold transfer at h
  split at h
  · rename_i header total hloop
    obtain ⟨⟨hec, -⟩, heq⟩ := Option.ite_none_right_eq_some.mp h
    cases heq
    refine ⟨fun ha => ?_, over_of_reading hloop rfl rfl⟩
    rcases ha with ha | ha
    · cases ec with
      | operationAborted => exact absurd rfl hec
      | success => exact absurd ha not_false
      | failure value => exact absurd ha not_false
    · exact Or.inr ha
  · exact absurd h (by simp)

theorem expire_spec (h : x.expire = some y) : (y.Aborted → x.Aborted) ∧ (y.Over → x.Over) := by
  obtain ⟨-, heq⟩ := Option.ite_none_right_eq_some.mp h
  cases heq
  exact ⟨id, id⟩

theorem timeout_cases (h : x.timeout = some y) : ∃ z : Session, y = z.cancel ∧
    z.enabled = x.enabled ∧ z.loop = x.loop ∧ z.reader.error = x.reader.error := by
  unfold timeout at h
  split at h
  · exact absurd h (by simp)
  · cases h
    exact ⟨_, rfl, rfl, rfl, rfl⟩

/-- The handler of the timer. In a loop that is not enabled it may abort the read. -/
theorem timeout_spec (h : x.timeout = some y) (hwaits : x.enabled = true → ¬x.loop.Waits) :
    (y.Aborted → x.Aborted ∨ (y.enabled = false ∧ y.loop.Begun)) ∧ (y.Over → x.Over) := by
  obtain ⟨z, rfl, henabled, hloop, herror⟩ := timeout_cases h
  refine ⟨fun ha => ?_, fun ho => ?_⟩
  · unfold Aborted at ha
    rw [cancel_reader, herror] at ha
    rcases ha with ha | ha
    · cases hx : x.enabled with
      | true =>
        rw [cancel_of_not_waits (by rw [hloop]; exact hwaits hx), hloop] at ha
        exact Or.inl (Or.inl ha)
      | false =>
        rw [cancel_enabled, henabled]
        exact Or.inr ⟨hx, begun_of_abortQueued ha⟩
    · exact Or.inl (Or.inr ha)
  · have hover := over_of_cancel ho
    unfold Over at hover ⊢
    rwa [henabled, hloop] at hover

theorem advance_error {r reader : MessageReader} {total bytes : ℕ} {ec : ErrorCode}
    {result : Option ℕ} (h : AsyncRead.advance r total ec bytes = (reader, result)) :
    reader.error = r.error ∨ reader.error = ec := by
  unfold AsyncRead.advance at h
  split at h
  · cases h
    exact Or.inr rfl
  · simp only at h
    split at h
    · cases h
      exact Or.inr rfl
    · cases h
      left
      unfold MessageReader.readChunk
      split
      · rfl
      · simp only
        split
        · rfl
        · rfl

theorem resume_spec {content : Content} {message : Option (MessageHeader × Body)}
    (h : x.resume content = some (y, message)) :
    (y.Aborted → x.Aborted) ∧ (y.Over → x.Over) := by
  unfold resume at h
  split at h
  · rename_i header total ec bytes hloop
    cases hadvance : AsyncRead.advance x.reader total ec bytes with
    | mk reader result =>
    rw [hadvance] at h
    -- the error is the one of the completion, or the one before
    have herror : reader.error = .operationAborted → x.Aborted := by
      intro heq
      rcases advance_error hadvance with h' | h'
      · exact Or.inr (h'.symm.trans heq)
      · refine Or.inl ?_
        rw [hloop, ← h', heq]
        trivial
    have hover : ∀ z : Session, z.enabled = x.enabled → z.loop = .testing → z.Over → x.Over := by
      intro z henabled hz ho
      refine ⟨by rw [hloop]; trivial, ?_⟩
      rw [← henabled]
      rcases ho.2 with ho | ho | ho
      · exact Or.inl ho
      · exact absurd (hz.symm.trans ho) nofun
      · exact absurd (hz.symm.trans ho) nofun
    cases result with
    | none =>
      cases h
      exact ⟨fun ha => herror (ha.resolve_left not_false), over_of_reading hloop rfl rfl⟩
    | some bytesRead =>
      cases header with
      | none =>
        simp only [headerRead] at h
        split at h
        · cases h
          exact ⟨fun ha => herror (ha.resolve_left not_false), hover _ rfl rfl⟩
        · cases h
          refine ⟨fun ha => herror (ha.resolve_left ?_), over_of_reading hloop rfl rfl⟩
          exact not_abortQueued_start _ _
      | some header =>
        cases h
        exact ⟨fun ha => herror (ha.resolve_left not_false), hover _ rfl rfl⟩
  · exact absurd h (by simp)

theorem begin_spec (x : Session) :
    (x.begin.Aborted → x.Aborted) ∧ ¬x.begin.Over := by
  refine ⟨fun ha => Or.inr (ha.resolve_left (not_abortQueued_start _ _)), fun ho => ?_⟩
  rcases ho.2 with ho | ho | ho
  · exact absurd ho nofun
  · exact absurd ho nofun
  · exact absurd ho nofun

/-- The tests of a loop whose read has not been cancelled, unless `enabled_` is cleared. -/
theorem test_spec (hbegun : x.loop.Begun) (haborted : x.Aborted → x.enabled = false) :
    (x.test.1.Aborted → x.Aborted) ∧
      (x.test.1.Over → x.Over ∨ x.test.2 = true) := by
  unfold test
  split
  · rename_i h
    have hdisabled : x.enabled = false := by simpa using h
    exact ⟨fun ha => Or.inr (ha.resolve_left not_false), fun _ => Or.inl ⟨hbegun, Or.inl hdisabled⟩⟩
  · rename_i h
    have henabled : x.enabled = true := by simpa using h
    split
    · rename_i herror
      exact absurd (henabled.symm.trans (haborted (Or.inr herror))) nofun
    · exact ⟨fun ha => Or.inr (ha.resolve_left not_false), fun _ => Or.inr rfl⟩
    · refine ⟨fun ha => Or.inr (ha.resolve_left (not_abortQueued_start _ _)), fun ho => ?_⟩
      rcases ho.2 with ho | ho | ho
      · exact absurd (henabled.symm.trans ho) nofun
      · exact absurd ho nofun
      · exact absurd ho nofun

end Session

/-! ## The router and all sessions -/

namespace Service

variable {s s' : Service}

/-- `Router::remove` of the connection has been called, and is under way or has been done. -/
def Going (s : Service) (c : Connection) : Prop :=
  (∃ polls, Frame.removing c polls ∈ s.stack) ∨ c ∉ s.router.connections

/-- A loop whose read has been cancelled is not enabled, and the connection of a loop that is
    not enabled, or has ended, is going. -/
structure Accounted (s : Service) : Prop where
  aborted : ∀ c, (s.sessions c).Aborted → (s.sessions c).enabled = false ∧
    (s.sessions c).loop.Begun
  gone : ∀ c, (s.sessions c).Over → s.Going c
  loops : ∀ c, Frame.loop c ∈ s.stack → (s.sessions c).loop.Begun

/-- No timer runs out on the read of an enabled loop. -/
def ReadsInTime (s : Service) : Event → Prop
  | .timeout c => (s.sessions c).enabled = true → ¬(s.sessions c).loop.Waits
  | _ => True

instance (s : Service) : (ev : Event) → Decidable (ReadsInTime s ev)
  | .timeout c =>
    inferInstanceAs (Decidable ((s.sessions c).enabled = true → ¬(s.sessions c).loop.Waits))
  | .add _ | .remove _ | .begin _ | .transfer _ _ _ | .resume _ _ | .expire _ | .finish _
  | .proceed => inferInstanceAs (Decidable True)

namespace Accounted

theorem start (id : UInt32) : Accounted (start id) where
  aborted _ h := h.elim (absurd · not_false) nofun
  gone _ h := absurd h.1 not_false
  loops _ h := absurd h List.not_mem_nil

/-- One session is set. What is asked of it and what of the others are two things. -/
theorem of_setSession {c : Connection} {x : Session}
    (hothers : ∀ c' ≠ c, ((s.sessions c').Aborted → (s.sessions c').enabled = false ∧
      (s.sessions c').loop.Begun) ∧ ((s.sessions c').Over → s.Going c'))
    (hloops : ∀ c' ≠ c, Frame.loop c' ∈ s.stack → (s.sessions c').loop.Begun)
    (haborted : x.Aborted → x.enabled = false ∧ x.loop.Begun) (hover : x.Over → s.Going c)
    (hbegun : Frame.loop c ∈ s.stack → x.loop.Begun) : Accounted (s.setSession c x) := by
  refine ⟨fun c' ha => ?_, fun c' ho => ?_, fun c' hf => ?_⟩
  · rw [sessions_setSession] at ha ⊢
    split
    · rename_i hc
      rw [if_pos hc] at ha
      exact haborted ha
    · rename_i hc
      rw [if_neg hc] at ha
      exact (hothers c' hc).1 ha
  · rw [sessions_setSession] at ho
    split at ho
    · rename_i hc
      exact hc ▸ hover ho
    · rename_i hc
      exact (hothers c' hc).2 ho
  · rw [sessions_setSession]
    split
    · rename_i hc
      exact hbegun (hc ▸ hf)
    · rename_i hc
      exact hloops c' hc hf

theorem setSession (h : Accounted s) {c : Connection} {x : Session}
    (haborted : x.Aborted → x.enabled = false ∧ x.loop.Begun) (hover : x.Over → s.Going c)
    (hbegun : (s.sessions c).loop.Begun → x.loop.Begun) : Accounted (s.setSession c x) :=
  of_setSession (fun c' _ => ⟨h.aborted c', h.gone c'⟩) (fun c' _ => h.loops c') haborted hover
    fun hf => hbegun (h.loops c hf)

/-- A loop moves on, and nothing happens in it that `Accounted` is about. -/
theorem move (h : Accounted s) {c : Connection} {x : Session}
    (hfades : Session.Fades (s.sessions c) x)
    (hspec : (x.Aborted → (s.sessions c).Aborted) ∧ (x.Over → (s.sessions c).Over)) :
    Accounted (s.setSession c x) := by
  refine h.setSession (fun ha => ?_) (fun ho => h.gone c (hspec.2 ho)) hfades.begun
  obtain ⟨hdisabled, hbegun⟩ := h.aborted c (hspec.1 ha)
  exact ⟨hfades.disabled hdisabled, hfades.begun hbegun⟩

theorem push (h : Accounted s) (f : Frame) (hf : ∀ c, f = .loop c → (s.sessions c).loop.Begun) :
    Accounted (s.push f) := by
  refine ⟨h.aborted, fun c ho => ?_, fun c hc => ?_⟩
  · refine (h.gone c ho).imp_left ?_
    rintro ⟨polls, hmem⟩
    exact ⟨polls, List.mem_cons_of_mem _ hmem⟩
  · rcases List.mem_cons.mp hc with hc | hc
    · exact hf c hc.symm
    · exact h.loops c hc

theorem popLoop (h : Accounted s) {c : Connection} {rest : List Frame}
    (top : s.stack = .loop c :: rest) : Accounted { s with stack := rest } := by
  refine ⟨h.aborted, fun c' ho => ?_, fun c' hc => ?_⟩
  · refine (h.gone c' ho).imp_left ?_
    rintro ⟨polls, hmem⟩
    rw [top] at hmem
    exact ⟨polls, List.mem_of_ne_of_mem (by simp) hmem⟩
  · refine h.loops c' ?_
    rw [top]
    exact List.mem_cons_of_mem _ hc

theorem stop (h : Accounted s) {c : Connection} (hgoing : s.Going c)
    (hbegun : (s.sessions c).enabled = true → (s.sessions c).loop.Begun) :
    Accounted (s.setSession c (s.sessions c).stop) := by
  refine h.setSession (fun ha => ⟨Session.stop_enabled _, ?_⟩) (fun _ => hgoing)
    (Session.fades_stop _).begun
  -- a loop that has not begun is not enabled, and `stop` does nothing
  refine (Session.fades_stop _).begun ?_
  cases henabled : (s.sessions c).enabled with
  | true => exact hbegun henabled
  | false =>
    refine (h.aborted c ?_).2
    unfold Session.stop at ha
    rwa [henabled, if_neg Bool.false_ne_true] at ha

theorem remove (h : Accounted s) (hattached : Attached s) (c : Connection) :
    Accounted (s.remove c) := by
  have hpush := h.push (.removing c (s.sessions c).enabled) fun _ hc => absurd hc nofun
  exact hpush.stop (Or.inl ⟨_, List.mem_cons_self⟩) (hattached.begun c)

theorem of_router (h : Accounted s) {r : Router}
    (hsub : ∀ c, c ∈ r.connections → c ∈ s.router.connections) :
    Accounted { s with router := r } :=
  ⟨h.aborted, fun c ho => (h.gone c ho).imp_right fun hc => hc ∘ hsub c, h.loops⟩

theorem onMessage (h : Accounted s) (hattached : Attached s) (c : Connection)
    (header : MessageHeader) (body : Body) : Accounted (s.onMessage c header body) := by
  have hintegrate : ∀ m : RouteMessage,
      Accounted { s with router := (s.router.integrate m c).1 } := by
    intro m
    refine h.of_router fun c' hc' => ?_
    rwa [Router.integrate_connections] at hc'
  unfold Service.onMessage
  split
  · exact h
  · cases body with
    | helloMessage id =>
      simp only
      split
      · exact h.remove hattached c
      · exact h
    | routeAdvertisement ra => exact hintegrate (.advertisement ra)
    | routeRevocation rr => exact hintegrate (.revocation rr)
    | unknownMessage => exact h
    | proxyClientConnect => exact h
    | serverClaim => exact h
    | coreMessage => exact h

theorem resumed (h : Accounted s) (hattached : Attached s) (hpolls : s.polling = true)
    {c : Connection} {content : Content} {x : Session}
    {message : Option (MessageHeader × Body)}
    (done : (s.sessions c).resume content = some (x, message)) :
    Accounted (s.resumed c x message) := by
  have hset := h.move (Session.fades_resume done) (Session.resume_spec done)
  have hcase := Session.resume_cases done
  cases hcase with
  | more header read header' read' reader loop => exact hset
  | last header read reader message loop =>
    have hpush := hset.push (.loop c) fun c' hc' => by
      cases hc'
      rw [sessions_setSession, if_pos rfl]
      trivial
    have hpushed := (hattached.setSession (Session.fades_resume done)).pushLoop
      (hattached.opens_of_polling hpolls) c
    cases message with
    | none => exact hpush
    | some m => exact hpush.onMessage hpushed c m.1 m.2

theorem proceed (h : Accounted s) {c : Connection} {rest : List Frame}
    (top : s.stack = .loop c :: rest) : Accounted (s.proceed c rest) := by
  have hbegun : (s.sessions c).loop.Begun := h.loops c (by rw [top]; exact List.mem_cons_self)
  have htest := Session.test_spec hbegun fun ha => (h.aborted c ha).1
  unfold Service.proceed
  dsimp only
  split
  · rename_i hleaving
    have hset := h.setSession (c := c) (x := { s.sessions c with loop := .ended })
      (fun ha => ⟨(h.aborted c (Or.inr (ha.resolve_left not_false))).1, trivial⟩)
      (fun _ => h.gone c ⟨hbegun, Or.inr (Or.inl hleaving)⟩) fun _ => trivial
    exact hset.popLoop top
  · split
    · -- the loop is leaving, so its connection has to be going before it is set
      have hpush := h.push (.removing c ((s.setSession c (s.sessions c).test.1).sessions c).enabled)
        fun _ hc => absurd hc nofun
      have hset := hpush.setSession (c := c) (x := (s.sessions c).test.1)
        (fun ha => ?_) (fun _ => Or.inl ⟨_, List.mem_cons_self⟩) (Session.fades_test _).begun
      · refine hset.stop (Or.inl ⟨_, List.mem_cons_self⟩) fun _ => ?_
        rw [sessions_setSession, if_pos rfl]
        exact (Session.fades_test _).begun hbegun
      · exact ⟨(Session.fades_test _).disabled (h.aborted c (htest.1 ha)).1,
          (Session.fades_test _).begun hbegun⟩
    · rename_i hnot
      have hset := h.move (Session.fades_test _)
        ⟨htest.1, fun ho => (htest.2 ho).resolve_right hnot⟩
      exact hset.popLoop top

theorem add (h : Accounted s) {c : Connection} (habsent : (s.sessions c).loop = .absent) :
    Accounted (s.add c) := by
  have hnot : ¬(s.sessions c).loop.Begun := by
    rw [habsent]
    exact not_false
  unfold Service.add
  split
  · exact h
  · rename_i hkey
    have hadded : Accounted (({ s with router := (s.router.add c).1 } : Service).setSession c
        { s.sessions c with loop := .spawned }) := by
      refine of_setSession (fun c' hne => ⟨h.aborted c', fun ho => ?_⟩) (fun c' _ => h.loops c')
        (fun ha => absurd (h.aborted c (Or.inr (ha.resolve_left not_false))).2 hnot)
        (fun ho => absurd ho.1 not_false) fun hf => absurd (h.loops c hf) hnot
      refine (h.gone c' ho).imp_right fun hold hnew => ?_
      rw [Router.add_of_fresh hkey] at hnew
      exact ((UniqueIndex.mem_insert hkey).mp hnew).elim hne hold
    exact hadded

theorem finish (h : Accounted s) {c : Connection} {polls : Bool} {rest : List Frame}
    (top : s.stack = .removing c polls :: rest) (dead : List RouteTableEntry) :
    Accounted { s with router := (s.router.remove c dead).1, stack := rest } := by
  refine ⟨h.aborted, fun c' ho => ?_, fun c' hc => ?_⟩
  · by_cases hc : c' = c
    · exact Or.inr fun hmem => (Router.mem_remove_connections.mp hmem).2 hc
    · rcases h.gone c' ho with ⟨polls', hmem⟩ | hnot
      · rw [top] at hmem
        have hne : Frame.removing c' polls' ≠ .removing c polls := fun heq => hc (by cases heq; rfl)
        exact Or.inl ⟨polls', List.mem_of_ne_of_mem hne hmem⟩
      · exact Or.inr fun hmem => hnot (Router.mem_remove_connections.mp hmem).1
  · refine h.loops c' ?_
    rw [top]
    exact List.mem_cons_of_mem _ hc

theorem step (h : Accounted s) (hattached : Attached s) {ev : Event} (hok : ReadsInTime s ev)
    (hstep : s.step ev = some s') : Accounted s' := by
  cases step_cases hstep with
  | add c polls absent => exact h.add absent
  | remove c polls added => exact h.remove hattached c
  | begin c polls spawned =>
    have hspec := Session.begin_spec (s.sessions c)
    refine h.setSession (fun ha => ?_) (fun ho => absurd ho hspec.2) fun _ => trivial
    have hbegun := (h.aborted c (hspec.1 ha)).2
    rw [spawned] at hbegun
    exact absurd hbegun not_false
  | transfer c ec bytes x done =>
    exact h.move (Session.fades_transfer done) (Session.transfer_spec done)
  | resume c content polls x message done => exact h.resumed hattached polls done
  | expire c x done => exact h.move (Session.fades_expire done) (Session.expire_spec done)
  | timeout c polls x done =>
    have hspec := Session.timeout_spec done hok
    have hfades := Session.fades_timeout done
    refine h.setSession (fun ha => ?_) (fun ho => h.gone c (hspec.2 ho)) hfades.begun
    rcases hspec.1 ha with ha | hdone
    · obtain ⟨hdisabled, hbegun⟩ := h.aborted c ha
      exact ⟨hfades.disabled hdisabled, hfades.begun hbegun⟩
    · exact hdone
  | proceed c rest top => exact h.proceed top
  | finish dead c polls rest top perm => exact h.finish top dead

end Accounted

/-- No timer runs out on the read of an enabled loop, and no `stop` leaves a loop reading. -/
def Prompt (s : Service) (ev : Event) : Prop := ReadsInTime s ev ∧ StopsReading s ev

instance (s : Service) (ev : Event) : Decidable (Prompt s ev) :=
  inferInstanceAs (Decidable (ReadsInTime s ev ∧ StopsReading s ev))

theorem Run.attached_of_prompt {id : UInt32} (h : Run Prompt (start id) s) : Attached s :=
  Run.attached (h.mono fun _ _ hok => hok.2)

theorem Run.accounted {id : UInt32} (h : Run Prompt (start id) s) : Accounted s :=
  h.invariant (Accounted.start id) fun _ _ _ hrun haccounted hok hstep =>
    haccounted.step (Run.attached_of_prompt hrun) hok.1 hstep

/-- **No zombies**: a loop that has ended has left the router, unless `Router::remove` is in
    the middle of it. -/
theorem no_zombies {id : UInt32} (h : Run Prompt (start id) s) {c : Connection}
    (hended : (s.sessions c).loop = .ended) :
    (∃ polls, Frame.removing c polls ∈ s.stack) ∨
      (c ∉ s.router.connections ∧ ∀ e ∈ s.router.routeTable, e.connection ≠ c) := by
  have hbegun : (s.sessions c).loop.Begun := by
    rw [hended]
    trivial
  refine (h.accounted.gone c ⟨hbegun, Or.inr (Or.inr hended)⟩).imp_right fun hnot => ⟨hnot, ?_⟩
  rintro e he rfl
  exact hnot (h.attached_of_prompt.entries e he)

/-- The second connection of `oneRemoved` has left, in the middle of a message. -/
theorem no_zombies_oneRemoved :
    (∃ polls, Frame.removing ⟨2, 11, 20⟩ polls ∈ oneRemoved.stack) ∨
      (⟨2, 11, 20⟩ ∉ oneRemoved.router.connections ∧
        ∀ e ∈ oneRemoved.router.routeTable, e.connection ≠ ⟨2, 11, 20⟩) :=
  no_zombies (Run.nil.execs (by decide +kernel)) (by decide +kernel)

/-- A neighbour has sent one message and then a quarter of a header, and nothing for 3 seconds. -/
def zombie : Service :=
  execs step (start 1)
    [.add ⟨1, 10, 20⟩, .begin ⟨1, 10, 20⟩, .transfer ⟨1, 10, 20⟩ .success 16,
      .resume ⟨1, 10, 20⟩ selfAdvert, .transfer ⟨1, 10, 20⟩ .success 32,
      .resume ⟨1, 10, 20⟩ selfAdvert, .proceed, .transfer ⟨1, 10, 20⟩ .success 4,
      .resume ⟨1, 10, 20⟩ selfAdvert, .expire ⟨1, 10, 20⟩, .timeout ⟨1, 10, 20⟩,
      .resume ⟨1, 10, 20⟩ selfAdvert, .proceed]

/-- The loop has ended, nothing is under way, and the router still has the connection and
    a route on it. -/
theorem zombie_stays :
    Run (fun _ _ => True) (start 1) zombie ∧ (zombie.sessions ⟨1, 10, 20⟩).loop = .ended ∧
    zombie.stack = [] ∧ ⟨1, 10, 20⟩ ∈ zombie.router.connections ∧
    ∃ e ∈ zombie.router.routeTable, e.connection = ⟨1, 10, 20⟩ := by
  refine ⟨Run.nil.execs (allOk_of_forall (fun _ _ => trivial) _ _), by decide +kernel,
    by decide +kernel, UniqueIndex.mem_def.mpr (by decide +kernel),
    ⟨⟨2, 1, [2]⟩, ⟨1, 10, 20⟩⟩, UniqueIndex.mem_def.mpr (by decide +kernel), rfl⟩

end Service

end Synergy
