import Synergy.Service.Service
import Synergy.Router.Sends

/-!
# What `stop` leaves behind

`stop` means to end the receive loop: it clears `enabled_`, cancels the read and lets the
handlers run. A loop whose read is aborted, or whose message is complete, then finds
`enabled_` cleared and ends. But a completion that is queued already is not cancelled, and
what the loop starts after that is not cancelled either, so a loop between two reads of one
message goes on reading; the message it brings in after `Router::remove` is dispatched all
the same, and its routes refer to a connection that the router has let go.

Where no `stop` returns to a loop that still reads (`StopsReading`), only connections in
`connections_` have loops that may bring in anything (`Session.Open`), and every route is on
one of them.
-/

set_option autoImplicit false

namespace Synergy

open Lib

/-! ## One session -/

/-- In a read, or yet to begin. -/
def ReceiveLoop.Reads : ReceiveLoop → Prop
  | .spawned | .reading _ _ => True
  | _ => False

/-- The coroutine has run. -/
def ReceiveLoop.Begun : ReceiveLoop → Prop
  | .absent | .spawned => False
  | _ => True

instance : (l : ReceiveLoop) → Decidable l.Reads
  | .spawned | .reading _ _ => inferInstanceAs (Decidable True)
  | .absent | .testing | .leaving | .ended => inferInstanceAs (Decidable False)

namespace Session

/-- It may bring in another message. -/
def Open (x : Session) : Prop := x.enabled = true ∨ x.loop.Reads

/-- `y` comes after `x`, and neither has the loop begun in between nor has it been opened. -/
structure Fades (x y : Session) : Prop where
  opens : y.Open → x.Open
  enabled : y.enabled = true → x.enabled = true
  begun : x.loop.Begun → y.loop.Begun

variable {x y : Session}

theorem Fades.refl (x : Session) : Fades x x := ⟨id, id, id⟩

theorem Fades.trans {z : Session} (h : Fades x y) (h' : Fades y z) : Fades x z :=
  ⟨h.opens ∘ h'.opens, h.enabled ∘ h'.enabled, h'.begun ∘ h.begun⟩

theorem Fades.disabled (h : Fades x y) (hx : x.enabled = false) : y.enabled = false := by
  refine Bool.eq_false_iff.mpr fun hy => ?_
  rw [h.enabled hy] at hx
  exact absurd hx.symm Bool.false_ne_true

theorem open_of_reading {header : Option MessageHeader} {read : AsyncRead}
    (h : x.loop = .reading header read) : x.Open := by
  refine Or.inr ?_
  rw [h]
  trivial

theorem fades_of_reading {header : Option MessageHeader} {read : AsyncRead}
    (h : x.loop = .reading header read) (enabled : y.enabled = x.enabled) (begun : y.loop.Begun) :
    Fades x y :=
  ⟨fun _ => open_of_reading h, fun hy => enabled ▸ hy, fun _ => begun⟩

@[simp] theorem cancel_enabled (x : Session) : x.cancel.enabled = x.enabled := by
  unfold cancel
  split <;> rfl

theorem cancel_reads (x : Session) : x.cancel.loop.Reads ↔ x.loop.Reads := by
  unfold cancel
  split
  · rename_i h
    rw [h]
    exact Iff.rfl
  · rfl

theorem cancel_begun (x : Session) : x.cancel.loop.Begun ↔ x.loop.Begun := by
  unfold cancel
  split
  · rename_i h
    rw [h]
    exact Iff.rfl
  · rfl

theorem fades_cancel (x : Session) : Fades x x.cancel where
  opens h := h.imp (fun h => by rwa [cancel_enabled] at h) (cancel_reads x).mp
  enabled h := by rwa [cancel_enabled] at h
  begun := (cancel_begun x).mpr

theorem stop_enabled (x : Session) : x.stop.enabled = false := by
  unfold stop
  split
  · rw [cancel_enabled]
  · rename_i h
    exact Bool.eq_false_iff.mpr h

theorem fades_stop (x : Session) : Fades x x.stop := by
  unfold stop
  split
  · rename_i h
    have hdisabled : Fades x { x with enabled := false } := ⟨fun _ => Or.inl h, fun _ => h, id⟩
    exact hdisabled.trans (fades_cancel _)
  · exact Fades.refl x

theorem fades_transfer {ec : ErrorCode} {bytes : ℕ} (h : x.transfer ec bytes = some y) :
    Fades x y := by
  unfold transfer at h
  split at h
  · rename_i hloop
    obtain ⟨-, heq⟩ := Option.ite_none_right_eq_some.mp h
    cases heq
    exact fades_of_reading hloop rfl trivial
  · exact absurd h (by simp)

theorem fades_expire (h : x.expire = some y) : Fades x y := by
  obtain ⟨-, heq⟩ := Option.ite_none_right_eq_some.mp h
  cases heq
  exact ⟨id, id, id⟩

theorem fades_timeout (h : x.timeout = some y) : Fades x y := by
  unfold timeout at h
  split at h
  · exact absurd h (by simp)
  · rename_i due _
    have hdue : Fades x { x with
        reader := { x.reader with timer := { x.reader.timer with due := due } } } := ⟨id, id, id⟩
    cases h
    exact hdue.trans (fades_cancel _)

/-- A completion runs in a loop that is in a read, and the loop is in a read or has read
    afterwards. -/
inductive ResumeCase (x : Session) : Session → Option (MessageHeader × Body) → Prop
  | more (header : Option MessageHeader) (read : AsyncRead) (header' : Option MessageHeader)
      (read' : AsyncRead) (reader : MessageReader) (loop : x.loop = .reading header read) :
      ResumeCase x { x with reader := reader, loop := .reading header' read' } none
  | last (header : Option MessageHeader) (read : AsyncRead) (reader : MessageReader)
      (message : Option (MessageHeader × Body)) (loop : x.loop = .reading header read) :
      ResumeCase x { x with reader := reader, loop := .testing } message

theorem resume_cases {content : Content} {message : Option (MessageHeader × Body)}
    (h : x.resume content = some (y, message)) : ResumeCase x y message := by
  unfold resume at h
  split at h
  · rename_i header total ec bytes hloop
    generalize AsyncRead.advance x.reader total ec bytes = out at h
    obtain ⟨reader, result⟩ := out
    cases result with
    | none =>
      cases h
      exact .more _ _ _ _ _ hloop
    | some bytesRead =>
      cases header with
      | none =>
        simp only [headerRead] at h
        split at h
        · cases h
          exact .last _ _ _ _ hloop
        · cases h
          exact .more _ _ _ _ _ hloop
      | some header =>
        cases h
        exact .last _ _ _ _ hloop
  · exact absurd h (by simp)

theorem fades_resume {content : Content} {message : Option (MessageHeader × Body)}
    (h : x.resume content = some (y, message)) : Fades x y := by
  cases resume_cases h with
  | more _ _ _ _ _ hloop => exact fades_of_reading hloop rfl trivial
  | last _ _ _ _ hloop => exact fades_of_reading hloop rfl trivial

theorem fades_test (x : Session) : Fades x x.test.1 := by
  unfold test
  split
  · rename_i h
    refine ⟨fun hy => ?_, id, fun _ => trivial⟩
    rcases hy with hy | hy
    · exact Or.inl hy
    · exact absurd hy not_false
  · rename_i h
    have henabled : x.enabled = true := by simpa using h
    split
    · exact ⟨fun _ => Or.inl henabled, id, fun _ => trivial⟩
    · exact ⟨fun _ => Or.inl henabled, id, fun _ => trivial⟩
    · exact ⟨fun _ => Or.inl henabled, id, fun _ => trivial⟩

theorem fades_ended (x : Session) : Fades x { x with loop := .ended } :=
  ⟨fun h => h.imp_right (absurd · not_false), id, fun _ => trivial⟩

end Session

/-! ## The router and all sessions -/

/-- Handlers may have run, or may run, above this frame. -/
def Frame.opens : Frame → Bool
  | .loop _ => true
  | .removing _ polls => polls

namespace Service

variable {s s' : Service}

/-- Every route is on a connection that the router has, and so is every loop that may bring in
    another one. -/
structure Attached (s : Service) : Prop where
  entries : ∀ e ∈ s.router.routeTable, e.connection ∈ s.router.connections
  opens : ∀ c, (s.sessions c).Open → c ∈ s.router.connections
  begun : ∀ c, (s.sessions c).enabled = true → (s.sessions c).loop.Begun
  stopped : ∀ c polls, Frame.removing c polls ∈ s.stack →
    (s.sessions c).enabled = false ∧ (polls = true → (s.sessions c).loop.Begun)
  nested : ∀ f ∈ s.stack.tail, f.opens = true

/-- The connection that the topmost `Router::remove` is about. -/
def stopping (s : Service) : Option Connection :=
  match s.stack with
  | .removing c _ :: _ => some c
  | _ => none

/-- Where a `stop` has returned, the loop is in no read and is not about to begin. -/
def StopsReading (s : Service) : Event → Prop
  | .finish _ => ∀ c ∈ s.stopping, ¬(s.sessions c).loop.Reads
  | _ => True

instance (s : Service) : (ev : Event) → Decidable (StopsReading s ev)
  | .finish _ => inferInstanceAs (Decidable (∀ c ∈ s.stopping, ¬(s.sessions c).loop.Reads))
  | .add _ | .remove _ | .begin _ | .transfer _ _ _ | .resume _ _ | .expire _ | .timeout _
  | .proceed => inferInstanceAs (Decidable True)

theorem sessions_setSession (s : Service) (c : Connection) (x : Session) (c' : Connection) :
    (s.setSession c x).sessions c' = if c' = c then x else s.sessions c' :=
  Function.update_apply s.sessions c x c'

namespace Attached

theorem start (id : UInt32) : Attached (start id) where
  entries e he := absurd he (UniqueIndex.not_mem_empty e)
  opens _ h := h.elim (fun h => absurd h Bool.false_ne_true) False.elim
  begun _ h := absurd h Bool.false_ne_true
  stopped _ _ h := absurd h List.not_mem_nil
  nested _ h := absurd h List.not_mem_nil

/-- Where handlers run, or a loop is on top, no frame keeps handlers from running. -/
theorem opens_of_head (h : Attached s) (hhead : ∀ f ∈ s.stack.head?, f.opens = true) :
    ∀ f ∈ s.stack, f.opens = true := by
  intro f hf
  cases hstack : s.stack with
  | nil =>
    rw [hstack] at hf
    exact absurd hf List.not_mem_nil
  | cons g rest =>
    rw [hstack] at hf
    rcases List.mem_cons.mp hf with rfl | hf
    · exact hhead f (by rw [hstack]; rfl)
    · exact h.nested f (by rw [hstack]; exact hf)

theorem opens_of_polling (h : Attached s) (hpolls : s.polling = true) :
    ∀ f ∈ s.stack, f.opens = true := by
  refine h.opens_of_head fun f hf => ?_
  unfold polling at hpolls
  split at hpolls
  · rename_i hnil
    rw [hnil] at hf
    exact absurd hf (by simp)
  · rename_i hstack
    rw [hstack] at hf
    obtain rfl := Option.some.inj hf
    exact hpolls
  · exact absurd hpolls (by simp)

/-- A loop that has not begun is not being stopped while handlers run. -/
theorem not_removing (h : Attached s) (hpolls : s.polling = true) {c : Connection}
    (hnot : ¬(s.sessions c).loop.Begun) (polls : Bool) : Frame.removing c polls ∉ s.stack :=
  fun hmem => hnot ((h.stopped c polls hmem).2 (h.opens_of_polling hpolls _ hmem))

theorem setSession (h : Attached s) {c : Connection} {x : Session}
    (hx : Session.Fades (s.sessions c) x) : Attached (s.setSession c x) := by
  refine ⟨h.entries, fun c' ho => ?_, fun c' he => ?_, fun c' polls hf => ?_, h.nested⟩
  · rw [sessions_setSession] at ho
    split at ho
    · rename_i hc
      exact hc ▸ h.opens c (hx.opens ho)
    · exact h.opens c' ho
  · rw [sessions_setSession] at he ⊢
    split
    · rename_i hc
      rw [if_pos hc] at he
      exact hx.begun (h.begun c (hx.enabled he))
    · rename_i hc
      rw [if_neg hc] at he
      exact h.begun c' he
  · rw [sessions_setSession]
    split
    · rename_i hc
      subst hc
      obtain ⟨hdisabled, hbegun⟩ := h.stopped c' polls hf
      exact ⟨hx.disabled hdisabled, hx.begun ∘ hbegun⟩
    · exact h.stopped c' polls hf

theorem pushLoop (h : Attached s) (hopens : ∀ f ∈ s.stack, f.opens = true) (c : Connection) :
    Attached (s.push (.loop c)) := by
  refine ⟨h.entries, h.opens, h.begun, fun c' polls hf => ?_, hopens⟩
  rcases List.mem_cons.mp hf with hf | hf
  · exact absurd hf (by simp)
  · exact h.stopped c' polls hf

theorem pop (h : Attached s) {f : Frame} {rest : List Frame} (top : s.stack = f :: rest) :
    Attached { s with stack := rest } := by
  refine ⟨h.entries, h.opens, h.begun, fun c polls hf => ?_, fun g hg => ?_⟩
  · exact h.stopped c polls (by rw [top]; exact List.mem_cons_of_mem _ hf)
  · exact h.nested g (by rw [top]; exact List.mem_of_mem_tail hg)

theorem remove (h : Attached s) (hopens : ∀ f ∈ s.stack, f.opens = true) (c : Connection) :
    Attached (s.remove c) := by
  have hset := h.setSession (Session.fades_stop (s.sessions c))
  refine ⟨hset.entries, hset.opens, hset.begun, fun c' polls hf => ?_, hopens⟩
  rcases List.mem_cons.mp hf with hf | hf
  · cases hf
    show ((s.setSession c (s.sessions c).stop).sessions c).enabled = false ∧
      (_ → ((s.setSession c (s.sessions c).stop).sessions c).loop.Begun)
    rw [sessions_setSession, if_pos rfl]
    exact ⟨Session.stop_enabled _, fun henabled =>
      (Session.fades_stop _).begun (h.begun c henabled)⟩
  · exact hset.stopped c' polls hf

theorem integrate (h : Attached s) {c : Connection} (hc : c ∈ s.router.connections)
    (m : RouteMessage) : Attached { s with router := (s.router.integrate m c).1 } := by
  refine ⟨fun e he => ?_, fun c' ho => ?_, h.begun, h.stopped, h.nested⟩
  · rw [Router.integrate_connections]
    rcases Router.mem_integrate_routeTable he with he | ⟨-, rfl, -⟩
    · exact h.entries e he
    · exact hc
  · rw [Router.integrate_connections]
    exact h.opens c' ho

theorem onMessage (h : Attached s) (hopens : ∀ f ∈ s.stack, f.opens = true) {c : Connection}
    (hc : c ∈ s.router.connections) (header : MessageHeader) (body : Body) :
    Attached (s.onMessage c header body) := by
  unfold Service.onMessage
  split
  · exact h
  · cases body with
    | helloMessage id =>
      simp only
      split
      · exact h.remove hopens c
      · exact h
    | routeAdvertisement ra => exact h.integrate hc (.advertisement ra)
    | routeRevocation rr => exact h.integrate hc (.revocation rr)
    | unknownMessage => exact h
    | proxyClientConnect => exact h
    | serverClaim => exact h
    | coreMessage => exact h

theorem resumed (h : Attached s) (hpolls : s.polling = true) {c : Connection} {x : Session}
    {message : Option (MessageHeader × Body)}
    (hcase : Session.ResumeCase (s.sessions c) x message)
    (hfades : Session.Fades (s.sessions c) x) : Attached (s.resumed c x message) := by
  have hset := h.setSession hfades
  have hopens : ∀ f ∈ s.stack, f.opens = true := h.opens_of_polling hpolls
  cases hcase with
  | more header read header' read' reader loop => exact hset
  | last header read reader message loop =>
    have hpush := hset.pushLoop hopens c
    cases message with
    | none => exact hpush
    | some m =>
      refine hpush.onMessage ?_ (h.opens c (Session.open_of_reading loop)) m.1 m.2
      intro f hf
      rcases List.mem_cons.mp hf with rfl | hf
      · rfl
      · exact hopens f hf

theorem proceed (h : Attached s) {c : Connection} {rest : List Frame}
    (top : s.stack = .loop c :: rest) : Attached (s.proceed c rest) := by
  unfold Service.proceed
  dsimp only
  split
  · exact (h.setSession (Session.fades_ended _)).pop top
  · split
    · refine (h.setSession (Session.fades_test _)).remove (h.opens_of_head fun f hf => ?_) c
      rw [top] at hf
      obtain rfl := Option.some.inj hf
      rfl
    · exact (h.setSession (Session.fades_test _)).pop top

/-- A loop that is about to begin, or is to begin some time, replaces one that has not. -/
theorem setSession_of_not_begun (h : Attached s) (hpolls : s.polling = true) {c : Connection}
    (hnot : ¬(s.sessions c).loop.Begun) {x : Session} (hc : c ∈ s.router.connections)
    (hx : x.enabled = true → x.loop.Begun) : Attached (s.setSession c x) := by
  refine ⟨h.entries, fun c' ho => ?_, fun c' he => ?_, fun c' polls hf => ?_, h.nested⟩
  · rw [sessions_setSession] at ho
    split at ho
    · rename_i heq
      exact heq ▸ hc
    · exact h.opens c' ho
  · rw [sessions_setSession] at he ⊢
    split
    · rename_i heq
      rw [if_pos heq] at he
      exact hx he
    · rename_i heq
      rw [if_neg heq] at he
      exact h.begun c' he
  · have hne : c' ≠ c := by
      rintro rfl
      exact h.not_removing hpolls hnot polls hf
    rw [sessions_setSession, if_neg hne]
    exact h.stopped c' polls hf

theorem add (h : Attached s) (hpolls : s.polling = true) {c : Connection}
    (habsent : (s.sessions c).loop = .absent) : Attached (s.add c) := by
  have hnot : ¬(s.sessions c).loop.Begun := by
    rw [habsent]
    exact not_false
  unfold Service.add
  split
  · exact h
  · rename_i hkey
    have hconnections : ∀ c', c' ∈ (s.router.add c).1.connections ↔
        c' = c ∨ c' ∈ s.router.connections := by
      intro c'
      rw [Router.add_of_fresh hkey]
      exact UniqueIndex.mem_insert hkey
    have hadded : Attached { s with router := (s.router.add c).1 } := by
      refine ⟨fun e he => ?_, fun c' ho => ?_, h.begun, h.stopped, h.nested⟩
      · refine (hconnections _).mpr (Or.inr (h.entries e ?_))
        rwa [Router.add_routeTable] at he
      · exact (hconnections c').mpr (Or.inr (h.opens c' ho))
    refine hadded.setSession_of_not_begun hpolls hnot ((hconnections c).mpr (Or.inl rfl)) ?_
    intro henabled
    exact absurd (h.begun c henabled) hnot

theorem begin (h : Attached s) (hpolls : s.polling = true) {c : Connection}
    (hspawned : (s.sessions c).loop = .spawned) :
    Attached (s.setSession c (s.sessions c).begin) := by
  refine h.setSession_of_not_begun hpolls ?_ (h.opens c (Or.inr ?_)) fun _ => trivial
  · rw [hspawned]
    exact not_false
  · rw [hspawned]
    trivial

theorem finish (h : Attached s) {c : Connection} {polls : Bool} {rest : List Frame}
    (top : s.stack = .removing c polls :: rest) (hquiet : ¬(s.sessions c).loop.Reads)
    (dead : List RouteTableEntry) :
    Attached { s with router := (s.router.remove c dead).1, stack := rest } := by
  have hpop := h.pop top
  have hclosed : ¬(s.sessions c).Open := by
    have hdisabled := (h.stopped c polls (by rw [top]; exact List.mem_cons_self)).1
    rintro (ho | ho)
    · rw [hdisabled] at ho
      exact absurd ho Bool.false_ne_true
    · exact hquiet ho
  refine ⟨fun e he => ?_, fun c' ho => ?_, hpop.begun, hpop.stopped, hpop.nested⟩
  · obtain ⟨he, hne⟩ := Router.mem_remove_routeTable.mp he
    exact Router.mem_remove_connections.mpr
      ⟨h.entries e he, fun heq => hne (congrArg Connection.id heq)⟩
  · refine Router.mem_remove_connections.mpr ⟨h.opens c' ho, ?_⟩
    rintro rfl
    exact hclosed ho

theorem step (h : Attached s) {ev : Event} (hok : StopsReading s ev)
    (hstep : s.step ev = some s') : Attached s' := by
  cases step_cases hstep with
  | add c polls absent => exact h.add polls absent
  | remove c polls added => exact h.remove (h.opens_of_polling polls) c
  | begin c polls spawned => exact h.begin polls spawned
  | transfer c ec bytes x done => exact h.setSession (Session.fades_transfer done)
  | resume c content polls x message done =>
    exact h.resumed polls (Session.resume_cases done) (Session.fades_resume done)
  | expire c x done => exact h.setSession (Session.fades_expire done)
  | timeout c polls x done => exact h.setSession (Session.fades_timeout done)
  | proceed c rest top => exact h.proceed top
  | finish dead c polls rest top perm =>
    exact h.finish top (hok c (by unfold stopping; rw [top]; rfl)) dead

end Attached

theorem Run.attached {id : UInt32} (h : Run StopsReading (start id) s) : Attached s :=
  h.invariant (Attached.start id) fun _ _ _ _ hattached hok hstep => hattached.step hok hstep

/-- **No route outlives its connection**, where no `stop` leaves a loop reading. -/
theorem routes_attached {id : UInt32} (h : Run StopsReading (start id) s) :
    ∀ e ∈ s.router.routeTable, e.connection ∈ s.router.connections :=
  h.attached.entries

/-- What a neighbour with the id 2 says of itself. -/
def selfAdvert : Content where
  header := { type := 2, size := 32, dest := 0xFFFFFFFF }
  body := some (.routeAdvertisement
    { sender := 2, routes := [{ dest := 2, cost := 0, path := [] }] })

/-- A connection has brought in a route, and another one is removed in the middle of a read. -/
def oneRemoved : Service :=
  execs step (start 1)
    [.add ⟨1, 10, 20⟩, .begin ⟨1, 10, 20⟩, .transfer ⟨1, 10, 20⟩ .success 16,
      .resume ⟨1, 10, 20⟩ selfAdvert, .transfer ⟨1, 10, 20⟩ .success 32,
      .resume ⟨1, 10, 20⟩ selfAdvert, .proceed, .add ⟨2, 11, 20⟩, .begin ⟨2, 11, 20⟩,
      .transfer ⟨2, 11, 20⟩ .success 4, .resume ⟨2, 11, 20⟩ selfAdvert, .remove ⟨2, 11, 20⟩,
      .resume ⟨2, 11, 20⟩ selfAdvert, .proceed, .finish []]

theorem routes_attached_oneRemoved :
    oneRemoved.router.routeTable.toList.length = 1 ∧
      ∀ e ∈ oneRemoved.router.routeTable, e.connection ∈ oneRemoved.router.connections :=
  ⟨by decide +kernel, routes_attached (Run.nil.execs (by decide +kernel))⟩

/-- The header of a message has come in when its connection is removed, and the body comes in
    later. -/
def lateRoute : Service :=
  execs step (start 1)
    [.add ⟨1, 10, 20⟩, .begin ⟨1, 10, 20⟩, .transfer ⟨1, 10, 20⟩ .success 16,
      .remove ⟨1, 10, 20⟩, .resume ⟨1, 10, 20⟩ selfAdvert, .finish [],
      .transfer ⟨1, 10, 20⟩ .success 32, .resume ⟨1, 10, 20⟩ selfAdvert]

/-- The router has no connections and a route on one. -/
theorem route_outlives_connection :
    Run (fun _ _ => True) (start 1) lateRoute ∧
    ∃ e ∈ lateRoute.router.routeTable, e.connection ∉ lateRoute.router.connections := by
  refine ⟨Run.nil.execs (allOk_of_forall (fun _ _ => trivial) _ _), ⟨⟨2, 1, [2]⟩, ⟨1, 10, 20⟩⟩,
    UniqueIndex.mem_def.mpr (by decide +kernel), fun hmem => ?_⟩
  have hnone : lateRoute.router.connections.toList = [] := by decide +kernel
  rw [UniqueIndex.mem_def, hnone] at hmem
  exact absurd hmem List.not_mem_nil

end Service

end Synergy
