import Synergy.Service.Removal

/-!
# Starting and stopping a router

`Router::start`, `Router::shutdown` and `Router::add_peer`, over the receive loops of `Service`.
The accept thread and the connect threads are coroutines: a `Coroutine` says what one of them is
suspended in, and whatever that is completes some time, with any result. `running_` is tested
where a coroutine begins, before each attempt to connect and after each `async_accept`, and not
after `async_connect` or after a handshake; so a handshake that is under way when the router is
stopped may yet call `Router::add`.

`shutdown` runs the handlers that are ready, copies `connections_`, and removes what it has
copied; every `Router::remove` may run handlers again. It is called by a handler, as `start` and
`add_peer` are, and handlers run within `stop` too, so a call of `shutdown` is a place in the
stack of `Service` (`Call`). What is beneath it waits.

The hello thread reads `connections_` and changes nothing, so it is left out.
-/

set_option autoImplicit false

namespace Synergy

open Lib

namespace Lifecycle

def kConnectRetryLimit : ℕ := 10

/-- What a connect thread or an accept thread is suspended in. -/
inductive Coroutine
  /-- A connect thread that has not run yet. -/
  | dialling (peer : Address) (immediate : Bool)
  /-- In the wait before an attempt to connect. -/
  | waiting (peer : Address) (attempt : ℕ)
  /-- In `async_connect`. -/
  | connecting (peer : Address) (attempt : ℕ)
  /-- In the handshake of a connection that has been made. -/
  | connected (c : Connection)
  /-- An accept thread that has not run yet. -/
  | listening
  /-- In `async_accept`. -/
  | accepting
  /-- In the handshake of a connection that has been accepted. -/
  | accepted (c : Connection)
deriving DecidableEq

/-- What a coroutine does when it is resumed. Where nothing is `next`, it ends. -/
inductive Outcome
  | goesOn (next : Option Coroutine)
  /-- It calls `Router::add` before it goes on. -/
  | adds (c : Connection) (next : Option Coroutine)
  /-- It throws, and so does the thread that runs everything. -/
  | throws

namespace Coroutine

/-- The connection whose handshake it is in. -/
def shaking : Coroutine → Option Connection
  | .connected c | .accepted c => some c
  | _ => none

/-- The head of the loop over the attempts. -/
def attempt (running : Bool) (peer : Address) (n : ℕ) : Option Coroutine :=
  if n ≤ kConnectRetryLimit ∧ running then some (.connecting peer n) else none

/-- The head of the accept loop. -/
def listen (running : Bool) : Option Coroutine := if running then some .accepting else none

/-- The operation has completed. `made` is the `Connection` around the socket, where one has been
    connected. -/
def resume (r : Router) (ec : ErrorCode) (made : Connection) : Coroutine → Outcome
  | .dialling peer immediate =>
    if !r.running then .goesOn none
    else if immediate then .goesOn (attempt r.running peer 1)
    else .goesOn (some (.waiting peer 1))
  | .waiting peer n => .goesOn (attempt r.running peer n)
  | .connecting peer n =>
    match ec with
    -- the timer of the attempt has cancelled it
    | .operationAborted => .goesOn (attempt r.running peer (n + 1))
    | .failure _ => .goesOn (some (.waiting peer (n + 1)))
    | .success =>
      if r.connections.hasKey made.key then .goesOn none else .goesOn (some (.connected made))
  | .connected c => if ec = .success then .adds c none else .goesOn none
  | .listening => .goesOn (listen r.running)
  | .accepting =>
    if !r.running || ec = .operationAborted then .goesOn none
    else if ec ≠ .success then .throws
    else if r.connections.hasKey made.key then .goesOn (listen r.running)
    else .goesOn (some (.accepted made))
  | .accepted c =>
    if ec = .success then .adds c (listen r.running) else .goesOn (listen r.running)

end Coroutine

/-- A call of `shutdown` that has not returned. -/
structure Call where
  /-- How many frames are beneath it. -/
  depth : ℕ
  /-- What it has copied and not yet removed. While it polls there is no copy. -/
  left : Option (List Connection)

end Lifecycle

structure Lifecycle where
  service : Service
  coroutines : List Lifecycle.Coroutine
  /-- Innermost first. -/
  calls : List Lifecycle.Call
  /-- A call of `shutdown` has returned, and `start` has not been called since. -/
  down : Bool

inductive Lifecycle.Event
  | start (id : UInt32)
  | shutdown
  | addPeer (peer : Address) (immediate : Bool)
  /-- What the `i`th coroutine is suspended in completes. -/
  | resume (i : ℕ) (ec : ErrorCode) (made : Connection)
  /-- The topmost function is `shutdown`, and it goes on. -/
  | proceed
  | service (ev : Service.Event)

namespace Lifecycle

/-- The router has been constructed. -/
def initial : Lifecycle where
  service := { router := .initial 0 false .empty, sessions := fun _ => .initial, stack := [] }
  coroutines := []
  calls := []
  down := false

/-- `shutdown` is between two calls of `Router::remove`, or about to return. -/
def removing (s : Lifecycle) : Bool :=
  match s.calls with
  | ⟨depth, some _⟩ :: _ => depth = s.service.stack.length
  | _ => false

/-- Handlers run. -/
def polling (s : Lifecycle) : Bool := s.service.polling && !s.removing

def spawn (s : Lifecycle) (co : Coroutine) : Lifecycle :=
  { s with coroutines := s.coroutines ++ [co] }

def start (s : Lifecycle) (id : UInt32) : Lifecycle :=
  let s := { s with down := false }
  if s.service.router.running then s
  else
    let router := { s.service.router with id := id, running := true }
    { s with service := { s.service with router := router } }.spawn .listening

/-- `shutdown`, as far as its `poll`. What it cancels completes, as everything does. -/
def shutdown (s : Lifecycle) : Lifecycle :=
  let router := { s.service.router with running := false }
  { s with
    service := { s.service with router := router }
    calls := ⟨s.service.stack.length, none⟩ :: s.calls }

/-- `shutdown` goes on, topmost but for `rest`, after its `poll` or a `Router::remove`. -/
def proceed (s : Lifecycle) (call : Call) (rest : List Call) : Lifecycle :=
  match call.left with
  | none =>
    { s with calls := { call with left := some s.service.router.connections.toList } :: rest }
  | some (c :: left) =>
    { s with service := s.service.remove c, calls := { call with left := some left } :: rest }
  | some [] => { s with calls := rest, down := true }

def addPeer (s : Lifecycle) (peer : Address) (immediate : Bool) : Lifecycle :=
  if s.service.router.connections.toList.any fun c => c.remoteIp = peer then s
  else s.spawn (.dialling peer immediate)

/-- A new `Connection` object, that nothing refers to yet. -/
def fresh (s : Lifecycle) (c : Connection) : Bool :=
  (s.service.sessions c).loop = .absent && s.coroutines.all fun co => co.shaking ≠ some c

/-- Where the operation has connected a socket, `made` may be the connection around it. -/
def admits (s : Lifecycle) (co : Coroutine) (ec : ErrorCode) (made : Connection) : Bool :=
  match co, ec with
  | .connecting peer _, .success => made.remoteIp = peer && s.fresh made
  | .accepting, .success => s.fresh made
  | _, _ => true

/-- The `i`th coroutine has been resumed. -/
def settle (s : Lifecycle) (i : ℕ) (next : Option Coroutine) : Lifecycle :=
  { s with coroutines := s.coroutines.eraseIdx i ++ next.toList }

def resumed (s : Lifecycle) (i : ℕ) : Outcome → Option Lifecycle
  | .goesOn next => some (s.settle i next)
  | .adds c next =>
    (s.service.step (.add c)).map fun service => { s with service := service }.settle i next
  | .throws => none

/-- What the receive loops may do: not add a connection, not run where no handlers do, and not
    return to what is beneath a call of `shutdown`. -/
def allows (s : Lifecycle) : Service.Event → Bool
  | .add _ => false
  | .remove _ | .begin _ | .resume _ _ | .timeout _ => s.polling
  | .transfer _ _ _ | .expire _ => true
  | .proceed | .finish _ => s.calls.all fun call => call.depth < s.service.stack.length

/-- The peer that the topmost receive loop, in `on_disconnect`, has lost. -/
def lost (s : Service) : Option Address :=
  match s.stack with
  | .loop c :: _ => if (s.sessions c).loop = .leaving then some c.remoteIp else none
  | _ => none

/-- The receive loops have gone on. After `Router::remove`, the handler of `on_disconnect` calls
    `add_peer`. -/
def served (s : Lifecycle) (ev : Service.Event) (service : Service) : Lifecycle :=
  match ev with
  | .proceed =>
    match lost s.service with
    | some peer => { s with service := service }.addPeer peer false
    | none => { s with service := service }
  | _ => { s with service := service }

def step (s : Lifecycle) : Event → Option Lifecycle
  | .start id => if s.polling then some (s.start id) else none
  | .shutdown => if s.polling then some s.shutdown else none
  | .addPeer peer immediate => if s.polling then some (s.addPeer peer immediate) else none
  | .resume i ec made =>
    match s.coroutines[i]? with
    | some co =>
      if s.polling ∧ s.admits co ec made then s.resumed i (co.resume s.service.router ec made)
      else none
    | none => none
  | .proceed =>
    match s.calls with
    | call :: rest =>
      if call.depth = s.service.stack.length then some (s.proceed call rest) else none
    | [] => none
  | .service ev => if s.allows ev then (s.service.step ev).map (s.served ev) else none

abbrev Run (ok : Lifecycle → Event → Prop) : Lifecycle → Prop := Lib.Run step ok initial

/-- What happened, when something did. -/
inductive StepCase (s : Lifecycle) : Event → Lifecycle → Prop
  | start (id : UInt32) (polls : s.polling) : StepCase s (.start id) (s.start id)
  | shutdown (polls : s.polling) : StepCase s .shutdown s.shutdown
  | addPeer (peer : Address) (immediate : Bool) (polls : s.polling) :
      StepCase s (.addPeer peer immediate) (s.addPeer peer immediate)
  | resume (i : ℕ) (ec : ErrorCode) (made : Connection) (co : Coroutine) (s' : Lifecycle)
      (found : s.coroutines[i]? = some co) (admitted : s.polling ∧ s.admits co ec made)
      (done : s.resumed i (co.resume s.service.router ec made) = some s') :
      StepCase s (.resume i ec made) s'
  | proceed (call : Call) (rest : List Call) (top : s.calls = call :: rest)
      (depth : call.depth = s.service.stack.length) : StepCase s .proceed (s.proceed call rest)
  | service (ev : Service.Event) (service : Service) (allowed : s.allows ev)
      (done : s.service.step ev = some service) : StepCase s (.service ev) (s.served ev service)

theorem step_cases {s s' : Lifecycle} {ev : Event} (h : s.step ev = some s') :
    StepCase s ev s' := by
  cases ev with
  | start id =>
    obtain ⟨hpolls, heq⟩ := Option.ite_none_right_eq_some.mp h
    cases heq
    exact .start id hpolls
  | shutdown =>
    obtain ⟨hpolls, heq⟩ := Option.ite_none_right_eq_some.mp h
    cases heq
    exact .shutdown hpolls
  | addPeer peer immediate =>
    obtain ⟨hpolls, heq⟩ := Option.ite_none_right_eq_some.mp h
    cases heq
    exact .addPeer peer immediate hpolls
  | resume i ec made =>
    simp only [step] at h
    split at h
    · rename_i co hco
      obtain ⟨hadmitted, hdone⟩ := Option.ite_none_right_eq_some.mp h
      exact .resume i ec made co s' hco hadmitted hdone
    · exact absurd h nofun
  | proceed =>
    simp only [step] at h
    split at h
    · rename_i call rest htop
      obtain ⟨hdepth, heq⟩ := Option.ite_none_right_eq_some.mp h
      cases heq
      exact .proceed call rest htop hdepth
    · exact absurd h nofun
  | service ev =>
    obtain ⟨hallowed, hdone⟩ := Option.ite_none_right_eq_some.mp h
    obtain ⟨service, hservice, rfl⟩ := Option.map_eq_some_iff.mp hdone
    exact .service ev service hallowed hservice

end Lifecycle

/-! ## What a receive loop does to the stack -/

namespace Service

variable {s s' : Service}

/-- The innermost frames, all but `depth`. -/
def above (s : Service) (depth : ℕ) : List Frame := s.stack.take (s.stack.length - depth)

/-- The outermost frames, `depth` of them. -/
def beneath (s : Service) (depth : ℕ) : List Frame := s.stack.drop (s.stack.length - depth)

/-- Functions are called, and the router keeps its connections. -/
structure Grows (s s' : Service) : Prop where
  running : s'.router.running = s.router.running
  connections : s'.router.connections = s.router.connections
  stack : s.stack <:+ s'.stack

/-- No connection is added, and no function returns but the topmost, if it is not one of the
    outermost `depth`. -/
inductive Change (depth : ℕ) (s s' : Service) : Prop
  | grows (grows : Grows s s')
  | returns (f : Frame) (rest : List Frame) (top : s.stack = f :: rest)
      (within : depth < s.stack.length) (stack : s'.stack = rest)
      (running : s'.router.running = s.router.running)
      (subset : ∀ c ∈ s'.router.connections, c ∈ s.router.connections)
      (removed : ∀ c polls, f = .removing c polls → c ∉ s'.router.connections)

variable {depth : ℕ}

namespace Grows

theorem refl (s : Service) : Grows s s := ⟨rfl, rfl, List.suffix_rfl⟩

theorem trans {t : Service} (h : Grows s s') (h' : Grows s' t) : Grows s t :=
  ⟨h'.running.trans h.running, h'.connections.trans h.connections, h.stack.trans h'.stack⟩

theorem setSession (s : Service) (c : Connection) (x : Session) : Grows s (s.setSession c x) :=
  ⟨rfl, rfl, List.suffix_rfl⟩

theorem push (s : Service) (f : Frame) : Grows s (s.push f) := ⟨rfl, rfl, List.suffix_cons _ _⟩

theorem remove (s : Service) (c : Connection) : Grows s (s.remove c) :=
  (setSession s c _).trans (push _ _)

theorem integrate (s : Service) (c : Connection) (m : RouteMessage) :
    Grows s { s with router := (s.router.integrate m c).1 } :=
  ⟨Router.integrate_running s.router m c, Router.integrate_connections s.router m c,
    List.suffix_rfl⟩

theorem onMessage (s : Service) (c : Connection) (header : MessageHeader) (body : Body) :
    Grows s (s.onMessage c header body) := by
  unfold Service.onMessage
  split
  · exact .refl s
  · cases body with
    | helloMessage id =>
      simp only
      split
      · exact .remove s c
      · exact .refl s
    | routeAdvertisement ra => exact .integrate s c (.advertisement ra)
    | routeRevocation rr => exact .integrate s c (.revocation rr)
    | unknownMessage => exact .refl s
    | proxyClientConnect => exact .refl s
    | serverClaim => exact .refl s
    | coreMessage => exact .refl s

theorem resumed (s : Service) (c : Connection) (x : Session)
    (message : Option (MessageHeader × Body)) : Grows s (s.resumed c x message) := by
  have hset := setSession s c x
  have hpush : Grows s
      (if x.loop = .testing then (s.setSession c x).push (.loop c) else s.setSession c x) := by
    split
    · exact hset.trans (push _ _)
    · exact hset
  cases message with
  | none => exact hpush
  | some m => exact hpush.trans (onMessage _ c m.1 m.2)

end Grows

theorem Change.proceed {c : Connection} {rest : List Frame} (top : s.stack = .loop c :: rest)
    (hwithin : depth < s.stack.length) : Change depth s (s.proceed c rest) := by
  unfold Service.proceed
  dsimp only
  split
  · exact .returns _ rest top hwithin rfl rfl (fun _ h => h) nofun
  · split
    · exact .grows ((Grows.setSession s c _).trans (.remove _ c))
    · exact .returns _ rest top hwithin rfl rfl (fun _ h => h) nofun

theorem Change.finish {c : Connection} {polls : Bool} {rest : List Frame}
    (top : s.stack = .removing c polls :: rest) (hwithin : depth < s.stack.length)
    (dead : List RouteTableEntry) :
    Change depth s { s with router := (s.router.remove c dead).1, stack := rest } := by
  refine .returns _ rest top hwithin rfl rfl
    (fun c' h => (Router.mem_remove_connections.mp h).1) ?_
  rintro c' polls' hframe hmem
  cases hframe
  exact (Router.mem_remove_connections.mp hmem).2 rfl

/-- A function may return. -/
def Event.Returns : Event → Prop
  | .proceed | .finish _ => True
  | _ => False

theorem change_of_step {ev : Event} (h : s.step ev = some s') (hadd : ∀ c, ev ≠ .add c)
    (hwithin : ev.Returns → depth < s.stack.length) : Change depth s s' := by
  cases step_cases h with
  | add c polls absent => exact absurd rfl (hadd c)
  | remove c polls added => exact .grows (.remove s c)
  | begin c polls spawned => exact .grows (.setSession s c _)
  | transfer c ec bytes x done => exact .grows (.setSession s c x)
  | resume c content polls x message done => exact .grows (.resumed s c x message)
  | expire c x done => exact .grows (.setSession s c x)
  | timeout c polls x done => exact .grows (.setSession s c x)
  | proceed c rest top => exact .proceed top (hwithin trivial)
  | finish dead c polls rest top perm => exact .finish top (hwithin trivial) dead

namespace Change

theorem subset (h : Change depth s s') : ∀ c ∈ s'.router.connections, c ∈ s.router.connections := by
  cases h with
  | grows grows =>
    intro c hc
    rwa [grows.connections] at hc
  | returns f rest top within stack running subset removed => exact subset

theorem running (h : Change depth s s') : s'.router.running = s.router.running := by
  cases h with
  | grows grows => exact grows.running
  | returns f rest top within stack running subset removed => exact running

theorem depth_le (h : Change depth s s') (hdepth : depth ≤ s.stack.length) :
    depth ≤ s'.stack.length := by
  cases h with
  | grows grows => exact hdepth.trans grows.stack.length_le
  | returns f rest top within stack running subset removed =>
    rw [top, List.length_cons] at within
    rw [stack]
    exact Nat.le_of_lt_succ within

theorem length_cons_sub {f : Frame} {rest : List Frame} (hwithin : depth < (f :: rest).length) :
    (f :: rest).length - depth = rest.length - depth + 1 := by
  rw [List.length_cons] at hwithin ⊢
  omega

theorem beneath_eq (h : Change depth s s') (hdepth : depth ≤ s.stack.length) :
    s'.beneath depth = s.beneath depth := by
  unfold Service.beneath
  cases h with
  | grows grows =>
    obtain ⟨new, hstack⟩ := grows.stack
    have hlength : s'.stack.length - depth = new.length + (s.stack.length - depth) := by
      rw [← hstack, List.length_append]
      omega
    rw [hlength, ← hstack, List.drop_append, List.drop_of_length_le (Nat.le_add_right _ _)]
    simp
  | returns f rest top within stack running subset removed =>
    rw [top] at within
    rw [stack, top, length_cons_sub within, List.drop_succ_cons]

theorem above_of_grows (h : s.stack <:+ s'.stack) : ∀ f ∈ s.above depth, f ∈ s'.above depth := by
  obtain ⟨new, hstack⟩ := h
  intro f hf
  unfold Service.above at hf ⊢
  rw [← hstack, List.take_append, List.mem_append]
  right
  have hlength : (new ++ s.stack).length - depth - new.length = s.stack.length - depth := by
    rw [List.length_append]
    omega
  rwa [hlength]

end Change

/-- Only `add` adds a connection. -/
theorem change_of_step_zero {ev : Event} (h : s.step ev = some s') (hadd : ∀ c, ev ≠ .add c) :
    Change 0 s s' := by
  refine change_of_step h hadd fun hreturns => ?_
  cases step_cases h with
  | proceed c rest top => rw [top]; exact Nat.succ_pos _
  | finish dead c polls rest top perm => rw [top]; exact Nat.succ_pos _
  | _ => exact absurd hreturns not_false

/-- Every connection is in `left`, or is being removed by one of the frames but `depth`. -/
def LeftTo (s : Service) (depth : ℕ) (left : List Connection) : Prop :=
  ∀ c ∈ s.router.connections, c ∈ left ∨ ∃ polls, Frame.removing c polls ∈ s.above depth

theorem LeftTo.change {left : List Connection} (h : LeftTo s depth left)
    (hchange : Change depth s s') : LeftTo s' depth left := by
  intro c hc
  rcases h c (hchange.subset c hc) with hleft | ⟨polls, hmem⟩
  · exact Or.inl hleft
  · refine Or.inr ⟨polls, ?_⟩
    cases hchange with
    | grows grows => exact Change.above_of_grows grows.stack _ hmem
    | returns f rest top within stack running subset removed =>
      rw [top] at within
      unfold Service.above at hmem ⊢
      rw [top, Change.length_cons_sub within, List.take_succ_cons] at hmem
      rw [stack]
      rcases List.mem_cons.mp hmem with hf | hmem
      · exact absurd hc (removed c polls hf.symm)
      · exact hmem

/-- The next one is being removed. -/
theorem LeftTo.remove {c : Connection} {left : List Connection}
    (h : LeftTo s s.stack.length (c :: left)) :
    LeftTo (s.remove c) s.stack.length left := by
  intro c' hc
  have habove : Frame.removing c (s.sessions c).enabled ∈ (s.remove c).above s.stack.length := by
    show _ ∈ List.take (s.stack.length + 1 - s.stack.length) _
    rw [Nat.add_sub_cancel_left]
    exact List.mem_cons_self
  rcases h c' hc with hleft | ⟨polls, hmem⟩
  · rcases List.mem_cons.mp hleft with rfl | hleft
    · exact Or.inr ⟨_, habove⟩
    · exact Or.inl hleft
  · unfold Service.above at hmem
    rw [Nat.sub_self] at hmem
    exact absurd hmem List.not_mem_nil

theorem LeftTo.none_left (h : LeftTo s s.stack.length []) : ∀ c, c ∉ s.router.connections := by
  intro c hc
  rcases h c hc with hleft | ⟨polls, hmem⟩
  · exact absurd hleft List.not_mem_nil
  · unfold Service.above at hmem
    rw [Nat.sub_self] at hmem
    exact absurd hmem List.not_mem_nil

end Service

/-! ## A router that is shut down -/

namespace Lifecycle

variable {s s' : Lifecycle}

/-- What is added now is removed by the call of `shutdown` that is under way, or there is none,
    and there has been none since the last `start`. -/
def accepts (s : Lifecycle) : Bool :=
  !s.down && match s.calls with
    | ⟨_, some _⟩ :: _ => false
    | _ => true

/-- Between the moment `shutdown` has copied `connections_` and the next `start`, no handshake
    succeeds, unless its connection is a duplicate; and no `stop` leaves a loop reading. -/
def Timely (s : Lifecycle) : Event → Prop
  | .resume i ec _ => ec = .success → s.accepts = false → ∀ co ∈ s.coroutines[i]?,
      ∀ c ∈ co.shaking, s.service.router.connections.hasKey c.key = true
  | .service ev => s.service.StopsReading ev
  | _ => True

instance (s : Lifecycle) : (ev : Event) → Decidable (Timely s ev)
  | .resume i ec _ => inferInstanceAs (Decidable (ec = .success → s.accepts = false →
      ∀ co ∈ s.coroutines[i]?, ∀ c ∈ co.shaking,
        s.service.router.connections.hasKey c.key = true))
  | .service ev => inferInstanceAs (Decidable (s.service.StopsReading ev))
  | .start _ | .shutdown | .addPeer _ _ | .proceed => inferInstanceAs (Decidable True)

/-- A router that is down has no connections, and a call of `shutdown` knows of all there are. -/
structure Emptied (s : Lifecycle) : Prop where
  attached : s.service.Attached
  down : s.down = true → ∀ c, c ∉ s.service.router.connections
  depth : ∀ call ∈ s.calls, call.depth ≤ s.service.stack.length
  opens : ∀ call ∈ s.calls, ∀ f ∈ s.service.beneath call.depth, f.opens = true
  left : ∀ call ∈ s.calls.head?, ∀ left ∈ call.left, s.service.LeftTo call.depth left

namespace Emptied

theorem initial : Emptied initial where
  attached := ⟨fun e he => absurd he (UniqueIndex.not_mem_empty e),
    fun _ h => h.elim (fun h => absurd h Bool.false_ne_true) False.elim,
    fun _ h => absurd h Bool.false_ne_true, fun _ _ h => absurd h List.not_mem_nil,
    fun _ h => absurd h List.not_mem_nil⟩
  down h := absurd h Bool.false_ne_true
  depth _ h := absurd h List.not_mem_nil
  opens _ h := absurd h List.not_mem_nil
  left _ h := absurd h nofun

theorem service_polling (hpolls : s.polling = true) : s.service.polling = true :=
  (Bool.and_eq_true _ _ ▸ hpolls).1

theorem start (h : Emptied s) (id : UInt32) : Emptied (s.start id) := by
  have hup : Emptied { s with down := false } :=
    ⟨h.attached, nofun, h.depth, h.opens, h.left⟩
  unfold Lifecycle.start
  dsimp only
  split
  · exact hup
  · have hattached := h.attached
    exact ⟨⟨hattached.entries, hattached.opens, hattached.begun, hattached.stopped,
      hattached.nested⟩, nofun, h.depth, h.opens, h.left⟩

theorem shutdown (h : Emptied s) (hpolls : s.polling = true) : Emptied s.shutdown := by
  have hattached := h.attached
  refine ⟨⟨hattached.entries, hattached.opens, hattached.begun, hattached.stopped,
    hattached.nested⟩, h.down, ?_, ?_, ?_⟩
  · intro call hcall
    rcases List.mem_cons.mp hcall with rfl | hcall
    · exact le_rfl
    · exact h.depth call hcall
  · intro call hcall
    rcases List.mem_cons.mp hcall with rfl | hcall
    · show ∀ f ∈ s.service.stack.drop (s.service.stack.length - s.service.stack.length), _
      rw [Nat.sub_self, List.drop_zero]
      exact hattached.opens_of_polling (service_polling hpolls)
    · exact h.opens call hcall
  · intro call hcall left hleft
    obtain rfl := Option.some.inj hcall
    exact absurd hleft nofun

theorem coroutines (h : Emptied s) (cos : List Coroutine) :
    Emptied { s with coroutines := cos } :=
  ⟨h.attached, h.down, h.depth, h.opens, h.left⟩

theorem addPeer (h : Emptied s) (peer : Address) (immediate : Bool) :
    Emptied (s.addPeer peer immediate) := by
  unfold Lifecycle.addPeer
  split
  · exact h
  · exact h.coroutines _

/-- The receive loops go on, or `shutdown` calls `Router::remove`. -/
theorem change (h : Emptied s) {service : Service} (hattached : service.Attached)
    (hchange : ∀ call ∈ s.calls, Service.Change call.depth s.service service)
    (hsubset : ∀ c ∈ service.router.connections, c ∈ s.service.router.connections) :
    Emptied { s with service := service } := by
  refine ⟨hattached, fun hdown c hc => h.down hdown c (hsubset c hc), ?_, ?_, ?_⟩
  · intro call hcall
    exact (hchange call hcall).depth_le (h.depth call hcall)
  · intro call hcall
    rw [(hchange call hcall).beneath_eq (h.depth call hcall)]
    exact h.opens call hcall
  · intro call hcall left hleft
    exact (h.left call hcall left hleft).change (hchange call (List.mem_of_mem_head? hcall))

/-- The topmost call goes on. -/
theorem setLeft (h : Emptied s) {call : Call} {rest : List Call} (top : s.calls = call :: rest)
    {left : Option (List Connection)} (hleft : ∀ l ∈ left, s.service.LeftTo call.depth l) :
    Emptied { s with calls := { call with left := left } :: rest } := by
  have hdepth := h.depth
  have hopens := h.opens
  rw [top] at hdepth hopens
  obtain ⟨hdepth, hdepths⟩ := List.forall_mem_cons.mp hdepth
  obtain ⟨hopen, hopens⟩ := List.forall_mem_cons.mp hopens
  refine ⟨h.attached, h.down, List.forall_mem_cons.mpr ⟨hdepth, hdepths⟩,
    List.forall_mem_cons.mpr ⟨hopen, hopens⟩, ?_⟩
  intro k hk
  obtain rfl := Option.some.inj hk
  exact hleft

theorem proceed (h : Emptied s) {call : Call} {rest : List Call} (top : s.calls = call :: rest)
    (htop : call.depth = s.service.stack.length) : Emptied (s.proceed call rest) := by
  have hmem : call ∈ s.calls := by rw [top]; exact List.mem_cons_self
  unfold Lifecycle.proceed
  split
  · -- what is copied is all there is
    refine h.setLeft top fun l hl c hc => ?_
    obtain rfl := Option.some.inj hl
    exact Or.inl hc
  · rename_i c left hcall
    have hleft := h.left call (by rw [top]; rfl) _ hcall
    have hopens := h.opens call hmem
    unfold Service.beneath at hopens
    rw [htop, Nat.sub_self, List.drop_zero] at hopens
    have hremove : Emptied { s with service := s.service.remove c } :=
      h.change (h.attached.remove hopens c) (fun _ _ => .grows (.remove s.service c)) fun _ hc => hc
    refine hremove.setLeft top fun l hl => ?_
    obtain rfl := Option.some.inj hl
    rw [htop] at hleft ⊢
    exact hleft.remove
  · rename_i hcall
    have hleft := h.left call (by rw [top]; rfl) _ hcall
    rw [htop] at hleft
    have hrest : ∀ k ∈ rest, k ∈ s.calls := fun k hk => by
      rw [top]
      exact List.mem_cons_of_mem _ hk
    refine ⟨h.attached, fun _ => hleft.none_left, fun k hk => h.depth k (hrest k hk),
      fun k hk => h.opens k (hrest k hk), ?_⟩
    intro k hk l hl c hc
    exact absurd hc (hleft.none_left c)

/-- A connection is added while there is no call of `shutdown` that has copied the table. -/
theorem add (h : Emptied s) (haccepts : s.accepts = true) {c : Connection} {service : Service}
    (hstep : s.service.step (.add c) = some service) : Emptied { s with service := service } := by
  have hok : s.service.StopsReading (.add c) := trivial
  have hattached : service.Attached := h.attached.step hok hstep
  have hstack : service.stack = s.service.stack := by
    cases Service.step_cases hstep with
    | add c polls absent =>
      unfold Service.add
      split <;> rfl
  unfold accepts at haccepts
  obtain ⟨hup, hcalls⟩ := Bool.and_eq_true_iff.mp haccepts
  refine ⟨hattached, fun hdown => ?_, ?_, ?_, ?_⟩
  · rw [show s.down = true from hdown] at hup
    exact absurd hup (by simp)
  · rw [hstack]
    exact h.depth
  · unfold Service.beneath
    rw [hstack]
    exact h.opens
  · intro call hcall left hleft
    obtain ⟨depth, left'⟩ := call
    obtain rfl : left' = some left := hleft
    cases hcs : s.calls with
    | nil =>
      rw [hcs] at hcall
      exact absurd hcall nofun
    | cons k rest =>
      rw [show ({ s with service := service } : Lifecycle).calls = k :: rest from hcs] at hcall
      obtain rfl := Option.some.inj hcall
      rw [hcs] at hcalls
      exact absurd hcalls (by simp)

/-- A duplicate is dropped. -/
theorem add_duplicate (h : Emptied s) {c : Connection}
    (hkey : s.service.router.connections.hasKey c.key = true) {service : Service}
    (hstep : s.service.step (.add c) = some service) : Emptied { s with service := service } := by
  cases Service.step_cases hstep with
  | add c polls absent =>
    unfold Service.add
    rw [if_pos hkey]
    exact h

end Emptied

/-- Only a handshake that succeeds is followed by `Router::add`. -/
theorem Coroutine.resume_adds {r : Router} {ec : ErrorCode} {made c : Connection} {co : Coroutine}
    {next : Option Coroutine} (h : co.resume r ec made = .adds c next) :
    ec = .success ∧ co.shaking = some c := by
  cases co with
  | connected c' =>
    simp only [resume] at h
    split at h
    · rename_i hec
      cases h
      exact ⟨hec, rfl⟩
    · exact absurd h nofun
  | accepted c' =>
    simp only [resume] at h
    split at h
    · rename_i hec
      cases h
      exact ⟨hec, rfl⟩
    · exact absurd h nofun
  | dialling peer immediate =>
    simp only [resume] at h
    split_ifs at h
  | waiting peer n => exact absurd h nofun
  | connecting peer n =>
    cases ec with
    | success =>
      simp only [resume] at h
      split_ifs at h
    | operationAborted => exact absurd h nofun
    | failure value => exact absurd h nofun
  | listening => exact absurd h nofun
  | accepting =>
    simp only [resume] at h
    split_ifs at h

theorem not_add_of_allows {ev : Service.Event} (h : s.allows ev = true) : ∀ c, ev ≠ .add c := by
  rintro c rfl
  exact absurd h Bool.false_ne_true

/-- What `allows` says of the functions that may return. -/
theorem within_of_allows {ev : Service.Event} (h : s.allows ev = true) (hreturns : ev.Returns)
    {call : Call} (hcall : call ∈ s.calls) : call.depth < s.service.stack.length := by
  cases ev with
  | proceed => exact of_decide_eq_true (List.all_eq_true.mp h call hcall)
  | finish dead => exact of_decide_eq_true (List.all_eq_true.mp h call hcall)
  | _ => exact absurd hreturns not_false

namespace Emptied

theorem resumed (h : Emptied s) {i : ℕ} {ec : ErrorCode} {made : Connection} {co : Coroutine}
    (hok : Timely s (.resume i ec made)) (hco : s.coroutines[i]? = some co)
    (hstep : s.resumed i (co.resume s.service.router ec made) = some s') : Emptied s' := by
  cases hout : co.resume s.service.router ec made with
  | goesOn next =>
    rw [hout] at hstep
    cases hstep
    exact h.coroutines _
  | adds c next =>
    rw [hout] at hstep
    obtain ⟨service, hadd, rfl⟩ := Option.map_eq_some_iff.mp hstep
    obtain ⟨hec, hshaking⟩ := Coroutine.resume_adds hout
    have hadded : Emptied { s with service := service } := by
      cases haccepts : s.accepts with
      | true => exact h.add haccepts hadd
      | false => exact h.add_duplicate (hok hec haccepts co hco c hshaking) hadd
    exact hadded.coroutines _
  | throws =>
    rw [hout] at hstep
    exact absurd hstep nofun

theorem served (h : Emptied s) {ev : Service.Event} {service : Service}
    (hok : s.service.StopsReading ev) (hallows : s.allows ev = true)
    (hstep : s.service.step ev = some service) : Emptied (s.served ev service) := by
  have hadd := not_add_of_allows hallows
  have hservice : Emptied { s with service := service } := by
    refine h.change (h.attached.step hok hstep) (fun call hcall => ?_)
      (Service.change_of_step_zero hstep hadd).subset
    exact Service.change_of_step hstep hadd fun hr => within_of_allows hallows hr hcall
  unfold Lifecycle.served
  split
  · split
    · exact hservice.addPeer _ _
    · exact hservice
  · exact hservice

theorem step (h : Emptied s) {ev : Event} (hok : Timely s ev) (hstep : s.step ev = some s') :
    Emptied s' := by
  cases step_cases hstep with
  | start id polls => exact h.start id
  | shutdown polls => exact h.shutdown polls
  | addPeer peer immediate polls => exact h.addPeer peer immediate
  | resume i ec made co s' found admitted done => exact h.resumed hok found done
  | proceed call rest top depth => exact h.proceed top depth
  | service ev service allowed done => exact h.served hok allowed done

theorem empty (h : Emptied s) (hdown : s.down = true) :
    (∀ c, c ∉ s.service.router.connections) ∧ ∀ e, e ∉ s.service.router.routeTable :=
  ⟨h.down hdown, fun e he => h.down hdown _ (h.attached.entries e he)⟩

end Emptied

theorem Run.emptied (h : Run Timely s) : Emptied s :=
  h.invariant .initial fun _ _ _ _ hemptied hok hstep => hemptied.step hok hstep

/-- **A stopped router stays empty**, where no handshake is late and no `stop` leaves a loop
    reading. -/
theorem stays_empty (h : Run Timely s) (hdown : s.down = true) :
    (∀ c, c ∉ s.service.router.connections) ∧ ∀ e, e ∉ s.service.router.routeTable :=
  h.emptied.empty hdown

/-- A connection is up and has brought in a route, the accept thread waits, and a connect thread is
    in `async_connect`. -/
def busy : Lifecycle :=
  execs step initial
    [.start 1, .resume 0 .success ⟨0, 0, 0⟩, .resume 0 .success ⟨1, 10, 20⟩,
      .resume 0 .success ⟨0, 0, 0⟩, .service (.begin ⟨1, 10, 20⟩),
      .service (.transfer ⟨1, 10, 20⟩ .success 16),
      .service (.resume ⟨1, 10, 20⟩ Service.selfAdvert),
      .service (.transfer ⟨1, 10, 20⟩ .success 32),
      .service (.resume ⟨1, 10, 20⟩ Service.selfAdvert), .service .proceed, .addPeer 11 true,
      .resume 1 .success ⟨0, 0, 0⟩]

/-- `shutdown` is called. The accept thread ends and the loop of the connection too, `shutdown`
    returns, and the connect thread connects and fails its handshake. -/
def stopped : Lifecycle :=
  execs step busy
    [.shutdown, .resume 0 .operationAborted ⟨0, 0, 0⟩, .proceed, .proceed,
      .service (.resume ⟨1, 10, 20⟩ Service.selfAdvert), .service .proceed,
      .service (.finish [⟨⟨2, 1, [2]⟩, ⟨1, 10, 20⟩⟩]), .proceed,
      .resume 0 .success ⟨2, 11, 20⟩, .resume 0 (.failure 1) ⟨0, 0, 0⟩]

theorem stopped_stays_empty :
    busy.service.router.routeTable.toList.length = 1 ∧
    busy.coroutines = [.accepting, .connecting 11 1] ∧
    stopped.coroutines = [] ∧ stopped.calls.length = 0 ∧
      (∀ c, c ∉ stopped.service.router.connections) ∧
      ∀ e, e ∉ stopped.service.router.routeTable := by
  have hbusy : Run Timely busy := Run.nil.execs (by decide +kernel)
  exact ⟨by decide +kernel, by decide +kernel, by decide +kernel, by decide +kernel,
    stays_empty (hbusy.execs (by decide +kernel)) (by decide +kernel)⟩

/-- The router is stopped while a connect thread is in `async_connect`, and the connection is made
    after that. -/
def lateHandshake : Lifecycle :=
  execs step initial
    [.start 1, .resume 0 .success ⟨0, 0, 0⟩, .addPeer 10 true, .resume 1 .success ⟨0, 0, 0⟩,
      .shutdown, .resume 0 .operationAborted ⟨0, 0, 0⟩, .proceed, .proceed,
      .resume 0 .success ⟨1, 10, 20⟩, .resume 0 .success ⟨0, 0, 0⟩]

/-- The router has been shut down and has a connection. -/
theorem stopped_has_connection :
    Run (fun _ _ => True) lateHandshake ∧ lateHandshake.down = true ∧
    lateHandshake.service.router.running = false ∧
    (⟨1, 10, 20⟩ : Connection) ∈ lateHandshake.service.router.connections :=
  ⟨Run.nil.execs (allOk_of_forall (fun _ _ => trivial) _ _), by decide +kernel, by decide +kernel,
    UniqueIndex.mem_def.mpr (by decide +kernel)⟩

/-! ## Where nothing is under way -/

/-- It is past its last test of `running_`, with a connection to come. -/
def Coroutine.passed : Coroutine → Bool
  | .connecting _ _ | .connected _ | .accepted _ => true
  | .dialling _ _ | .waiting _ _ | .listening | .accepting => false

/-- The router is stopped, and no coroutine is past its last test of that. -/
structure Idle (s : Lifecycle) : Prop where
  stopped : s.service.router.running = false
  tests : ∀ co ∈ s.coroutines, co.passed = false

/-- `start` is not called, and no `stop` leaves a loop reading. -/
def Quiet (s : Lifecycle) : Event → Prop
  | .start _ => False
  | .service ev => s.service.StopsReading ev
  | .shutdown | .addPeer _ _ | .resume _ _ _ | .proceed => True

/-- Whatever a coroutine waits for, the next test ends it. -/
theorem Coroutine.resume_of_stopped {r : Router} (hr : r.running = false) {co : Coroutine}
    (hco : co.passed = false) (ec : ErrorCode) (made : Connection) :
    co.resume r ec made = .goesOn none := by
  cases co with
  | dialling peer immediate => simp [resume, hr]
  | waiting peer n => simp [resume, attempt, hr]
  | listening => simp [resume, listen, hr]
  | accepting => simp [resume, hr]
  | connecting peer n => exact absurd hco (by simp [passed])
  | connected c => exact absurd hco (by simp [passed])
  | accepted c => exact absurd hco (by simp [passed])

theorem addPeer_down (s : Lifecycle) (peer : Address) (immediate : Bool) :
    (s.addPeer peer immediate).down = s.down := by
  unfold addPeer
  split <;> rfl

namespace Idle

theorem addPeer (h : Idle s) (peer : Address) (immediate : Bool) :
    Idle (s.addPeer peer immediate) := by
  unfold Lifecycle.addPeer
  split
  · exact h
  · refine ⟨h.stopped, fun co hco => ?_⟩
    rcases List.mem_append.mp hco with hco | hco
    · exact h.tests co hco
    · rw [List.mem_singleton.mp hco]
      rfl

theorem timely (h : Idle s) {ev : Event} (hok : Quiet s ev) : Timely s ev := by
  cases ev with
  | resume i ec made =>
    intro _ _ co hco c hc
    have hpassed := h.tests co (List.mem_of_getElem? hco)
    cases co with
    | connected c' => exact absurd hpassed (by simp [Coroutine.passed])
    | accepted c' => exact absurd hpassed (by simp [Coroutine.passed])
    | _ => exact absurd hc nofun
  | service ev => exact hok
  | start id => exact absurd hok not_false
  | shutdown => trivial
  | addPeer peer immediate => trivial
  | proceed => trivial

theorem step (h : Idle s) (hdown : s.down = true) {ev : Event} (hok : Quiet s ev)
    (hstep : s.step ev = some s') : Idle s' ∧ s'.down = true := by
  cases step_cases hstep with
  | start id polls => exact absurd hok not_false
  | shutdown polls => exact ⟨⟨rfl, h.tests⟩, hdown⟩
  | addPeer peer immediate polls =>
    exact ⟨h.addPeer peer immediate, (addPeer_down s peer immediate).trans hdown⟩
  | resume i ec made co s' found admitted done =>
    have htest := h.tests co (List.mem_of_getElem? found)
    rw [Coroutine.resume_of_stopped h.stopped htest] at done
    cases done
    refine ⟨⟨h.stopped, fun co' hco' => ?_⟩, hdown⟩
    refine h.tests co' (List.mem_of_mem_eraseIdx (i := i) ?_)
    rwa [← List.append_nil (s.coroutines.eraseIdx i)]
  | proceed call rest top depth =>
    unfold Lifecycle.proceed
    split
    · exact ⟨⟨h.stopped, h.tests⟩, hdown⟩
    · exact ⟨⟨h.stopped, h.tests⟩, hdown⟩
    · exact ⟨⟨h.stopped, h.tests⟩, rfl⟩
  | service ev service allowed done =>
    have hidle : Idle { s with service := service } := by
      have hchange := Service.change_of_step_zero done (not_add_of_allows allowed)
      exact ⟨hchange.running.trans h.stopped, h.tests⟩
    unfold Lifecycle.served
    split
    · split
      · exact ⟨hidle.addPeer _ _, (addPeer_down _ _ _).trans hdown⟩
      · exact ⟨hidle, hdown⟩
    · exact ⟨hidle, hdown⟩

end Idle

/-- Where no coroutine is past its last test when `shutdown` returns, the router stays empty until
    it is started again. -/
theorem idle_stays_empty {t : Lifecycle} (h : Run Timely s) (hdown : s.down = true) (hidle : Idle s)
    (hrun : Lib.Run step Quiet s t) :
    (∀ c, c ∉ t.service.router.connections) ∧ ∀ e, e ∉ t.service.router.routeTable := by
  have hall : Emptied t ∧ Idle t ∧ t.down = true := by
    refine hrun.invariant (I := fun t => Emptied t ∧ Idle t ∧ t.down = true)
      ⟨h.emptied, hidle, hdown⟩ ?_
    rintro s₁ s₂ ev - ⟨hemptied, hidle, hdown⟩ hok hstep
    exact ⟨hemptied.step (hidle.timely hok) hstep, hidle.step hdown hok hstep⟩
  exact hall.1.empty hall.2.2

end Lifecycle

end Synergy
