import Synergy.Lib.Run
import Synergy.Router.Router

/-!
# Two routers that dial each other

`Router::add_peer`, the accept loop of `Router::start` and `Router::add`, at two running routers
with one address each. Each dials the other, so there can be two TCP connections, each with an end
at either router: one in the connect coroutine of its dialler, one in the accept loop of the other.

An end looks for a duplicate in `connections_` when the TCP connection is made, and again, by the
unique key of the table, when the handshake is done. A handshake can succeed as soon as the other
end takes part in it, in either order of the two ends, and it can succeed although the other end has
closed the connection after its own. It fails where the other end has closed the connection.

The other end of a connection that was added may close it. Then the read loop removes it, and calls
`add_peer` for a third connection, which is not modelled. Attempts to connect that fail or time out
leave nothing behind, and only the one that succeeds is here.
-/

set_option autoImplicit false

namespace Synergy.Dialling

open Lib

/-- One of the two routers. -/
inductive Side where
  | a
  | b
  deriving DecidableEq

def Side.other : Side → Side
  | .a => .b
  | .b => .a

/-- What is fixed about a router. -/
structure Host where
  id : UInt32
  address : Address

/-- Where one end of a TCP connection is. -/
inductive Progress where
  | idle
  /-- `add_peer` has found that the peer is connected already. -/
  | ignored
  /-- In `async_connect`. -/
  | connecting
  /-- About to be resumed from `async_connect` or `async_accept`. -/
  | established
  /-- Dropped as a duplicate before the handshake. -/
  | refused
  | handshaking
  /-- About to be resumed from `async_handshake`, which has succeeded or not. -/
  | shaken (ok : Bool)
  | failed
  | added
  /-- Dropped as a duplicate by `add`. -/
  | rejected
  /-- Added and removed. -/
  | lost
  deriving DecidableEq

namespace Progress

/-- The end has closed the connection. -/
def closed : Progress → Bool
  | .refused => true
  | .failed => true
  | .rejected => true
  | .lost => true
  | _ => false

/-- The end takes part in the handshake, or did until it was done. -/
def answers : Progress → Bool
  | .handshaking => true
  | .shaken ok => ok
  | .added => true
  | .rejected => true
  | .lost => true
  | _ => false

/-- The end has done all its steps. -/
def settled : Progress → Bool
  | .added => true
  | p => p.closed

/-- The end has given its connection up, or is about to. -/
def hurt : Progress → Bool
  | .ignored => true
  | .shaken ok => !ok
  | p => p.closed

theorem hurt_of_closed {p : Progress} (h : p.closed) : p.hurt := by
  cases p <;> first | rfl | exact absurd h (by simp [closed])

theorem hurt_of_settled {p : Progress} (h : p.settled) (hne : p ≠ .added) : p.hurt := by
  cases p <;> first | rfl | exact absurd rfl hne | exact absurd h (by simp [settled, closed])

end Progress

structure Network where
  router : Side → Router
  /-- By the router that has dialled, and the router where the end is. -/
  progress : Side → Side → Progress

inductive Event where
  | addPeer (dialler : Side)
  /-- The TCP connection is made. -/
  | establish (dialler : Side)
  /-- The end is resumed from `async_connect` or `async_accept`, and starts its handshake. -/
  | check (dialler side : Side)
  | handshake (dialler side : Side) (ok : Bool)
  /-- The end is resumed from its handshake. -/
  | add (dialler side : Side)
  /-- The read loop of the end finds the connection closed. -/
  | lose (dialler side : Side)

def initial (host : Side → Host) : Network where
  router side := .started (host side).id
  progress _ _ := .idle

/-- The `Connection` object of an end. It has an id that no other object of its router has. -/
def connection (host : Side → Host) (dialler side : Side) : Connection where
  id := if dialler = side then 1 else 2
  remoteIp := (host side.other).address
  localIp := (host side).address

namespace Network

/-- One end goes on. -/
def set (s : Network) (dialler side : Side) (p : Progress) : Network :=
  { s with
    progress := fun d x => if d = dialler ∧ x = side then p else s.progress d x }

def setRouter (s : Network) (side : Side) (r : Router) : Network :=
  { s with router := fun x => if x = side then r else s.router x }

/-- `add_peer`, up to `async_connect`. -/
def addPeer (s : Network) (host : Side → Host) (dialler : Side) : Network :=
  if (s.router dialler).connections.toList.any fun c =>
      c.remoteIp = (host dialler.other).address then
    s.set dialler dialler .ignored
  else s.set dialler dialler .connecting

/-- The check for a duplicate, the same at both ends. -/
def check (s : Network) (host : Side → Host) (dialler side : Side) : Network :=
  if (s.router side).connections.hasKey (connection host dialler side).key then
    s.set dialler side .refused
  else s.set dialler side .handshaking

/-- `Router::add`. -/
def add (s : Network) (host : Side → Host) (dialler side : Side) : Network :=
  let c := connection host dialler side
  let s' := s.setRouter side ((s.router side).add c).1
  if (s.router side).connections.hasKey c.key then s'.set dialler side .rejected
  else s'.set dialler side .added

/-- `Router::remove`, in `on_disconnect`. -/
def lose (s : Network) (host : Side → Host) (dialler side : Side) : Network :=
  let c := connection host dialler side
  let r := s.router side
  (s.setRouter side (r.remove c (r.deadRoutes c)).1).set dialler side .lost

/-- Both routers have dialled, and every end of every connection has done its steps. -/
def Done (s : Network) : Prop :=
  ∀ dialler, s.progress dialler dialler = .ignored ∨ ∀ side, (s.progress dialler side).settled

end Network

def step (host : Side → Host) (s : Network) : Event → Option Network
  | .addPeer d => if s.progress d d = .idle then some (s.addPeer host d) else none
  | .establish d =>
    if s.progress d d = .connecting ∧ s.progress d d.other = .idle then
      some ((s.set d d .established).set d d.other .established)
    else none
  | .check d x => if s.progress d x = .established then some (s.check host d x) else none
  | .handshake d x ok =>
    let peer := s.progress d x.other
    if s.progress d x = .handshaking ∧ (if ok then peer.answers else peer.closed) then
      some (s.set d x (.shaken ok))
    else none
  | .add d x =>
    match s.progress d x with
    | .shaken true => some (s.add host d x)
    | .shaken false => some (s.set d x .failed)
    | _ => none
  | .lose d x =>
    if s.progress d x = .added ∧ (s.progress d x.other).closed then some (s.lose host d x) else none

/-- A router that has no connection yet does not add one while the other router has the other. -/
def Agreed (host : Side → Host) (s : Network) : Event → Prop
  | .add d x => s.progress d x = .shaken true → (s.router x).connections.toList = [] →
      ∀ d', connection host d' x.other ∈ (s.router x.other).connections → d' = d
  | _ => True

/-! ## What the tables hold -/

theorem Side.other_ne (x : Side) : x.other ≠ x := by
  cases x <;> simp [Side.other]

theorem Side.eq_other_of_ne {x y : Side} (h : y ≠ x) : y = x.other := by
  cases x with
  | a => cases y with
    | a => exact absurd rfl h
    | b => rfl
  | b => cases y with
    | a => rfl
    | b => exact absurd rfl h

theorem connection_injective {host : Side → Host} {d d' x : Side}
    (h : connection host d x = connection host d' x) : d = d' := by
  have hid := congrArg Connection.id h
  unfold connection at hid
  dsimp only at hid
  by_cases hd : d = x
  · by_cases hd' : d' = x
    · rw [hd, hd']
    · rw [if_pos hd, if_neg hd'] at hid
      exact absurd hid (by decide)
  · by_cases hd' : d' = x
    · rw [if_neg hd, if_pos hd'] at hid
      exact absurd hid (by decide)
    · rw [Side.eq_other_of_ne hd, Side.eq_other_of_ne hd']

/-- The tables hold what was added. All of it belongs to one TCP connection, and whoever gave a
connection up did so for the other one. -/
structure Inv (host : Side → Host) (s : Network) : Prop where
  mem_iff : ∀ x c, c ∈ (s.router x).connections ↔
    ∃ d, c = connection host d x ∧ s.progress d x = .added
  agreed : ∀ d d' x y, s.progress d x = .added → s.progress d' y = .added → d = d'
  hurt : ∀ d x, (s.progress d x).hurt → ∃ d' y, d' ≠ d ∧ s.progress d' y = .added

namespace Network

variable {s : Network} {d d' x x' : Side} {p : Progress}

@[simp]
theorem set_progress_self : (s.set d x p).progress d x = p := if_pos ⟨rfl, rfl⟩

theorem set_progress_ne (h : ¬ (d' = d ∧ x' = x)) :
    (s.set d x p).progress d' x' = s.progress d' x' :=
  if_neg h

/-- Where an end goes on from, and to, something else than `added`. -/
theorem set_added (hold : s.progress d x ≠ .added) (hp : p ≠ .added) :
    (s.set d x p).progress d' x' = .added ↔ s.progress d' x' = .added := by
  by_cases h : d' = d ∧ x' = x
  · obtain ⟨rfl, rfl⟩ := h
    rw [set_progress_self]
    exact ⟨fun h => absurd h hp, fun h => absurd h hold⟩
  · rw [set_progress_ne h]

theorem setRouter_self : s.setRouter x (s.router x) = s := by
  obtain ⟨router, progress⟩ := s
  unfold setRouter
  congr 1
  funext y
  dsimp only
  split
  · rename_i h
    rw [h]
  · rfl

/-! What a router keeps that adds a connection, and the end that it belongs to. -/

variable {r : Router}

theorem router_add_self : ((s.setRouter x r).set d x p).router x = r := if_pos rfl

theorem router_add_ne (h : x' ≠ x) : ((s.setRouter x r).set d x p).router x' = s.router x' :=
  if_neg h

theorem progress_add : ((s.setRouter x r).set d x .added).progress d' x' = .added ↔
    d' = d ∧ x' = x ∨ s.progress d' x' = .added := by
  by_cases heq : d' = d ∧ x' = x
  · obtain ⟨rfl, rfl⟩ := heq
    simp
  · rw [set_progress_ne heq]
    simp [heq, setRouter]

end Network

namespace Inv

variable {host : Side → Host} {s s' : Network} {d x : Side}

theorem initial : Inv host (initial host) where
  mem_iff x c := by
    constructor
    · intro h
      exact absurd h (UniqueIndex.not_mem_empty c)
    · intro h
      obtain ⟨d, -, hadded⟩ := h
      exact absurd hadded (by simp [Dialling.initial])
  agreed d d' x y h := absurd h (by simp [Dialling.initial])
  hurt d x h := absurd h (by simp [Dialling.initial, Progress.hurt, Progress.closed])

theorem mem (h : Inv host s) :
    connection host d x ∈ (s.router x).connections ↔ s.progress d x = .added := by
  rw [h.mem_iff]
  constructor
  · intro hadded
    obtain ⟨d', heq, hadded⟩ := hadded
    rw [connection_injective heq]
    exact hadded
  · intro hadded
    exact ⟨d, rfl, hadded⟩

/-- Both connections have the same key at a router. -/
theorem hasKey_iff (h : Inv host s) :
    (s.router x).connections.hasKey (connection host d x).key ↔
      ∃ d', s.progress d' x = .added := by
  rw [UniqueIndex.hasKey_iff]
  constructor
  · intro hmem
    obtain ⟨c, hc, -⟩ := hmem
    obtain ⟨d', -, hadded⟩ := (h.mem_iff x c).mp hc
    exact ⟨d', hadded⟩
  · intro hadded
    obtain ⟨d', hadded⟩ := hadded
    exact ⟨connection host d' x, h.mem.mpr hadded, rfl⟩

theorem set (h : Inv host s) {p : Progress} (hold : s.progress d x ≠ .added) (hp : p ≠ .added)
    (hhurt : p.hurt → ∃ d' y, d' ≠ d ∧ s.progress d' y = .added) : Inv host (s.set d x p) where
  mem_iff x c := by
    simp only [Network.set_added hold hp]
    exact h.mem_iff x c
  agreed d d' x y := by
    simp only [Network.set_added hold hp]
    exact h.agreed d d' x y
  hurt d' x' := by
    simp only [Network.set_added hold hp]
    by_cases heq : d' = d ∧ x' = x
    · obtain ⟨rfl, rfl⟩ := heq
      rw [Network.set_progress_self]
      exact hhurt
    · rw [Network.set_progress_ne heq]
      exact h.hurt d' x'

/-- What another connection has taken is what makes an end a duplicate. -/
theorem exists_other (h : Inv host s) (hold : s.progress d x ≠ .added)
    (hkey : (s.router x).connections.hasKey (connection host d x).key) :
    ∃ d' y, d' ≠ d ∧ s.progress d' y = .added := by
  obtain ⟨d', hadded⟩ := h.hasKey_iff.mp hkey
  refine ⟨d', x, ?_, hadded⟩
  intro heq
  rw [heq] at hadded
  exact hold hadded

theorem addPeer (h : Inv host s) (hidle : s.progress d d = .idle) :
    Inv host (s.addPeer host d) := by
  have hold : s.progress d d ≠ .added := by simp [hidle]
  unfold Network.addPeer
  split
  · rename_i hany
    apply h.set hold (by simp)
    intro _
    obtain ⟨c, hc, -⟩ := List.any_eq_true.mp hany
    obtain ⟨d', -, hadded⟩ := (h.mem_iff d c).mp hc
    refine ⟨d', d, ?_, hadded⟩
    intro heq
    rw [heq] at hadded
    exact hold hadded
  · apply h.set hold (by simp)
    simp [Progress.hurt, Progress.closed]

theorem check (h : Inv host s) (hestablished : s.progress d x = .established) :
    Inv host (s.check host d x) := by
  have hold : s.progress d x ≠ .added := by simp [hestablished]
  unfold Network.check
  split
  · rename_i hkey
    apply h.set hold (by simp)
    intro _
    exact h.exists_other hold hkey
  · apply h.set hold (by simp)
    simp [Progress.hurt, Progress.closed]

/-- Where one side has added nothing, all that is added is what the other side has. -/
theorem eq_of_added (hfree : ∀ d', s.progress d' x ≠ .added)
    (hagreed : ∀ d', s.progress d' x.other = .added → d' = d) {d' y : Side}
    (hadded : s.progress d' y = .added) : d' = d := by
  apply hagreed
  rw [← Side.eq_other_of_ne]
  · exact hadded
  · rintro rfl
    exact hfree d' hadded

theorem add_new (h : Inv host s)
    (hkey : ¬ (s.router x).connections.hasKey (connection host d x).key)
    (hagreed : ∀ d', s.progress d' x.other = .added → d' = d) :
    Inv host ((s.setRouter x ((s.router x).add (connection host d x)).1).set d x .added) := by
  have hself : ((s.router x).add (connection host d x)).1.connections =
      (s.router x).connections.insert (connection host d x) := by
    rw [Router.add, if_neg hkey]
  have hfree : ∀ d', s.progress d' x ≠ .added := by
    intro d' h'
    exact hkey (h.hasKey_iff.mpr ⟨d', h'⟩)
  constructor
  · intro y c
    by_cases hy : y = x
    · subst hy
      rw [Network.router_add_self, hself, UniqueIndex.mem_insert hkey, h.mem_iff]
      simp [Network.progress_add, hfree]
    · rw [Network.router_add_ne hy, h.mem_iff]
      simp [Network.progress_add, hy]
  · intro d₁ d₂ y z h₁ h₂
    have hfirst : ∀ d' y, d' = d ∧ y = x ∨ s.progress d' y = .added → d' = d := by
      intro d' y hor
      exact hor.elim And.left (eq_of_added hfree hagreed)
    rw [hfirst d₁ y (Network.progress_add.mp h₁), hfirst d₂ z (Network.progress_add.mp h₂)]
  · intro d' y hhurt
    by_cases heq : d' = d ∧ y = x
    · obtain ⟨rfl, rfl⟩ := heq
      rw [Network.set_progress_self] at hhurt
      exact absurd hhurt (by simp [Progress.hurt, Progress.closed])
    · rw [Network.set_progress_ne heq] at hhurt
      obtain ⟨d'', z, hne, hadded⟩ := h.hurt d' y hhurt
      exact ⟨d'', z, hne, Network.progress_add.mpr (.inr hadded)⟩

theorem add (h : Inv host s) (hshaken : s.progress d x = .shaken true)
    (hagreed : Agreed host s (.add d x)) : Inv host (s.add host d x) := by
  have hold : s.progress d x ≠ .added := by simp [hshaken]
  unfold Network.add
  dsimp only
  split
  · rename_i hkey
    rw [Router.add, if_pos hkey, Network.setRouter_self]
    apply h.set hold (by simp)
    intro _
    exact h.exists_other hold hkey
  · rename_i hkey
    apply h.add_new hkey
    intro d' hadded
    apply hagreed hshaken _ d' (h.mem.mpr hadded)
    apply List.eq_nil_iff_forall_not_mem.mpr
    intro c hc
    obtain ⟨d', -, hadded⟩ := (h.mem_iff x c).mp hc
    exact hkey (h.hasKey_iff.mpr ⟨d', hadded⟩)

/-- Nobody gives up a connection that the other has added. -/
theorem not_closed (h : Inv host s) (hadded : s.progress d x = .added) (y : Side) :
    ¬ (s.progress d y).hurt := by
  intro hhurt
  obtain ⟨d', z, hne, hadded'⟩ := h.hurt d y hhurt
  exact hne (h.agreed d' d z x hadded' hadded)

theorem step {ev : Event} (h : Inv host s) (hagreed : Agreed host s ev)
    (hstep : Dialling.step host s ev = some s') : Inv host s' := by
  cases ev with
  | addPeer d =>
    obtain ⟨hidle, heq⟩ := Option.ite_none_right_eq_some.mp hstep
    cases heq
    exact h.addPeer hidle
  | establish d =>
    obtain ⟨⟨hconnecting, hidle⟩, heq⟩ := Option.ite_none_right_eq_some.mp hstep
    cases heq
    have hdialled : Inv host (s.set d d .established) := by
      apply h.set (by simp [hconnecting]) (by simp)
      simp [Progress.hurt, Progress.closed]
    apply hdialled.set _ (by simp)
    · simp [Progress.hurt, Progress.closed]
    · rw [Network.set_progress_ne (by simp [Side.other_ne]), hidle]
      simp
  | check d x =>
    obtain ⟨hestablished, heq⟩ := Option.ite_none_right_eq_some.mp hstep
    cases heq
    exact h.check hestablished
  | handshake d x ok =>
    obtain ⟨⟨hshaking, hpeer⟩, heq⟩ := Option.ite_none_right_eq_some.mp hstep
    cases heq
    apply h.set (by simp [hshaking]) (by simp)
    intro hhurt
    cases ok with
    | true => exact absurd hhurt (by simp [Progress.hurt])
    | false => exact h.hurt d x.other (Progress.hurt_of_closed hpeer)
  | add d x =>
    simp only [Dialling.step] at hstep
    split at hstep
    · rename_i hshaken
      cases hstep
      exact h.add hshaken hagreed
    · rename_i hshaken
      cases hstep
      apply h.set (by simp [hshaken]) (by simp)
      intro _
      exact h.hurt d x (by simp [hshaken, Progress.hurt])
    · exact absurd hstep (by simp)
  | lose d x =>
    obtain ⟨⟨hadded, hclosed⟩, -⟩ := Option.ite_none_right_eq_some.mp hstep
    exact absurd (Progress.hurt_of_closed hclosed) (h.not_closed hadded x.other)

end Inv

/-- **Two routers that dial each other keep a connection, where they agree on the first.** -/
theorem keeps_connection {host : Side → Host} {s : Network}
    (h : Run (step host) (Agreed host) (initial host) s) (hdone : s.Done) :
    ∃ d, ∀ x, connection host d x ∈ (s.router x).connections := by
  have hinv : Inv host s := by
    apply h.invariant .initial
    intro s s' ev _ hs hagreed hstep
    exact hs.step hagreed hstep
  by_cases hany : ∃ d x, s.progress d x = .added
  · obtain ⟨d, x, hadded⟩ := hany
    refine ⟨d, ?_⟩
    intro y
    apply hinv.mem.mpr
    by_contra hne
    apply hinv.not_closed hadded y
    rcases hdone d with hignored | hsettled
    · exact absurd (by simp [hignored, Progress.hurt]) (hinv.not_closed hadded d)
    · exact Progress.hurt_of_settled (hsettled y) hne
  · have hhurt : (s.progress .a .a).hurt := by
      rcases hdone .a with hignored | hsettled
      · simp [hignored, Progress.hurt]
      · exact Progress.hurt_of_settled (hsettled .a) fun hadded => hany ⟨.a, .a, hadded⟩
    obtain ⟨d, x, -, hadded⟩ := hinv.hurt .a .a hhurt
    exact absurd ⟨d, x, hadded⟩ hany

/-! ## Both dial at once -/

theorem Side.forall_iff {P : Side → Prop} : (∀ x, P x) ↔ P .a ∧ P .b := by
  constructor
  · intro h
    exact ⟨h .a, h .b⟩
  · intro h x
    cases x with
    | a => exact h.1
    | b => exact h.2

instance {P : Side → Prop} [DecidablePred P] : Decidable (∀ x, P x) :=
  decidable_of_iff _ Side.forall_iff.symm

instance (host : Side → Host) (s : Network) : (ev : Event) → Decidable (Agreed host s ev)
  | .add d x =>
    inferInstanceAs (Decidable (s.progress d x = .shaken true →
      (s.router x).connections.toList = [] →
        ∀ d', connection host d' x.other ∈ (s.router x.other).connections.toList → d' = d))
  | .addPeer _ => isTrue trivial
  | .establish _ => isTrue trivial
  | .check _ _ => isTrue trivial
  | .handshake _ _ _ => isTrue trivial
  | .lose _ _ => isTrue trivial

instance (s : Network) : Decidable s.Done :=
  inferInstanceAs (Decidable (∀ d, s.progress d d = .ignored ∨ ∀ x, (s.progress d x).settled))

def twoHosts : Side → Host
  | .a => { id := 1, address := 10 }
  | .b => { id := 2, address := 20 }

/-- Both TCP connections are made, and all four ends find that their router has none yet. -/
def dialled : List Event :=
  [.addPeer .a, .addPeer .b, .establish .a, .establish .b, .check .a .a, .check .a .b,
    .check .b .a, .check .b .b]

/-- The handshake of one connection is done, at both ends, before that of the other. -/
theorem keeps_connection_first :
    let s := execs (step twoHosts) (initial twoHosts) (dialled ++
      [.handshake .a .b true, .add .a .b, .handshake .a .a true, .add .a .a,
        .handshake .b .a true, .add .b .a, .handshake .b .b false, .add .b .b])
    s.progress .b .a = .rejected ∧ ∃ d, ∀ x, connection twoHosts d x ∈ (s.router x).connections :=
  ⟨by decide +kernel, keeps_connection (Run.nil.execs (by decide +kernel)) (by decide +kernel)⟩

/-- Both handshakes are done at the accepting ends first, so each router adds the connection that
the other has dialled and rejects its own. -/
def crossed : Network :=
  execs (step twoHosts) (initial twoHosts) (dialled ++
    [.handshake .a .b true, .handshake .b .a true, .add .a .b, .add .b .a,
      .handshake .a .a true, .handshake .b .b true, .add .a .a, .add .b .b])

theorem not_keeps_connection : ¬ ∀ s, Run (step twoHosts) (fun _ _ => True) (initial twoHosts) s →
    s.Done → ∃ d, ∀ x, connection twoHosts d x ∈ (s.router x).connections := by
  intro h
  obtain ⟨d, hd⟩ := h crossed (Run.nil.execs (allOk_of_forall (fun _ _ => trivial) _ _))
    (by decide +kernel)
  have hnone : ∀ d, ¬ ∀ x,
      connection twoHosts d x ∈ (crossed.router x).connections.toList := by
    decide +kernel
  exact hnone d hd

end Synergy.Dialling
