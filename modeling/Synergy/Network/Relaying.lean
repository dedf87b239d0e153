import Synergy.Lib.Trail
import Synergy.Network.Forwarding
import Synergy.Service.Framing

/-!
# How often a frame is passed on

A frame goes from router to router while the network stands still, whatever the route tables are.
Every router that receives it lowers the `ttl` of its header, in `read_header`, and passes it on if
it is for another router. `forward` carries a reminder to enforce the `ttl` and does not look at it,
so a frame goes the same way whatever its `ttl` is (`course_eq`): where the first entries run in a
circle it goes round for ever.
-/

set_option autoImplicit false

namespace Synergy

open Lib Framing

/-- A frame that arrives at a router, with the header it was sent with. -/
structure Arrival (ι : Type) where
  router : ι
  header : Framing.MessageHeader
  deriving DecidableEq

namespace Network

variable {ι : Type} [DecidableEq ι]

/-- `Router::forward` of router `i`: where the frame arrives. -/
def forward (w : Wiring ι) (n : Network ι) (i : ι) (header : Framing.MessageHeader) :
    Option (Arrival ι) :=
  ((n.routers i).forward header.dest).map fun c => ⟨(w.peer ⟨i, c⟩).router, header⟩

/-- `read_header`, and the handler of `on_message` as far as it passes the frame on. -/
def onMessage (w : Wiring ι) (n : Network ι) (a : Arrival ι) : Option (Arrival ι) :=
  let header := a.header.relayed
  if header.dest ≠ (n.routers a.router).id ∧ header.dest ≠ 0xFFFFFFFF then
    forward w n a.router header
  else none

/-- How often routers other than the origin pass the frame on, at its first `k` arrivals. -/
def relays (w : Wiring ι) (n : Network ι) (origin : ι) (header : Framing.MessageHeader) (k : ℕ) :
    ℕ :=
  visits (onMessage w n) (forward w n origin header)
    (fun a => a.router ≠ origin ∧ (onMessage w n a).isSome) k

/-- Where router `i` passes a frame for `d` on, if it is not for itself. -/
def passOn (w : Wiring ι) (n : Network ι) (d : UInt32) (i : ι) : Option ι :=
  if d ≠ (n.routers i).id ∧ d ≠ 0xFFFFFFFF then hop w n d i else none

/-- The routers to which the first entries for `d` lead from the origin. -/
def firstEntries (w : Wiring ι) (n : Network ι) (d : UInt32) (origin : ι) : ℕ → Option ι :=
  trail (passOn w n d) (hop w n d origin)

/-- Among the routers to which the first entries lead, those other than the origin that pass a frame
on come once each, and there are at most `t`. -/
structure ShortChain (w : Wiring ι) (n : Network ι) (d : UInt32) (origin : ι) (t : ℕ) : Prop where
  once : ∀ j k i, firstEntries w n d origin j = some i → firstEntries w n d origin k = some i →
    i ≠ origin → (passOn w n d i).isSome → j = k
  few : ∃ s : Finset ι, s.card ≤ t ∧ ∀ k i, firstEntries w n d origin k = some i →
    i ≠ origin → (passOn w n d i).isSome → i ∈ s

variable {w : Wiring ι} {n : Network ι} {origin : ι} {header : Framing.MessageHeader}

/-! ## The `ttl` is not looked at -/

omit [DecidableEq ι] in
theorem forward_eq (i : ι) (header : Framing.MessageHeader) :
    forward w n i header = (hop w n header.dest i).map fun j => ⟨j, header⟩ := by
  unfold forward hop
  rw [Option.map_map]
  rfl

omit [DecidableEq ι] in
theorem onMessage_eq (a : Arrival ι) : onMessage w n a =
    (passOn w n a.header.dest a.router).map fun j => ⟨j, a.header.relayed⟩ := by
  unfold onMessage passOn
  simp only [relayed_dest]
  split
  · rw [forward_eq, relayed_dest]
  · rfl

theorem relayed_iterate_dest (k : ℕ) :
    (Framing.MessageHeader.relayed^[k] header).dest = header.dest := by
  induction k with
  | zero => rfl
  | succ k ih => rw [Function.iterate_succ_apply', relayed_dest, ih]

omit [DecidableEq ι] in
/-- The frame goes where the first entries lead, whatever its `ttl` is. -/
theorem course_eq (k : ℕ) :
    trail (onMessage w n) (forward w n origin header) k =
      (firstEntries w n header.dest origin k).map fun i =>
        ⟨i, Framing.MessageHeader.relayed^[k] header⟩ := by
  unfold firstEntries
  induction k with
  | zero => exact forward_eq origin header
  | succ k ih =>
    show (trail (onMessage w n) (forward w n origin header) k).bind (onMessage w n) =
      ((trail (passOn w n header.dest) (hop w n header.dest origin) k).bind
        (passOn w n header.dest)).map _
    rw [ih]
    cases trail (passOn w n header.dest) (hop w n header.dest origin) k with
    | none => rfl
    | some i =>
      show onMessage w n _ = (passOn w n header.dest i).map _
      rw [onMessage_eq, relayed_iterate_dest, Function.iterate_succ_apply']

/-- How often a frame is passed on does not depend on its `ttl` either. -/
theorem relays_eq (k : ℕ) : relays w n origin header k =
    visits (passOn w n header.dest) (hop w n header.dest origin)
      (fun i => i ≠ origin ∧ (passOn w n header.dest i).isSome) k := by
  unfold relays visits
  congr 1
  refine Finset.filter_congr fun j _ => ?_
  have hcourse : trail (onMessage w n) (forward w n origin header) j = _ := course_eq j
  unfold firstEntries at hcourse
  rw [hcourse]
  cases trail (passOn w n header.dest) (hop w n header.dest origin) j with
  | none => rfl
  | some i =>
    simp only [Option.map_some, Option.any_some, onMessage_eq, relayed_iterate_dest,
      Option.isSome_map]

/-! ## How far the `ttl` of a frame reaches -/

/-- A frame is passed on by others at most as often as its `ttl` says where the first entries lead
along a chain that is short enough anyway. -/
theorem relays_le_ttl_iff_shortChain (w : Wiring ι) (n : Network ι) (origin : ι)
    (header : Framing.MessageHeader) :
    (∀ k, relays w n origin header k ≤ header.ttl.toNat) ↔
      ShortChain w n header.dest origin header.ttl.toNat := by
  simp only [relays_eq, visits_le_iff]
  constructor
  · rintro ⟨honce, s, hs, hmem⟩
    exact ⟨fun j k i hj hk hother hpasses =>
        honce j k i ⟨hj, hother, hpasses⟩ ⟨hk, hother, hpasses⟩,
      s, hs, fun k i hk hother hpasses => hmem k i ⟨hk, hother, hpasses⟩⟩
  · rintro ⟨honce, s, hs, hmem⟩
    exact ⟨fun j k i hj hk => honce j k i hj.1 hk.1 hj.2.1 hj.2.2,
      s, hs, fun k i hk => hmem k i hk.1 hk.2.1 hk.2.2⟩

/-- Routers 1, 2 and 3 in a row. -/
def row : Wiring UInt32 := .ofLinks fun k => if k = 0 then (1, 2) else (2, 3)

/-- The route to 9 has been lost; 2 takes 3 to have another one, and 3 has the one through 2. -/
def circling : Network UInt32 where
  routers i := { Router.started i with
    routeTable :=
      if i = 1 then UniqueIndex.empty.insert ⟨⟨9, 3, [2, 3]⟩, (Port.near i 0).conn⟩
      else if i = 2 then UniqueIndex.empty.insert ⟨⟨9, 2, [3]⟩, (Port.near i 1).conn⟩
      else if i = 3 then UniqueIndex.empty.insert ⟨⟨9, 3, [2, 1]⟩, (Port.far i 1).conn⟩
      else .empty }
  flight := []

/-- A frame as `Message` makes it, with the `ttl` that means it should not be passed on twice. -/
def frameFor9 : Framing.MessageHeader :=
  { version := 0, type := 5, unused := 0, ttl := 1, size := 8, source := 1, dest := 9 }

theorem relays_circling :
    frameFor9.ttl.toNat = 1 ∧ relays row circling 1 frameFor9 5 = 5 ∧
    ¬∀ k, relays row circling 1 frameFor9 k ≤ frameFor9.ttl.toNat := by
  have hfive : relays row circling 1 frameFor9 5 = 5 := by decide +kernel
  refine ⟨rfl, hfive, ?_⟩
  intro h
  have hle := h 5
  rw [hfive] at hle
  exact absurd hle (by decide)

end Network

end Synergy
