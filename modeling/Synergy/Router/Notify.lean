import Synergy.Router.Router
import Synergy.Service.MessageWriter

/-!
# A message to every node

`Router::send` and `Router::notifyOtherNodes`. The entries of the table come in the order of their
destinations, so the entries to one destination are neighbours, and the loop need only remember the
last one. It begins with `-1`, which as an `uint32_t` is a destination too, the last of all. A table
whose only destination is that one is passed over.
-/

set_option autoImplicit false

namespace Synergy

open Lib Framing

variable {Table : Alternative → Type}

/-- `Message::header`. -/
def Framing.Message.header (message : Framing.Message Table) : Framing.MessageHeader where
  version := 0
  type := message.type
  unused := 0
  ttl := message.ttl
  size := 0
  source := 0xFFFFFFFF
  dest := 0xFFFFFFFF

/-- A call of `Connection::send`. -/
structure Sent (Table : Alternative → Type) where
  connection : Connection
  header : Framing.MessageHeader
  message : Framing.Message Table

namespace Router

/-- `Router::send`: nothing where there is no route. -/
def send (r : Router) (message : Framing.Message Table) (dest : UInt32) : Option (Sent Table) :=
  let header := { message.header with source := r.id, dest := dest }
  (r.forward header.dest).map fun connection => ⟨connection, header, message⟩

structure NotifyLoop (Table : Alternative → Type) where
  lastDestId : UInt32
  sent : List (Sent Table)

/-- One iteration of the loop of `notifyOtherNodes`. -/
def notifyRoute (r : Router) (message : Framing.Message Table) (s : NotifyLoop Table)
    (route : RouteTableEntry) : NotifyLoop Table :=
  if s.lastDestId ≠ route.dest then
    { lastDestId := route.dest, sent := s.sent ++ (r.send message route.dest).toList }
  else s

def notifyOtherNodes (r : Router) (message : Framing.Message Table) : List (Sent Table) :=
  (r.routeTable.toList.foldl (r.notifyRoute message) { lastDestId := -1, sent := [] }).sent

/-- The message has gone to each destination of the table once, on the connection of its cheapest
entry, and to nothing else. The key of an entry is its destination, its cost and its path. -/
structure Notifies (r : Router) (message : Framing.Message Table) (sent : List (Sent Table)) :
    Prop where
  once : (sent.map fun x => x.header.dest).Nodup
  every : ∀ d, d ∈ sent.map (fun x => x.header.dest) ↔ ∃ e ∈ r.routeTable, e.dest = d
  addressed : ∀ x ∈ sent, x.message = message ∧
    x.header = { message.header with source := r.id, dest := x.header.dest }
  cheapest : ∀ x ∈ sent, ∃ e ∈ r.routeTable, e.dest = x.header.dest ∧ e.connection = x.connection ∧
    ∀ e' ∈ r.routeTable, e'.dest = e.dest → e.cost ≤ e'.cost ∧ e.key ≤ e'.key

/-! ## The destinations that the loop finds -/

section Changes

variable {α : Type} [LinearOrder α]

/-- What differs from the one before it, beginning after `last`. -/
def changes (last : α) : List α → List α
  | [] => []
  | d :: ds => if last ≠ d then d :: changes d ds else changes last ds

theorem cons_changes {a : α} {ds : List α} (hnodup : (changes a ds).Nodup)
    (hmem : ∀ d, d ∈ changes a ds ↔ d ∈ ds ∧ d ≠ a) :
    (a :: changes a ds).Nodup ∧ ∀ d, d ∈ a :: changes a ds ↔ d ∈ a :: ds := by
  refine ⟨List.nodup_cons.mpr ⟨fun h => ((hmem a).mp h).2 rfl, hnodup⟩, fun d => ?_⟩
  rw [List.mem_cons, hmem, List.mem_cons]
  by_cases heq : d = a
  · simp [heq]
  · simp [heq]

/-- Beginning with what comes first of all, only that value is missed. -/
theorem changes_spec {last : α} {ds : List α} (hsorted : ds.Pairwise (· ≤ ·))
    (hlast : ∀ d ∈ ds, last ≤ d) :
    (changes last ds).Nodup ∧ ∀ d, d ∈ changes last ds ↔ d ∈ ds ∧ d ≠ last := by
  induction ds generalizing last with
  | nil => exact ⟨List.nodup_nil, fun d => by simp [changes]⟩
  | cons a ds ih =>
    obtain ⟨hhead, htail⟩ := List.pairwise_cons.mp hsorted
    unfold changes
    split
    case isTrue hne =>
      obtain ⟨hnodup, hmem⟩ := ih htail hhead
      obtain ⟨hnodup', hmem'⟩ := cons_changes hnodup hmem
      refine ⟨hnodup', fun d => (hmem' d).trans ⟨fun hd => ⟨hd, ?_⟩, And.left⟩⟩
      have hlt : last < a := lt_of_le_of_ne (hlast a List.mem_cons_self) hne
      rcases List.mem_cons.mp hd with rfl | hd
      · exact hlt.ne'
      · exact (hlt.trans_le (hhead d hd)).ne'
    case isFalse heq =>
      obtain rfl := not_not.mp heq
      obtain ⟨hnodup, hmem⟩ := ih htail fun d hd => hlast d (List.mem_cons_of_mem _ hd)
      refine ⟨hnodup, fun d => ?_⟩
      rw [hmem, List.mem_cons]
      constructor
      · rintro ⟨hd, hne⟩
        exact ⟨Or.inr hd, hne⟩
      · rintro ⟨rfl | hd, hne⟩
        · exact absurd rfl hne
        · exact ⟨hd, hne⟩

theorem changes_of_all_eq {last : α} {ds : List α} (h : ∀ d ∈ ds, d = last) :
    changes last ds = [] := by
  induction ds with
  | nil => rfl
  | cons a ds ih =>
    rw [changes, if_neg (not_not.mpr (h a List.mem_cons_self).symm)]
    exact ih fun d hd => h d (List.mem_cons_of_mem _ hd)

/-- Beginning with what comes last of all, no value is missed, unless it is the only one. -/
theorem changes_from_last {last : α} {ds : List α} (hsorted : ds.Pairwise (· ≤ ·))
    (hlast : ∀ d ∈ ds, d ≤ last) (hother : ∃ d ∈ ds, d ≠ last) :
    (changes last ds).Nodup ∧ ∀ d, d ∈ changes last ds ↔ d ∈ ds := by
  cases ds with
  | nil => exact absurd hother (by simp)
  | cons a ds =>
    obtain ⟨hhead, htail⟩ := List.pairwise_cons.mp hsorted
    have hne : last ≠ a := by
      rintro rfl
      obtain ⟨d, hd, hne⟩ := hother
      rcases List.mem_cons.mp hd with rfl | hd'
      · exact hne rfl
      · exact hne (le_antisymm (hlast d hd) (hhead d hd'))
    obtain ⟨hnodup, hmem⟩ := changes_spec htail hhead
    rw [changes, if_pos hne]
    exact cons_changes hnodup hmem

end Changes

/-! ## What is sent to them -/

variable {r : Router} {message : Framing.Message Table} {d : UInt32} {x : Sent Table}

/-- The loop sends to each destination that differs from the last one. -/
theorem foldl_notifyRoute (es : List RouteTableEntry) (s : NotifyLoop Table) :
    (es.foldl (r.notifyRoute message) s).sent =
      s.sent ++ (changes s.lastDestId (es.map fun e => e.dest)).filterMap (r.send message) := by
  induction es generalizing s with
  | nil => exact (List.append_nil _).symm
  | cons e es ih =>
    rw [List.foldl_cons, ih, List.map_cons, changes, notifyRoute]
    split
    · rw [List.append_assoc, List.filterMap_cons]
      cases r.send message e.dest <;> rfl
    · rfl

theorem send_spec (h : r.send message d = some x) : x.message = message ∧
    x.header = { message.header with source := r.id, dest := d } ∧
    ∃ e ∈ r.routeTable, e.dest = d ∧ e.connection = x.connection ∧
      ∀ e' ∈ r.routeTable, e'.dest = d → e.key ≤ e'.key := by
  obtain ⟨connection, hforward, rfl⟩ := Option.map_eq_some_iff.mp h
  obtain ⟨e, hfind, rfl⟩ := Option.map_eq_some_iff.mp hforward
  obtain ⟨hmem, hdest, hleast⟩ := UniqueIndex.find?_some hfind
  refine ⟨rfl, rfl, e, hmem, of_decide_eq_true hdest, rfl, fun e' he' hd => ?_⟩
  exact hleast e' he' (decide_eq_true hd)

theorem send_dest (message : Framing.Message Table) (h : ∃ e ∈ r.routeTable, e.dest = d) :
    (r.send message d).map (fun x => x.header.dest) = some d := by
  obtain ⟨e, he, hd⟩ := h
  have hsome : (r.routeTable.find? fun e => e.dest = d).isSome :=
    UniqueIndex.find?_isSome.mpr ⟨e, he, decide_eq_true hd⟩
  obtain ⟨first, hfirst⟩ := Option.isSome_iff_exists.mp hsome
  rw [send, forward, hfirst]
  rfl

/-- The destinations of the table, in order and with repetitions. -/
def dests (r : Router) : List UInt32 := r.routeTable.toList.map fun e => e.dest

theorem mem_dests : d ∈ r.dests ↔ ∃ e ∈ r.routeTable, e.dest = d := List.mem_map

theorem sorted_dests : r.dests.Pairwise (· ≤ ·) :=
  List.pairwise_map.mpr <| r.routeTable.sorted.imp fun h =>
    RouteTableEntry.dest_le_of_key_le _ _ h.le

theorem notifyOtherNodes_eq :
    r.notifyOtherNodes message = (changes (-1) r.dests).filterMap (r.send message) :=
  (foldl_notifyRoute _ _).trans (List.nil_append _)

/-- Whatever destinations of the table it is sent to, each gets it where `send` says. -/
theorem map_dest_filterMap_send (message : Framing.Message Table) {ds : List UInt32}
    (h : ∀ d ∈ ds, d ∈ r.dests) :
    (ds.filterMap (r.send message)).map (fun x => x.header.dest) = ds := by
  induction ds with
  | nil => rfl
  | cons d ds ih =>
    have hsent := send_dest message (mem_dests.mp (h d List.mem_cons_self))
    obtain ⟨x, hx, hd⟩ := Option.map_eq_some_iff.mp hsent
    rw [List.filterMap_cons, hx, List.map_cons, hd, ih fun d hd => h d (List.mem_cons_of_mem _ hd)]

theorem le_neg_one (d : UInt32) : d ≤ -1 := by
  rw [UInt32.le_iff_toNat_le]
  exact Nat.le_pred_of_lt d.toNat_lt

/-- Where nothing but the sentinel is a destination, nothing is sent. -/
theorem notifyOtherNodes_eq_nil (message : Framing.Message Table)
    (h : ∀ e ∈ r.routeTable, e.dest = 0xFFFFFFFF) : r.notifyOtherNodes message = [] := by
  have hnone : changes (-1) r.dests = [] := by
    refine changes_of_all_eq fun d hd => ?_
    obtain ⟨e, he, rfl⟩ := mem_dests.mp hd
    exact h e he
  rw [notifyOtherNodes_eq, hnone]
  rfl

/-- Where the changes are the destinations, without repetition, each of them is notified. -/
theorem notifies_of_changes (message : Framing.Message Table)
    (hnodup : (changes (-1) r.dests).Nodup) (hmem : ∀ d, d ∈ changes (-1) r.dests ↔ d ∈ r.dests) :
    Notifies r message (r.notifyOtherNodes message) := by
  rw [notifyOtherNodes_eq]
  have hdests := map_dest_filterMap_send message fun d hd => (hmem d).mp hd
  constructor
  case once => rwa [hdests]
  case every => exact fun d => by rw [hdests, hmem, mem_dests]
  all_goals
    intro x hx
    obtain ⟨d, -, hsend⟩ := List.mem_filterMap.mp hx
    obtain ⟨hmessage, hheader, e, he, hd, hconnection, hleast⟩ := send_spec hsend
    have hdest : x.header.dest = d := by rw [hheader]
  case addressed => exact ⟨hmessage, by rw [hdest, hheader]⟩
  case cheapest =>
    refine ⟨e, he, hd.trans hdest.symm, hconnection, fun e' he' hd' => ?_⟩
    have hkey := hleast e' he' (hd'.trans hd)
    exact ⟨Route.cost_le_of_key_le hd'.symm hkey, hkey⟩

/-- **Every node is notified once**, unless the only destination is `-1`. -/
theorem notifyOtherNodes_iff (r : Router) (message : Framing.Message Table) :
    Notifies r message (r.notifyOtherNodes message) ↔
      r.routeTable.toList = [] ∨ ∃ e ∈ r.routeTable, e.dest ≠ 0xFFFFFFFF := by
  constructor
  · intro h
    by_contra hnot
    obtain ⟨hne, hother⟩ := not_or.mp hnot
    have hnil := notifyOtherNodes_eq_nil message
      fun e he => by_contra fun h => hother ⟨e, he, h⟩
    obtain ⟨e, he⟩ := List.exists_mem_of_ne_nil _ hne
    have hsent := (h.every e.dest).mpr ⟨e, he, rfl⟩
    rw [hnil] at hsent
    cases hsent
  · rintro (hempty | ⟨e, he, hne⟩)
    · have hnone : r.dests = [] := by rw [dests, hempty, List.map_nil]
      exact notifies_of_changes message (hnone ▸ List.nodup_nil) fun d => by rw [hnone]; rfl
    · obtain ⟨hnodup, hmem⟩ := changes_from_last sorted_dests (fun d _ => le_neg_one d)
        ⟨e.dest, mem_dests.mpr ⟨e, he, rfl⟩, hne⟩
      exact notifies_of_changes message hnodup hmem

/-- A router that knows of one node, and its id is `-1`. -/
def knowsOne : Router :=
  ((started 1).integrateRoute ⟨0xFFFFFFFF, 1, [2]⟩ ⟨7, 20, 10⟩).1

def claim : Framing.Message fun _ => Unit := ⟨5, 1, .table .serverClaim ()⟩

theorem onlyNode_not_notified :
    knowsOne.id ≠ 0xFFFFFFFF ∧ (knowsOne.routeTable.routesTo 0xFFFFFFFF).length = 1 ∧
      ¬Notifies knowsOne claim (knowsOne.notifyOtherNodes claim) := by
  refine ⟨by decide, by decide +kernel, fun h => ?_⟩
  have hroute : ∃ e ∈ knowsOne.routeTable, e.dest = 0xFFFFFFFF :=
    RouteTable.hasRouteTo_iff.mp (by decide +kernel)
  have hsent := (h.every _).mpr hroute
  have hnone : (knowsOne.notifyOtherNodes claim).map (fun x => x.header.dest) = [] := by
    decide +kernel
  rw [hnone] at hsent
  cases hsent

end Router

end Synergy
