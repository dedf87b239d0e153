import Mathlib.Algebra.Order.BigOperators.Group.List
import Mathlib.Logic.Relation
import Synergy.Protocol.Machine
import Synergy.Protocol.Process

/-!
# The machine stays in its buffer

The machine with its registers does what `process` does, and on the way it never touches a byte that
is not there. Behind its tag a pattern takes a fixed number of bytes, `Rule.fixed`, and then perhaps
the data that was counted. So a token has one of two lengths, its `data` pointer is set on the first
byte behind the tag or at the end of the token, and `read_from` finds all fields of fixed width and
the length prefix complete: all it can complain about is the data that the prefix announces.
-/

set_option autoImplicit false

namespace Synergy.Protocol

open Lib

/-! ## What `read_from` can throw -/

/-- What a leaf takes before its data. -/
def Leaf.fixed : Leaf → Nat
  | .width n => n
  | .counted _ => 4

def fixedSize (ls : List Leaf) : Nat := (ls.map Leaf.fixed).sum

@[simp] theorem fixedSize_nil : fixedSize [] = 0 := rfl

@[simp] theorem fixedSize_cons (l : Leaf) (ls : List Leaf) :
    fixedSize (l :: ls) = l.fixed + fixedSize ls := rfl

theorem fixedSize_append (ls ls' : List Leaf) :
    fixedSize (ls ++ ls') = fixedSize ls + fixedSize ls' := by
  simp [fixedSize]

/-- The two complaints about data. -/
def DataError (what : String) : Prop :=
  what = "String extends beyond message buffer bounds" ∨
    what = "Array extends beyond message buffer bounds"

/-- Behind the first of two parts there is either nothing, or the first is of fixed width. -/
theorem tailed_append {ls ls' : List Leaf} (h : Tailed (ls ++ ls')) :
    Tailed ls ∧ Tailed ls' ∧
      (ls' = [] ∨ ∀ buf : List UInt8, fixedSize ls ≤ buf.length →
        extent ls buf = some (fixedSize ls)) := by
  induction ls with
  | nil => exact ⟨trivial, h, Or.inr fun _ _ => rfl⟩
  | cons l ls ih =>
    cases l with
    | width n =>
      obtain ⟨hls, hls', hor⟩ := ih h
      refine ⟨hls, hls', hor.imp_right fun hext buf hle => ?_⟩
      rw [fixedSize_cons, Leaf.fixed] at hle ⊢
      have hfits : ¬buf.length < n := by omega
      have hrest : fixedSize ls ≤ (buf.drop n).length := by
        rw [List.length_drop]
        omega
      rw [extent, Leaf.extent, if_neg hfits, Option.bind_some, hext _ hrest, Option.map_some]
    | counted d =>
      have hnil : ls ++ ls' = [] := h
      obtain ⟨hls, hls'⟩ := List.append_eq_nil_iff.mp hnil
      subst hls hls'
      exact ⟨rfl, trivial, Or.inl rfl⟩

/-- Where every field of fixed width and every length prefix is there, only data can be missing. -/
theorem readFrom_error {f : FieldType} {buf : List UInt8} {what : String}
    (htailed : Tailed f.leaves) (hfixed : fixedSize f.leaves ≤ buf.length)
    (h : f.readFrom buf = .error what) : DataError what := by
  induction f generalizing buf with
  | integer t =>
    have hle : t.size ≤ buf.length := hfixed
    obtain ⟨v, hv⟩ := readInt_of_le hle
    rw [FieldType.readFrom, hv] at h
    exact absurd h (by simp)
  | string =>
    have hle : 4 ≤ buf.length := hfixed
    simp only [FieldType.readFrom, readSize_of_le hle, bind, Except.bind, takeExactly] at h
    split at h
    · exact Or.inl (Except.error.inj h).symm
    · exact absurd h (by simp)
  | vector t =>
    have hle : 4 ≤ buf.length := hfixed
    simp only [FieldType.readFrom, readSize_of_le hle, bind, Except.bind,
      FieldType.readElements] at h
    split at h
    · exact Or.inr (Except.error.inj h).symm
    · rename_i hfits
      obtain ⟨vs, hvs⟩ := readEach_of_le _ _ (Nat.not_lt.mp hfits)
      rw [hvs] at h
      exact absurd h (by simp)
  | nil => exact absurd h (by simp [FieldType.readFrom])
  | cons head tail ihHead ihTail =>
    obtain ⟨hhead, htail, hor⟩ := tailed_append htailed
    rw [FieldType.leaves, fixedSize_append] at hfixed
    rw [FieldType.readFrom, readBoth] at h
    cases hread : head.readFrom buf with
    | error w =>
      rw [hread] at h
      cases h
      exact ihHead hhead (by omega) hread
    | ok result =>
      obtain ⟨v, rest⟩ := result
      rw [hread] at h
      -- the first part of a pair has an extent that is known, or nothing of fixed size follows it
      have hrest : fixedSize tail.leaves ≤ rest.length := by
        rcases hor with hnil | hext
        · rw [hnil]
          exact Nat.zero_le _
        · obtain ⟨_, w, hw⟩ := (head.takes buf).1 _ (hext buf (by omega))
          rw [hread] at hw
          cases hw
          rw [List.length_drop]
          omega
      simp only [Except.bind] at h
      cases hread' : tail.readFrom rest with
      | error w =>
        rw [hread'] at h
        cases h
        exact ihTail htail hrest hread'
      | ok result' =>
        rw [hread'] at h
        exact absurd h (by simp)

/-! ## Where a pattern can end -/

namespace Rule

/-- What a pattern takes behind its tag before its data. -/
def fixed (r : Rule) : Nat := fixedSize (r.items.map Item.leaf)

/-- The actions on the transitions behind the tag, up to the data. -/
def actionsBehind (r : Rule) (j : Nat) : List Action :=
  (if j = 0 then [.mdb] else []) ++
    match r.counted with
    | none => []
    | some d =>
      if j + 4 = r.fixed then [.dlenInit, .dsize d]
      else if r.fixed < j + 4 then [.dlenShift, .dlenOr] else []

end Rule

theorem rules_fixedEdges : ∀ r ∈ rules, ∀ j < r.fixed,
    r.edges[r.data + j]? = some { guard := .any, actions := r.actionsBehind j } := by
  decide +kernel

theorem rules_dataEdge : ∀ r ∈ rules, ∀ d ∈ r.counted, 4 ≤ r.fixed ∧
    r.edges[r.data + r.fixed]? = some { guard := .dlenIsSafe, actions := [.skipDataBytes] } := by
  decide +kernel

theorem rules_length : ∀ r ∈ rules, r.edges.length =
    r.data + r.fixed + (if r.counted.isSome then 1 else 0) := by decide +kernel

theorem rules_items : ∀ r ∈ rules, r.items = [] ↔ r.fixed = 0 := by decide +kernel

/-- The size of an element is small enough for no product to overflow. -/
theorem rules_counted : ∀ r ∈ rules, ∀ d ∈ r.counted, d ≤ 4 := by decide +kernel

theorem rules_nodup : rules.Nodup := by decide +kernel

theorem tagEdge {r : Rule} {i : Nat} (h : i < r.data) :
    r.edges[i]? = some { guard := .byte (bytesOf r.tag)[i] r.cond, actions := [] } := by
  have hlen : i < r.tagEdges.length := by rwa [Rule.tagEdges, List.length_map]
  rw [Rule.edges, List.getElem?_append_left hlen, Rule.tagEdges, List.getElem?_map,
    List.getElem?_eq_getElem h, Option.map_some]

theorem final_iff {r : Rule} (hr : r ∈ rules) {i : Nat} : r.final i ↔
    i = r.data + r.fixed ∨ (r.counted.isSome ∧ i = r.data + r.fixed + 1) := by
  rw [Rule.final, Bool.or_eq_true, Bool.and_eq_true, decide_eq_true_eq, decide_eq_true_eq,
    rules_length r hr]
  by_cases hcounted : r.counted.isSome = true
  · rw [if_pos hcounted]
    simp only [hcounted, true_and]
    omega
  · simp [hcounted]

/-- The length prefix and the data behind it, where all of the data is there. -/
def dataSize (fixed d : Nat) (buf : List UInt8) : Nat :=
  let n := dlen ((buf.drop (fixed - 4)).take 4)
  if buf.drop fixed ≠ [] ∧ n > 0 ∧ n * d ≤ (buf.drop fixed).length then n * d else 0

theorem getLast_cons_width {item : Item} {w : Nat} (h : item.leaf = .width w)
    (items : List Item) :
    (item :: items).getLast?.bind Item.counted = items.getLast?.bind Item.counted := by
  cases items with
  | nil => cases item <;> simp_all [Item.leaf, Item.counted]
  | cons item' items => simp [List.getLast?_cons_cons]

theorem four_le_of_counted {items : List Item} {d : Nat}
    (h : items.getLast?.bind Item.counted = some d) : 4 ≤ fixedSize (items.map Item.leaf) := by
  obtain ⟨item, hlast, hcounted⟩ := Option.bind_eq_some_iff.mp h
  have hleaf : item.leaf.fixed = 4 := by
    cases item <;> simp_all [Item.leaf, Item.counted, Leaf.fixed]
  have hmem : item.leaf.fixed ∈ (items.map Item.leaf).map Leaf.fixed :=
    List.mem_map_of_mem (List.mem_map_of_mem (List.mem_of_getLast? hlast))
  rw [← hleaf]
  exact List.le_sum_of_mem hmem

/-- Too short for the fixed part: no match. -/
theorem endsOf_short {items : List Item} (htailed : Tailed (items.map Item.leaf))
    {buf : List UInt8} (h : buf.length < fixedSize (items.map Item.leaf)) :
    endsOf items buf = [] := by
  induction items generalizing buf with
  | nil => exact absurd h (Nat.not_lt_zero _)
  | cons item items ih =>
    cases hleaf : item.leaf with
    | width w =>
      simp only [List.map_cons, hleaf, Tailed, fixedSize_cons, Leaf.fixed] at htailed h
      rw [endsOf_width hleaf]
      split
      · rfl
      · rw [ih htailed (by rw [List.length_drop]; omega), List.map_nil]
    | counted d =>
      simp only [List.map_cons, hleaf, Tailed, List.map_eq_nil_iff] at htailed
      subst htailed
      have hfew : buf.length < 4 := by simpa [hleaf, Leaf.fixed] using h
      rw [endsOf_counted hleaf, counted, if_pos hfew]

theorem counted_max (d : Nat) {buf : List UInt8} (h : 4 ≤ buf.length) :
    4 + dataSize 4 d buf ∈ counted d buf ∧ ∀ m ∈ counted d buf, m ≤ 4 + dataSize 4 d buf := by
  rw [counted, if_neg (Nat.not_lt.mpr h)]
  simp only [dataSize, Nat.sub_self, List.drop_zero]
  split
  · simp
  · simp

/-- The longest match of items is their fixed part and then the data, if it can be skipped. -/
theorem endsOf_max {items : List Item} (htailed : Tailed (items.map Item.leaf))
    {buf : List UInt8} (h : fixedSize (items.map Item.leaf) ≤ buf.length) {n : Nat}
    (hn : n = fixedSize (items.map Item.leaf) + ((items.getLast?.bind Item.counted).map
      fun d => dataSize (fixedSize (items.map Item.leaf)) d buf).getD 0) :
    n ∈ endsOf items buf ∧ ∀ m ∈ endsOf items buf, m ≤ n := by
  induction items generalizing buf n with
  | nil =>
    subst hn
    simp [endsOf]
  | cons item items ih =>
    cases hleaf : item.leaf with
    | width w =>
      rw [getLast_cons_width hleaf] at hn
      simp only [List.map_cons, hleaf, Tailed, fixedSize_cons, Leaf.fixed] at htailed h hn
      have hrest : fixedSize (items.map Item.leaf) ≤ (buf.drop w).length := by
        rw [List.length_drop]
        omega
      -- the data stands where it stands for the items behind this one
      have hdata : (items.getLast?.bind Item.counted).map
            (fun d => dataSize (w + fixedSize (items.map Item.leaf)) d buf) =
          (items.getLast?.bind Item.counted).map
            fun d => dataSize (fixedSize (items.map Item.leaf)) d (buf.drop w) := by
        cases hlast : items.getLast?.bind Item.counted with
        | none => rfl
        | some d =>
          have hfour := four_le_of_counted hlast
          simp only [Option.map_some, dataSize, List.drop_drop, Nat.add_sub_assoc hfour]
      rw [hdata, Nat.add_assoc] at hn
      rw [hn]
      exact endsOf_width_max hleaf (by omega) (ih htailed hrest rfl)
    | counted d =>
      simp only [List.map_cons, hleaf, Tailed, List.map_eq_nil_iff] at htailed
      subst htailed
      have hcounted : item.counted = some d := by
        cases item <;> simp_all [Item.leaf, Item.counted]
      have hfixed : fixedSize ([item].map Item.leaf) = 4 := by simp [hleaf, Leaf.fixed]
      rw [hfixed] at h hn
      have heq : n = 4 + dataSize 4 d buf := by simpa [hcounted] using hn
      rw [heq, endsOf_counted hleaf]
      exact counted_max d h

/-- The token of a rule whose tag is at the front. -/
theorem token_of_fixed {flow : Flow} {r : Rule} (hr : r ∈ rules) (hcond : r.cond.holds flow)
    {data : List UInt8} (h : r.fixed ≤ data.length) :
    token flow (bytesOf r.tag ++ data) = some (r, r.data + (r.fixed +
      (r.counted.map fun d => dataSize r.fixed d data).getD 0)) := by
  have htailed := (rules_leaves r hr).2
  rw [← (rules_leaves r hr).1] at htailed
  obtain ⟨hmem, hmax⟩ := endsOf_max htailed h rfl
  exact token_of_max hr hcond hmem hmax

theorem token_of_short {flow : Flow} {r : Rule} (hr : r ∈ rules) (hcond : r.cond.holds flow)
    {data : List UInt8} (h : data.length < r.fixed) :
    token flow (bytesOf r.tag ++ data) = none := by
  have htailed := (rules_leaves r hr).2
  rw [← (rules_leaves r hr).1] at htailed
  apply longest_eq_none.mpr
  intro r' hr'
  by_cases hne : r' = r
  · rw [hne, ends_of_tag hcond, endsOf_short htailed h, List.map_nil]
  · exact ends_eq_nil_of_ne hr hr' hcond (List.prefix_append _ _) hne

/-! ## The length prefix -/

theorem dlen_concat {bytes : List UInt8} (h : bytes ≠ []) (b : UInt8) :
    dlen (bytes ++ [b]) = dlen bytes <<< 8 ||| b.toNat := by
  cases bytes with
  | nil => exact absurd rfl h
  | cons fc fcs => simp [dlen, List.foldl_append]

theorem dlen_lt (bytes : List UInt8) : dlen bytes < 256 ^ bytes.length := by
  rw [dlen_eq_ofBytes]
  exact BigEndian.ofBytes_lt bytes

/-- One more byte of the prefix, which does not overflow. -/
theorem dlen_shift {bytes : List UInt8} (h : bytes ≠ []) (hlen : bytes.length ≤ 3) (b : UInt8) :
    (dlen bytes <<< 8) % 2 ^ 64 ||| b.toNat = dlen (bytes ++ [b]) := by
  have hlt : dlen bytes < 256 ^ 3 :=
    lt_of_lt_of_le (dlen_lt bytes) (Nat.pow_le_pow_right (by decide) hlen)
  have hshift : dlen bytes <<< 8 < 2 ^ 64 := by
    rw [Nat.shiftLeft_eq]
    omega
  rw [dlen_concat h, Nat.mod_eq_of_lt hshift]

/-- What the actions behind the tag leave in the registers. -/
theorem run_actionsBehind (fc : UInt8) (x : Registers) (r : Rule) (j : Nat) :
    let y := (r.actionsBehind j).foldl (Action.run fc) x
    y.p = x.p ∧ y.skips = x.skips ∧ y.data = (if j = 0 then some x.p else x.data) ∧
    ∀ d ∈ r.counted, (j + 4 = r.fixed → y.dsize = d ∧ y.dlen = fc.toNat) ∧
      (r.fixed < j + 4 → y.dsize = x.dsize ∧ y.dlen = (x.dlen <<< 8) % 2 ^ 64 ||| fc.toNat) := by
  unfold Rule.actionsBehind
  cases r.counted with
  | none =>
    by_cases hj : j = 0
    · simp [hj, Action.run]
    · simp [hj]
  | some d =>
    rcases Nat.lt_trichotomy (j + 4) r.fixed with hlt | heq | hgt
    · have hne : j + 4 ≠ r.fixed := by omega
      have hnot : ¬r.fixed < j + 4 := by omega
      by_cases hj : j = 0
      · subst hj
        simp [hne, hnot, Action.run]
      · simp [hj, hne, hnot]
    · have hnot : ¬r.fixed < j + 4 := by omega
      by_cases hj : j = 0
      · subst hj
        simp [heq, Action.run]
      · simp [hj, heq, Action.run]
    · have hne : j + 4 ≠ r.fixed := by omega
      by_cases hj : j = 0
      · subst hj
        simp [hne, hgt, Action.run]
      · simp [hj, hne, hgt, Action.run]

/-! ## Steps of the machine -/

namespace Machine

/-- What the machine has done to memory so far is in order. -/
structure Safe (size : Nat) (s : Machine) : Prop where
  examined : ∀ i ∈ s.examined, i < size
  skips : ∀ q ∈ s.regs.skips, q < size
  reads : ∀ c ∈ s.reads, c.header < c.data ∧ c.data ≤ c.stop ∧ c.stop ≤ size

/-- One step of a machine that has not stopped. -/
def Next (flow : Flow) (handle : Handle) (msg : List UInt8) (s s' : Machine) : Prop :=
  s.exit = none ∧ s' = s.step flow handle msg

abbrev Steps (flow : Flow) (handle : Handle) (msg : List UInt8) : Machine → Machine → Prop :=
  Relation.ReflTransGen (Next flow handle msg)

/-- Within the token that starts in `s₀`, after `i` transitions and at `p`. -/
structure Within (msg : List UInt8) (s₀ : Machine) (i p : Nat) (s : Machine) : Prop where
  exit : s.exit = none
  ts : s.ts = s₀.ts
  calls : s.calls = s₀.calls
  index : s.index = i
  le : p ≤ msg.length
  p : s.regs.p = p
  safe : s.Safe msg.length

variable {flow : Flow} {handle : Handle} {msg : List UInt8} {s₀ s : Machine} {i p : Nat}

/-- The machine has looked at the byte at `p`. -/
def look (s : Machine) : Machine := { s with examined := s.examined ++ [s.regs.p] }

namespace Within

theorem look (h : Within msg s₀ i p s) (hp : p < msg.length) : Within msg s₀ i p s.look := by
  refine ⟨h.exit, h.ts, h.calls, h.index, h.le, h.p, fun j hj => ?_, h.safe.skips, h.safe.reads⟩
  rcases List.mem_append.mp hj with hj | hj
  · exact h.safe.examined j hj
  · rw [List.mem_singleton.mp hj, h.p]
    exact hp

theorem step_atEnd (h : Within msg s₀ i p s) (hp : p = msg.length) (hi : i ≠ 0) :
    s.step flow handle msg = s.fallBack handle msg := by
  rw [step, if_pos (by rw [h.p, hp]), if_neg (by rw [h.index]; exact hi)]

theorem step_stuck (h : Within msg s₀ i p s) (hp : p < msg.length)
    (hnone : s.takers flow msg msg[p] = []) :
    s.step flow handle msg = s.look.fallBack handle msg := by
  have hget : msg[s.regs.p]? = some msg[p] := by rw [h.p, List.getElem?_eq_getElem hp]
  have hlook : ({ s with examined := s.examined ++ [s.regs.p] } : Machine).takers flow msg msg[p] =
      [] := hnone
  rw [step, if_neg (by rw [h.p]; omega), hget]
  simp only [hlook, if_true]
  rfl

theorem step_take (h : Within msg s₀ i p s) (hp : p < msg.length)
    (hne : s.takers flow msg msg[p] ≠ []) :
    s.step flow handle msg = s.look.take msg[p] (s.takers flow msg msg[p]) := by
  have hget : msg[s.regs.p]? = some msg[p] := by rw [h.p, List.getElem?_eq_getElem hp]
  have hlook : ({ s with examined := s.examined ++ [s.regs.p] } : Machine).takers flow msg msg[p] =
      s.takers flow msg msg[p] := rfl
  rw [step, if_neg (by rw [h.p]; omega), hget]
  simp only [hlook, if_neg hne]
  rfl

end Within

/-- Without a match the machine stops. -/
theorem fallBack_of_none (h : s.matched = none) :
    s.fallBack handle msg = { s with exit := some (.returned false) } := by
  rw [fallBack, h]

theorem fallBack_of_some {r : Rule} {data te : Nat} (h : s.matched = some (r, te))
    (hdata : (if r.items = [] then some s.regs.p else s.regs.data) = some data) :
    s.fallBack handle msg =
      ({ s with regs := { s.regs with data := some data } }).proc handle msg r data te := by
  rw [fallBack, h]
  simp only [hdata]

theorem mem_takers {r : Rule} {fc : UInt8} : r ∈ s.takers flow msg fc ↔
    r ∈ s.active ∧ ∃ e, r.edges[s.index]? = some e ∧ e.guard.holds flow msg.length fc s.regs := by
  rw [takers, List.mem_filter, Option.any_eq_true]

/-! ### In the tag -/

/-- The patterns in play are those whose tag has been followed so far. -/
structure InTag (flow : Flow) (msg : List UInt8) (s₀ : Machine) (i : Nat) (s : Machine) : Prop
    extends Within msg s₀ i (s₀.ts + i) s where
  sound : ∀ r ∈ s.active, r ∈ rules ∧ (bytesOf r.tag).take i <+: msg.drop s₀.ts ∧
    (0 < i → r.cond.holds flow)
  complete : ∀ r ∈ rules, r.cond.holds flow → i ≤ r.data →
    (bytesOf r.tag).take i <+: msg.drop s₀.ts → r ∈ s.active
  nodup : s.active.Nodup

theorem prefix_take_succ {l input : List UInt8} {i : Nat} (h : i < l.length) :
    l.take (i + 1) <+: input ↔ l.take i <+: input ∧ input[i]? = some l[i] := by
  rw [List.prefix_iff_getElem?, List.prefix_iff_getElem?]
  simp only [List.length_take, List.getElem_take]
  constructor
  · intro hall
    exact ⟨fun j hj => hall j (by omega), hall i (by omega)⟩
  · rintro ⟨hall, hlast⟩ j hj
    rcases Nat.lt_or_ge j i with hlt | hge
    · exact hall j (by omega)
    · obtain rfl : j = i := by omega
      exact hlast

/-- Among the patterns in play, one whose tag has ended is the only one there can be. -/
theorem InTag.eq_or_lt (h : InTag flow msg s₀ i s) {r r' : Rule} (hr : r ∈ rules)
    (hcond : r.cond.holds flow) (htag : bytesOf r.tag <+: msg.drop s₀.ts) (hr' : r' ∈ s.active) :
    r' = r ∨ i < r'.data := by
  by_contra hnot
  obtain ⟨hne, hdata⟩ := not_or.mp hnot
  obtain ⟨hmem, htake, hcond'⟩ := h.sound r' hr'
  have hpos := rules_tag_ne_nil r' hmem
  have hends : r'.ends flow (msg.drop s₀.ts) = [] := by
    obtain ⟨rest, hrest⟩ := htag
    rw [← hrest]
    exact ends_eq_nil_of_ne hr hmem hcond (List.prefix_append _ _) hne
  rw [List.take_of_length_le (Nat.not_lt.mp hdata)] at htake
  rcases List.prefix_or_prefix_of_prefix htag htake with hpre | hpre
  · exact hne (rules_prefix_free flow (mem_flows flow) r hr r' hmem hcond
      (hcond' (by omega)) hpre).symm
  · exact hne (rules_prefix_free flow (mem_flows flow) r' hmem r hr (hcond' (by omega)) hcond hpre)

theorem getElem_drop_ts (hp : s₀.ts + i < msg.length) :
    (msg.drop s₀.ts)[i]? = some msg[s₀.ts + i] := by
  rw [List.getElem?_drop, List.getElem?_eq_getElem hp]

/-- The patterns that go on are those whose next byte is there. -/
theorem InTag.mem_takers (h : InTag flow msg s₀ i s) (hlt : ∀ r ∈ s.active, i < r.data)
    (hp : s₀.ts + i < msg.length) {r : Rule} : r ∈ s.takers flow msg msg[s₀.ts + i] ↔
      r ∈ s.active ∧ r.cond.holds flow ∧ (bytesOf r.tag).take (i + 1) <+: msg.drop s₀.ts := by
  rw [Machine.mem_takers, h.index]
  refine and_congr_right fun hr => ?_
  have hi : i < (bytesOf r.tag).length := hlt r hr
  rw [tagEdge (hlt r hr), prefix_take_succ hi, getElem_drop_ts hp]
  have htake := (h.sound r hr).2.1
  simp only [Option.some.injEq, exists_eq_left', Guard.holds, Bool.and_eq_true, decide_eq_true_eq,
    htake, true_and]
  exact Iff.rfl

/-- One byte of the tag. -/
theorem InTag.next (h : InTag flow msg s₀ i s) (handle : Handle) (hlt : ∀ r ∈ s.active, i < r.data)
    (hp : s₀.ts + i < msg.length) (hne : s.takers flow msg msg[s₀.ts + i] ≠ []) :
    ∃ s', Next flow handle msg s s' ∧ InTag flow msg s₀ (i + 1) s' ∧
      s'.matched = (((s'.active.find? fun r => r.final (i + 1)).map fun r =>
        (r, s₀.ts + (i + 1))) <|> s.matched) := by
  have hwithin := h.toWithin
  have hactions : ((s.takers flow msg msg[s₀.ts + i]).flatMap fun r =>
      (r.edges[s.look.index]?.map Edge.actions).getD []) = [] := by
    rw [List.flatMap_eq_nil_iff]
    intro r hr
    have hi := hlt r ((h.mem_takers hlt hp).mp hr).1
    show (r.edges[s.index]?.map Edge.actions).getD [] = []
    rw [h.index, tagEdge hi]
    rfl
  have hlook := hwithin.look hp
  refine ⟨_, ⟨h.exit, (hwithin.step_take hp hne).symm⟩, ?_, ?_⟩
  · refine ⟨⟨h.exit, h.ts, h.calls, ?_, hp, ?_, ?_⟩, fun r hr => ?_,
      fun r hr hcond hi htake => ?_, ?_⟩
    · show s.index + 1 = i + 1
      rw [h.index]
    · rw [take, hactions]
      show s.regs.p + 1 = s₀.ts + (i + 1)
      rw [h.p]
      rfl
    · rw [take, hactions]
      exact ⟨hlook.safe.examined, hlook.safe.skips, hlook.safe.reads⟩
    · obtain ⟨hmem, hcond, htake⟩ := (h.mem_takers hlt hp).mp hr
      exact ⟨(h.sound r hmem).1, htake, fun _ => hcond⟩
    · refine (h.mem_takers hlt hp).mpr ⟨h.complete r hr hcond (by omega) ?_, hcond, htake⟩
      have hi' : i < (bytesOf r.tag).length := hi
      exact ((prefix_take_succ hi').mp htake).1
    · exact h.nodup.filter _
  · rw [take, hactions]
    show (Option.map _ _ <|> s.matched) = _
    have hindex : s.look.index = i := h.index
    simp only [List.foldl_nil, hindex]
    have hlp : s.look.regs.p + 1 = s₀.ts + (i + 1) := by
      show s.regs.p + 1 = _
      rw [h.p]
      rfl
    rw [hlp]

/-- A token is about to start. -/
structure AtStart (msg : List UInt8) (s : Machine) : Prop where
  exit : s.exit = none
  p : s.regs.p = s.ts
  le : s.ts ≤ msg.length
  index : s.index = 0
  active : s.active = rules
  matched : s.matched = none

theorem AtStart.inTag (h : AtStart msg s) (hsafe : s.Safe msg.length) :
    InTag flow msg s 0 s := by
  refine ⟨⟨h.exit, rfl, rfl, h.index, h.le, h.p, hsafe⟩, fun r hr => ?_, fun r hr _ _ _ => ?_, ?_⟩
  · rw [h.active] at hr
    exact ⟨hr, List.nil_prefix, fun hpos => absurd hpos (Nat.lt_irrefl 0)⟩
  · rwa [h.active]
  · rw [h.active]
    exact rules_nodup

/-- The machine stops and returns false, and hands over nothing more. -/
def Stops (flow : Flow) (handle : Handle) (msg : List UInt8) (calls : List Message)
    (s : Machine) : Prop :=
  ∃ f, Steps flow handle msg s f ∧ f.exit = some (.returned false) ∧ f.calls = calls ∧
    f.Safe msg.length

/-- Without a match, where there is nothing to take. -/
theorem Within.stops (h : Within msg s₀ i p s) (hmatched : s.matched = none)
    (hi : i ≠ 0 ∨ p < msg.length)
    (hstuck : ∀ hp : p < msg.length, s.takers flow msg msg[p] = []) :
    Stops flow handle msg s₀.calls s := by
  rcases Nat.lt_or_ge p msg.length with hp | hp
  · refine ⟨_, .single ⟨h.exit, rfl⟩, ?_⟩
    rw [h.step_stuck hp (hstuck hp), fallBack_of_none (s := s.look) hmatched]
    have hlook := h.look hp
    exact ⟨rfl, h.calls, hlook.safe.examined, hlook.safe.skips, hlook.safe.reads⟩
  · have hlast : p = msg.length := Nat.le_antisymm h.le hp
    refine ⟨_, .single ⟨h.exit, rfl⟩, ?_⟩
    rw [h.step_atEnd hlast (hi.resolve_right (Nat.not_lt.mpr hp)), fallBack_of_none hmatched]
    exact ⟨rfl, h.calls, h.safe.examined, h.safe.skips, h.safe.reads⟩

theorem Next.stops {s' : Machine} {calls : List Message} (h : Next flow handle msg s s')
    (hstops : Stops flow handle msg calls s') : Stops flow handle msg calls s := by
  obtain ⟨f, hsteps, hf⟩ := hstops
  exact ⟨f, .head h hsteps, hf⟩

/-- Nothing of the flow is at the front: the machine stops before it has matched anything. -/
theorem InTag.stops (h : InTag flow msg s₀ i s) (hmatched : s.matched = none)
    (hne : s₀.ts < msg.length)
    (hnone : ∀ r ∈ rules, r.cond.holds flow → ¬bytesOf r.tag <+: msg.drop s₀.ts) :
    Stops flow handle msg s₀.calls s := by
  induction hn : msg.length - (s₀.ts + i) generalizing i s with
  | zero =>
    have hle := h.le
    exact h.toWithin.stops hmatched (Or.inl (by omega)) fun hp => absurd hp (by omega)
  | succ n ih =>
    have hp : s₀.ts + i < msg.length := by omega
    -- a tag that has ended would be at the front
    have hlt : ∀ r ∈ s.active, i < r.data := by
      intro r hr
      by_contra hge
      obtain ⟨hmem, htake, hcond⟩ := h.sound r hr
      have hpos := rules_tag_ne_nil r hmem
      rw [List.take_of_length_le (Nat.not_lt.mp hge)] at htake
      exact hnone r hmem (hcond (by omega)) htake
    by_cases hstuck : s.takers flow msg msg[s₀.ts + i] = []
    · exact h.toWithin.stops hmatched (Or.inr hp) fun _ => hstuck
    · obtain ⟨s', hnext, hin, hmatched'⟩ := h.next handle hlt hp hstuck
      have hnot : (s'.active.find? fun r => r.final (i + 1)) = none := by
        rw [List.find?_eq_none]
        intro r hr hfinal
        obtain ⟨hmem, htake, hcond⟩ := hin.sound r hr
        have hle : r.data ≤ i + 1 := by
          rcases (final_iff hmem).mp hfinal with heq | ⟨-, heq⟩ <;> omega
        rw [List.take_of_length_le hle] at htake
        exact hnone r hmem (hcond (by omega)) htake
      rw [hnot, hmatched] at hmatched'
      exact hnext.stops (ih hin hmatched' (by omega))

/-- The machine follows the tag that is at the front. -/
theorem AtStart.front (h : AtStart msg s₀) (handle : Handle) (hsafe : s₀.Safe msg.length) {r : Rule}
    (hr : r ∈ rules) (hcond : r.cond.holds flow) (htag : bytesOf r.tag <+: msg.drop s₀.ts)
    (hi : i ≤ r.data) : ∃ s, Steps flow handle msg s₀ s ∧ InTag flow msg s₀ i s ∧
      s.matched = if i = r.data ∧ r.fixed = 0 then some (r, s₀.ts + i) else none := by
  induction i with
  | zero =>
    have hpos := rules_tag_ne_nil r hr
    refine ⟨s₀, .refl, h.inTag hsafe, ?_⟩
    rw [if_neg (by omega), h.matched]
  | succ i ih =>
    obtain ⟨s, hsteps, hin, hmatched⟩ := ih (by omega)
    have hlen : (bytesOf r.tag).length ≤ (msg.drop s₀.ts).length := htag.length_le
    have hdata : r.data = (bytesOf r.tag).length := rfl
    rw [List.length_drop] at hlen
    have hp : s₀.ts + i < msg.length := by omega
    -- no other rule has come to the end of its tag, since no tag is a prefix of another
    have hlt : ∀ r' ∈ s.active, i < r'.data := by
      intro r' hr'
      rcases hin.eq_or_lt hr hcond htag hr' with rfl | hlt
      · exact hi
      · exact hlt
    have hmem : r ∈ s.takers flow msg msg[s₀.ts + i] := by
      have htake : ∀ k, (bytesOf r.tag).take k <+: msg.drop s₀.ts := fun k =>
        (List.take_prefix k _).trans htag
      exact (hin.mem_takers hlt hp).mpr
        ⟨hin.complete r hr hcond (by omega) (htake i), hcond, htake (i + 1)⟩
    obtain ⟨s', hnext, hin', hmatched'⟩ :=
      hin.next handle hlt hp (List.ne_nil_of_mem hmem)
    refine ⟨s', hsteps.tail hnext, hin', ?_⟩
    rw [if_neg (by omega)] at hmatched
    -- a rule can end here only if it has no fields
    have honly : ∀ r' ∈ s'.active, r'.final (i + 1) → r' = r ∧ i + 1 = r.data ∧ r.fixed = 0 := by
      intro r' hr' hfinal
      have hends := (final_iff (hin'.sound r' hr').1).mp hfinal
      rcases hin'.eq_or_lt hr hcond htag hr' with rfl | hlt'
      · rcases hends with heq | ⟨-, heq⟩
        · exact ⟨rfl, by omega, by omega⟩
        · exact absurd heq (by omega)
      · rcases hends with heq | ⟨-, heq⟩ <;> omega
    rw [hmatched', hmatched]
    cases hfind : s'.active.find? fun r' => r'.final (i + 1) with
    | some r' =>
      obtain ⟨rfl, hends⟩ := honly r' (List.mem_of_find?_eq_some hfind)
        (List.find?_some (p := fun r' : Rule => r'.final (i + 1)) hfind)
      rw [if_pos hends]
      rfl
    | none =>
      rw [if_neg]
      · rfl
      · rintro ⟨hlast, hfixed⟩
        have htake : (bytesOf r.tag).take (i + 1) <+: msg.drop s₀.ts :=
          (List.take_prefix _ _).trans htag
        have hactive : r ∈ s'.active := hin'.complete r hr hcond hi htake
        refine List.find?_eq_none.mp hfind r hactive ?_
        exact (final_iff hr).mpr (Or.inl (by omega))

/-! ### Behind the tag -/

/-- The bytes behind the tag. -/
def behind (msg : List UInt8) (s₀ : Machine) (r : Rule) : List UInt8 :=
  (msg.drop s₀.ts).drop r.data

/-- `j` transitions behind the tag of the only pattern in play. -/
structure InFields (msg : List UInt8) (s₀ : Machine) (r : Rule) (j : Nat) (s : Machine) : Prop
    extends Within msg s₀ (r.data + j) (s₀.ts + (r.data + j)) s where
  active : s.active = [r]
  data : 0 < j → s.regs.data = some (s₀.ts + r.data)
  /-- The length prefix, as far as it has been read. -/
  dlen : ∀ d ∈ r.counted, r.fixed < j + 4 → s.regs.dsize = d ∧
    s.regs.dlen = Protocol.dlen (((behind msg s₀ r).drop (r.fixed - 4)).take (j + 4 - r.fixed))
  matched : s.matched = if j = r.fixed then some (r, s₀.ts + (r.data + j)) else none

/-- Of the patterns in play at the end of a tag only one is left. -/
theorem InTag.active_eq (h : InTag flow msg s₀ i s) {r : Rule} (hr : r ∈ rules)
    (hcond : r.cond.holds flow) (htag : bytesOf r.tag <+: msg.drop s₀.ts) (hi : i = r.data) :
    s.active = [r] := by
  subst hi
  have hpos := rules_tag_ne_nil r hr
  have htake : (bytesOf r.tag).take r.data = bytesOf r.tag := List.take_length
  have hmem : r ∈ s.active := h.complete r hr hcond le_rfl (by rwa [htake])
  have hall : ∀ r' ∈ s.active, r' = r := by
    intro r' hr'
    refine (h.eq_or_lt hr hcond htag hr').resolve_right fun hlt => ?_
    obtain ⟨hmem', htake', hcond'⟩ := h.sound r' hr'
    have hlen : (bytesOf r.tag).length ≤ ((bytesOf r'.tag).take r.data).length := by
      have hr'len : r'.data = (bytesOf r'.tag).length := rfl
      have hrlen : r.data = (bytesOf r.tag).length := rfl
      rw [List.length_take]
      omega
    have hpre := (List.prefix_of_prefix_length_le htag htake' hlen).trans (List.take_prefix _ _)
    have heq := rules_prefix_free flow (mem_flows flow) r hr r' hmem' hcond (hcond' hpos) hpre
    rw [heq] at hlt
    exact absurd hlt (Nat.lt_irrefl _)
  have hnodup := h.nodup
  match hactive : s.active with
  | [] =>
    rw [hactive] at hmem
    exact absurd hmem List.not_mem_nil
  | [r'] => rw [hall r' (by simp [hactive])]
  | r₁ :: r₂ :: rest =>
    rw [hactive] at hnodup
    have heq : r₁ = r₂ :=
      (hall r₁ (by simp [hactive])).trans (hall r₂ (by simp [hactive])).symm
    rw [heq] at hnodup
    exact absurd hnodup (by simp)

theorem InTag.inFields (h : InTag flow msg s₀ i s) {r : Rule} (hr : r ∈ rules)
    (hcond : r.cond.holds flow) (htag : bytesOf r.tag <+: msg.drop s₀.ts) (hi : i = r.data)
    (hmatched : s.matched = if i = r.data ∧ r.fixed = 0 then some (r, s₀.ts + i) else none) :
    InFields msg s₀ r 0 s := by
  have hactive := h.active_eq hr hcond htag hi
  subst hi
  refine ⟨h.toWithin, hactive, fun hpos => absurd hpos (Nat.lt_irrefl 0), fun d hd hlt => ?_, ?_⟩
  · have hfour := (rules_dataEdge r hr d hd).1
    omega
  · rw [hmatched]
    by_cases hfixed : r.fixed = 0
    · simp [hfixed]
    · rw [if_neg fun hc => hfixed hc.2, if_neg (Ne.symm hfixed)]

/-- One more byte of what lies behind the tag. -/
theorem behind_take {r : Rule} {a j : Nat} (ha : a ≤ j)
    (hp : s₀.ts + (r.data + j) < msg.length) :
    ((behind msg s₀ r).drop a).take (j + 1 - a) =
      ((behind msg s₀ r).drop a).take (j - a) ++ [msg[s₀.ts + (r.data + j)]] := by
  have hget : ((behind msg s₀ r).drop a)[j - a]? = some msg[s₀.ts + (r.data + j)] := by
    have hindex : s₀.ts + (r.data + (a + (j - a))) = s₀.ts + (r.data + j) := by omega
    rw [behind, List.getElem?_drop, List.getElem?_drop, List.getElem?_drop, hindex,
      List.getElem?_eq_getElem hp]
  rw [Nat.sub_add_comm ha, List.take_add_one, hget, Option.toList_some]

/-- The length register after one more byte: the first byte of the prefix sets it, a later one is
appended. -/
theorem InFields.dlen_next {r : Rule} {j : Nat} (h : InFields msg s₀ r j s) (hr : r ∈ rules)
    (hj : j < r.fixed) (hp : s₀.ts + (r.data + j) < msg.length) {d : Nat} (hd : d ∈ r.counted)
    (hlt : r.fixed < j + 1 + 4) :
    let y := (r.actionsBehind j).foldl (Action.run msg[s₀.ts + (r.data + j)]) s.look.regs
    y.dsize = d ∧ y.dlen =
      Protocol.dlen (((behind msg s₀ r).drop (r.fixed - 4)).take (j + 1 + 4 - r.fixed)) := by
  have hfour := (rules_dataEdge r hr d hd).1
  have hlength : j + 1 + 4 - r.fixed = j + 1 - (r.fixed - 4) := by omega
  obtain ⟨-, -, -, hrdlen⟩ :=
    run_actionsBehind msg[s₀.ts + (r.data + j)] s.look.regs r j
  dsimp only
  rw [hlength, behind_take (by omega) hp]
  rcases Nat.lt_or_ge r.fixed (j + 4) with hlater | hfirst
  · obtain ⟨hdsize, hdlen⟩ := h.dlen d hd hlater
    obtain ⟨hrsize, hrshift⟩ := (hrdlen d hd).2 hlater
    have hbefore : j + 4 - r.fixed = j - (r.fixed - 4) := by omega
    rw [hbefore] at hdlen
    refine ⟨hrsize.trans hdsize, hrshift.trans ?_⟩
    have hlook' : s.look.regs.dlen = s.regs.dlen := rfl
    rw [hlook', hdlen]
    refine dlen_shift (fun hnil => ?_) ?_ _
    · have hlen := congrArg List.length hnil
      rw [List.length_take, List.length_drop, behind, List.length_drop, List.length_drop,
        List.length_nil] at hlen
      omega
    · rw [List.length_take]
      omega
  · obtain ⟨hrsize, hrfirst⟩ := (hrdlen d hd).1 (by omega)
    have hnone : j - (r.fixed - 4) = 0 := by omega
    rw [hnone]
    exact ⟨hrsize, hrfirst⟩

/-- The next state is final where the fixed part ends, and nothing has been matched before. -/
theorem InFields.final_next {r : Rule} {j : Nat} (h : InFields msg s₀ r j s) (hr : r ∈ rules)
    (hj : j < r.fixed) :
    s.look.matched = none ∧ (r.final (s.look.index + 1) ↔ j + 1 = r.fixed) := by
  constructor
  · show s.matched = none
    rw [h.matched, if_neg (Nat.ne_of_lt hj)]
  · have hindex : s.look.index + 1 = r.data + (j + 1) := by
      show s.index + 1 = _
      rw [h.index]
      rfl
    rw [hindex, final_iff hr]
    omega

/-- One transition behind the tag. -/
theorem InFields.next {r : Rule} {j : Nat} (h : InFields msg s₀ r j s) (flow : Flow)
    (handle : Handle) (hr : r ∈ rules)
    (hj : j < r.fixed) (hp : s₀.ts + (r.data + j) < msg.length) :
    ∃ s', Next flow handle msg s s' ∧ InFields msg s₀ r (j + 1) s' := by
  have hwithin := h.toWithin
  have hedge := rules_fixedEdges r hr j hj
  have htakers : s.takers flow msg msg[s₀.ts + (r.data + j)] = [r] := by
    simp [takers, h.active, h.index, hedge, Guard.holds]
  have hactions : ([r].flatMap fun r' => (r'.edges[s.look.index]?.map Edge.actions).getD []) =
      r.actionsBehind j := by
    have hindex : s.look.index = r.data + j := h.index
    rw [hindex, List.flatMap_singleton, hedge]
    rfl
  obtain ⟨hrp, hrskips, hrdata, -⟩ :=
    run_actionsBehind msg[s₀.ts + (r.data + j)] s.look.regs r j
  have hlook := hwithin.look hp
  have hlp : s.look.regs.p = s₀.ts + (r.data + j) := h.p
  refine ⟨_, ⟨h.exit, (hwithin.step_take hp (by rw [htakers]; simp)).symm⟩, ?_⟩
  rw [htakers, take, hactions]
  refine ⟨⟨h.exit, h.ts, h.calls, ?_, hp, ?_, ?_⟩, rfl, fun _ => ?_,
    fun d hd hlt => h.dlen_next hr hj hp hd hlt, ?_⟩
  · show s.index + 1 = r.data + (j + 1)
    rw [h.index]
    rfl
  · dsimp only
    rw [hrp, hlp]
    rfl
  · refine ⟨hlook.safe.examined, ?_, hlook.safe.reads⟩
    dsimp only
    rw [hrskips]
    exact hlook.safe.skips
  · dsimp only
    rw [hrdata]
    by_cases hzero : j = 0
    · rw [if_pos hzero, hlp, hzero]
      rfl
    · rw [if_neg hzero]
      exact h.data (Nat.pos_of_ne_zero hzero)
  · obtain ⟨hnot, hfinal⟩ := h.final_next hr hj
    dsimp only
    rw [hnot, hrp, hlp, List.find?_singleton]
    by_cases hlast : j + 1 = r.fixed
    · rw [if_pos hlast, if_pos (hfinal.mpr hlast)]
      rfl
    · rw [if_neg hlast, if_neg fun hc => hlast (hfinal.mp hc)]
      rfl

/-- The machine reads on behind the tag, as far as there are bytes. -/
theorem AtStart.fields (h : AtStart msg s₀) (handle : Handle) (hsafe : s₀.Safe msg.length)
    {r : Rule} (hr : r ∈ rules) (hcond : r.cond.holds flow)
    (htag : bytesOf r.tag <+: msg.drop s₀.ts) {j : Nat} (hj : j ≤ r.fixed)
    (hp : s₀.ts + (r.data + j) ≤ msg.length) :
    ∃ s, Steps flow handle msg s₀ s ∧ InFields msg s₀ r j s := by
  induction j with
  | zero =>
    obtain ⟨s, hsteps, hin, hmatched⟩ := h.front handle hsafe hr hcond htag le_rfl
    exact ⟨s, hsteps, hin.inFields hr hcond htag rfl hmatched⟩
  | succ j ih =>
    obtain ⟨s, hsteps, hin⟩ := ih (by omega) (by omega)
    obtain ⟨s', hnext, hin'⟩ := hin.next flow handle hr hj (by omega)
    exact ⟨s', hsteps.tail hnext, hin'⟩

theorem Steps.stops {s' : Machine} {calls : List Message} (h : Steps flow handle msg s s')
    (hstops : Stops flow handle msg calls s') : Stops flow handle msg calls s := by
  obtain ⟨f, hsteps, hf⟩ := hstops
  exact ⟨f, h.trans hsteps, hf⟩

/-- The input ends before the length prefix or the last field of fixed width does. -/
theorem AtStart.stops_short (h : AtStart msg s₀) (hsafe : s₀.Safe msg.length) {r : Rule}
    (hr : r ∈ rules) (hcond : r.cond.holds flow) (htag : bytesOf r.tag <+: msg.drop s₀.ts)
    (hshort : (behind msg s₀ r).length < r.fixed) : Stops flow handle msg s₀.calls s₀ := by
  have hle : r.data ≤ (msg.drop s₀.ts).length := htag.length_le
  have hpos := rules_tag_ne_nil r hr
  rw [List.length_drop] at hle
  rw [behind, List.length_drop, List.length_drop] at hshort
  have hj : msg.length - s₀.ts - r.data ≤ r.fixed := by omega
  obtain ⟨s, hsteps, hin⟩ := h.fields handle     hsafe hr hcond htag hj (by omega)
  refine Steps.stops hsteps (hin.toWithin.stops ?_ (Or.inl (by omega)) fun hp => absurd hp ?_)
  · rw [hin.matched, if_neg (Nat.ne_of_lt hshort)]
  · omega

/-! ### Back to the match -/

/-- The token of a pattern has been found, and where its data starts. -/
structure Matched (msg : List UInt8) (s₀ : Machine) (r : Rule) (te : Nat) (s : Machine) :
    Prop where
  exit : s.exit = none
  ts : s.ts = s₀.ts
  calls : s.calls = s₀.calls
  matched : s.matched = some (r, te)
  data : (if r.items = [] then some s.regs.p else s.regs.data) = some (s₀.ts + r.data)
  safe : s.Safe msg.length

/-- Where there is nothing to take, the machine falls back to its match. -/
theorem Within.fallsBack (h : Within msg s₀ i p s) (flow : Flow) (handle : Handle) (hi : i ≠ 0)
    (hstuck : ∀ hp : p < msg.length, s.takers flow msg msg[p] = []) {r : Rule} {te : Nat}
    (hmatched : s.matched = some (r, te))
    (hdata : (if r.items = [] then some p else s.regs.data) = some (s₀.ts + r.data)) :
    ∃ s', Matched msg s₀ r te s' ∧ Next flow handle msg s (s'.fallBack handle msg) := by
  rw [← h.p] at hdata
  rcases Nat.lt_or_ge p msg.length with hp | hp
  · have hlook := h.look hp
    exact ⟨s.look, ⟨h.exit, h.ts, h.calls, hmatched, hdata, hlook.safe⟩,
      h.exit, (h.step_stuck hp (hstuck hp)).symm⟩
  · have hlast : p = msg.length := Nat.le_antisymm h.le hp
    exact ⟨s, ⟨h.exit, h.ts, h.calls, hmatched, hdata, h.safe⟩, h.exit,
      (h.step_atEnd hlast hi).symm⟩

/-- `dlen_is_safe` holds where the data is there: the prefix has four bytes, so that the product
does not overflow, and `pe` is not before the byte. -/
theorem dlenIsSafe_dataSize (flow : Flow) (hsize : msg.length < 2 ^ 63) {r : Rule}
    (hr : r ∈ rules) {d : Nat} (hd : d ∈ r.counted) (hin : InFields msg s₀ r r.fixed s)
    (hp : s₀.ts + (r.data + r.fixed) < msg.length) (b : UInt8) :
    (if Guard.dlenIsSafe.holds flow msg.length b s.regs then
        s.regs.dlen * s.regs.dsize % 2 ^ 64 else 0) =
      dataSize r.fixed d (behind msg s₀ r) := by
  have hfour := (rules_dataEdge r hr d hd).1
  obtain ⟨hdsize, hdlen⟩ := hin.dlen d hd (by omega)
  have hbefore : r.fixed + 4 - r.fixed = 4 := by omega
  rw [hbefore] at hdlen
  have hlt : s.regs.dlen < 256 ^ 4 := by
    rw [hdlen]
    refine lt_of_lt_of_le (dlen_lt _) (Nat.pow_le_pow_right (by decide) ?_)
    rw [List.length_take]
    omega
  have hproduct : s.regs.dlen * d < 2 ^ 64 := by
    have hle := Nat.mul_le_mul (Nat.le_of_lt hlt) (rules_counted r hr d hd)
    omega
  have hlength : ((behind msg s₀ r).drop r.fixed).length =
      msg.length - (s₀.ts + (r.data + r.fixed)) := by
    rw [behind, List.length_drop, List.length_drop, List.length_drop]
    omega
  have hne : (behind msg s₀ r).drop r.fixed ≠ [] := by
    rw [← List.length_pos_iff_ne_nil, hlength]
    omega
  have hdiff : ((msg.length : Int) - ((s₀.ts + (r.data + r.fixed) : Nat) : Int)) % 2 ^ 64 =
      ((msg.length - (s₀.ts + (r.data + r.fixed)) : Nat) : Int) := by
    omega
  rw [dataSize, ← hdlen, hlength, hdsize, Guard.holds, hdsize, hin.p,
    Nat.mod_eq_of_lt hproduct, hdiff]
  simp only [Bool.and_eq_true, decide_eq_true_eq, Int.ofNat_le, ne_eq, hne, not_false_eq_true,
    true_and, gt_iff_lt]

theorem dataSize_le (fixed d : Nat) (buf : List UInt8) :
    dataSize fixed d buf ≤ (buf.drop fixed).length := by
  unfold dataSize
  dsimp only
  split
  · rename_i hfits
    exact hfits.2.2
  · exact Nat.zero_le _

/-- No pattern goes on behind its last transition. -/
theorem takers_eq_nil {r : Rule} (hr : r ∈ rules) (hactive : s.active = [r])
    (hindex : r.data + r.fixed + (if r.counted.isSome then 1 else 0) ≤ s.index) (fc : UInt8) :
    s.takers flow msg fc = [] := by
  have hnone : r.edges[s.index]? = none := by
    rw [List.getElem?_eq_none_iff, rules_length r hr]
    exact hindex
  simp [takers, hactive, hnone]

/-- The skip takes `p` to the last byte of the data. -/
theorem InFields.skip {r : Rule} (hin : InFields msg s₀ r r.fixed s) (handle : Handle)
    (hsize : msg.length < 2 ^ 63) (hr : r ∈ rules) {d : Nat} (hd : d ∈ r.counted)
    (hp : s₀.ts + (r.data + r.fixed) < msg.length)
    (hsafe : Guard.dlenIsSafe.holds flow msg.length msg[s₀.ts + (r.data + r.fixed)] s.regs) :
    ∃ s', Next flow handle msg s s' ∧
      Within msg s₀ (r.data + r.fixed + 1)
        (s₀.ts + (r.data + (r.fixed + dataSize r.fixed d (behind msg s₀ r)))) s' ∧
      s'.active = [r] ∧ s'.regs.data = s.regs.data ∧
      s'.matched =
        some (r, s₀.ts + (r.data + (r.fixed + dataSize r.fixed d (behind msg s₀ r)))) := by
  have hwithin := hin.toWithin
  obtain ⟨hfour, hedge⟩ := rules_dataEdge r hr d hd
  have htakers : s.takers flow msg msg[s₀.ts + (r.data + r.fixed)] = [r] := by
    simp [takers, hin.active, hin.index, hedge, hsafe]
  have hactions : ([r].flatMap fun r' => (r'.edges[s.look.index]?.map Edge.actions).getD []) =
      [.skipDataBytes] := by
    have hindex : s.look.index = r.data + r.fixed := hin.index
    rw [hindex, List.flatMap_singleton, hedge]
    rfl
  have hsizeOf := dlenIsSafe_dataSize flow hsize hr hd hin hp
    msg[s₀.ts + (r.data + r.fixed)]
  rw [if_pos hsafe] at hsizeOf
  have hle := dataSize_le r.fixed d (behind msg s₀ r)
  rw [behind, List.length_drop, List.length_drop, List.length_drop, ← behind] at hle
  have hlook := hwithin.look hp
  -- `p` is set to the last byte rather than behind it, since the machine counts up once more
  have hskip : s.look.regs.p - 1 + s.look.regs.dlen * s.look.regs.dsize % 2 ^ 64 =
      s₀.ts + (r.data + (r.fixed + dataSize r.fixed d (behind msg s₀ r))) - 1 := by
    show s.regs.p - 1 + s.regs.dlen * s.regs.dsize % 2 ^ 64 = _
    rw [hsizeOf, hin.p]
    omega
  have hstop : s.look.regs.p - 1 + s.look.regs.dlen * s.look.regs.dsize % 2 ^ 64 + 1 =
      s₀.ts + (r.data + (r.fixed + dataSize r.fixed d (behind msg s₀ r))) := by
    rw [hskip]
    omega
  have hfinal : r.final (s.look.index + 1) := by
    have hindex : s.look.index = r.data + r.fixed := hin.index
    rw [hindex, final_iff hr]
    exact Or.inr ⟨by rw [Option.mem_def.mp hd]; rfl, rfl⟩
  refine ⟨_, ⟨hin.exit, (hwithin.step_take hp (by rw [htakers]; simp)).symm⟩, ?_⟩
  rw [htakers, take, hactions]
  refine ⟨⟨hin.exit, hin.ts, hin.calls, ?_, by omega, hstop, ⟨hlook.safe.examined, ?_,
    hlook.safe.reads⟩⟩, rfl, rfl, ?_⟩
  · show s.index + 1 = _
    rw [hin.index]
  · intro q hq
    rcases List.mem_append.mp hq with hq | hq
    · exact hlook.safe.skips q hq
    · rw [List.mem_singleton.mp hq, hskip]
      omega
  · dsimp only
    rw [List.find?_singleton, if_pos hfinal]
    exact congrArg (fun te => some (r, te)) hstop

/-- From the end of the fixed part the machine gets back to its longest match. -/
theorem InFields.fallsBack {r : Rule} (hin : InFields msg s₀ r r.fixed s) (flow : Flow)
    (handle : Handle) (hsize : msg.length < 2 ^ 63) (hr : r ∈ rules) :
    ∃ s', Matched msg s₀ r (s₀.ts + (r.data + (r.fixed +
        (r.counted.map fun d => dataSize r.fixed d (behind msg s₀ r)).getD 0))) s' ∧
      Steps flow handle msg s (s'.fallBack handle msg) := by
  have hpos := rules_tag_ne_nil r hr
  have hmatched : s.matched = some (r, s₀.ts + (r.data + r.fixed)) := by
    rw [hin.matched, if_pos rfl]
  have hdata : (if r.items = [] then some (s₀.ts + (r.data + r.fixed)) else s.regs.data) =
      some (s₀.ts + r.data) := by
    by_cases hitems : r.items = []
    · rw [if_pos hitems, (rules_items r hr).mp hitems]
      rfl
    · rw [if_neg hitems]
      exact hin.data (Nat.pos_of_ne_zero fun hzero => hitems ((rules_items r hr).mpr hzero))
  -- nothing is taken behind the fixed part
  have hplain : (∀ hp : s₀.ts + (r.data + r.fixed) < msg.length,
        s.takers flow msg msg[s₀.ts + (r.data + r.fixed)] = []) →
      ∃ s', Matched msg s₀ r (s₀.ts + (r.data + r.fixed)) s' ∧
        Steps flow handle msg s (s'.fallBack handle msg) := by
    intro hstuck
    obtain ⟨s', hmatch, hnext⟩ :=
      hin.toWithin.fallsBack flow handle (by omega) hstuck hmatched hdata
    exact ⟨s', hmatch, .single hnext⟩
  cases hcounted : r.counted with
  | none =>
    refine hplain fun hp => takers_eq_nil hr hin.active ?_ _
    rw [hcounted, hin.index]
    exact Nat.le_refl _
  | some d =>
    have hd : d ∈ r.counted := hcounted
    obtain ⟨-, hedge⟩ := rules_dataEdge r hr d hd
    rcases Nat.lt_or_ge (s₀.ts + (r.data + r.fixed)) msg.length with hp | hp
    · have hsizeOf := dlenIsSafe_dataSize flow hsize hr hd hin hp
        msg[s₀.ts + (r.data + r.fixed)]
      by_cases hsafe :
          Guard.dlenIsSafe.holds flow msg.length msg[s₀.ts + (r.data + r.fixed)] s.regs = true
      · obtain ⟨s₁, hnext, hwithin, hactive, hdata₁, hmatched₁⟩ :=
          hin.skip handle hsize hr hd hp hsafe
        have hitems : r.items ≠ [] := fun hnil => by
          have hzero := (rules_items r hr).mp hnil
          have hfour := (rules_dataEdge r hr d hd).1
          omega
        rw [if_neg hitems] at hdata
        obtain ⟨s', hmatch, hnext'⟩ := hwithin.fallsBack flow handle
          (by omega) (fun hp' => takers_eq_nil hr hactive (by rw [hcounted, hwithin.index]; rfl) _)
          hmatched₁ (by rw [if_neg hitems, hdata₁, hdata])
        exact ⟨s', hmatch, .head hnext (.single hnext')⟩
      · rw [if_neg hsafe] at hsizeOf
        rw [Option.map_some, Option.getD_some, ← hsizeOf]
        refine hplain fun _ => ?_
        simp [takers, hin.active, hin.index, hedge, hsafe]
    · have hle := dataSize_le r.fixed d (behind msg s₀ r)
      rw [behind, List.length_drop, List.length_drop, List.length_drop, ← behind] at hle
      have hzero : dataSize r.fixed d (behind msg s₀ r) = 0 := by omega
      rw [Option.map_some, Option.getD_some, hzero]
      exact hplain fun hp' => absurd hp' (by omega)

/-! ### A whole run -/

/-- What `process` returns or throws, as an end of the machine. -/
def exitOf : Except String Bool → Exit
  | .ok value => .returned value
  | .error what => .threw what

/-- The machine stops with this result and these messages handed over. It has been in order all the
way, and has complained about nothing but data. -/
def Finishes (flow : Flow) (handle : Handle) (msg : List UInt8) (s : Machine)
    (result : Except String Bool × List Message) : Prop :=
  ∃ f, Steps flow handle msg s f ∧ f.exit = some (exitOf result.1) ∧ f.calls = result.2 ∧
    f.Safe msg.length ∧ ∀ what, result.1 = .error what → DataError what

variable {result : Except String Bool × List Message}

theorem Steps.finishes {s' : Machine} (h : Steps flow handle msg s s')
    (hfinishes : Finishes flow handle msg s' result) : Finishes flow handle msg s result := by
  obtain ⟨f, hsteps, hf⟩ := hfinishes
  exact ⟨f, h.trans hsteps, hf⟩

theorem Stops.finishes {calls : List Message} (h : Stops flow handle msg calls s) :
    Finishes flow handle msg s (.ok false, calls) := by
  obtain ⟨f, hsteps, hexit, hcalls, hsafe⟩ := h
  exact ⟨f, hsteps, hexit, hcalls, hsafe, fun what hwhat => absurd hwhat (by simp)⟩

theorem between_header (msg : List UInt8) (ts data : Nat) :
    between msg ts (ts + data) = (msg.drop ts).take data := by
  rw [between, Nat.add_sub_cancel_left]

theorem between_data (msg : List UInt8) (ts data n : Nat) :
    between msg (ts + data) (ts + (data + n)) = ((msg.drop ts).take (data + n)).drop data := by
  rw [between, ← Nat.add_assoc, Nat.add_sub_cancel_left, List.drop_take, List.drop_drop,
    Nat.add_sub_cancel_left]

theorem scan_none {input : List UInt8} (hne : input ≠ []) (htoken : token flow input = none)
    (calls : List Message) : scan flow handle calls input = (.ok false, calls) := by
  rw [scan, dif_neg hne]
  split
  · rfl
  · rename_i hsome
    rw [htoken] at hsome
    exact absurd hsome (by simp)

theorem scan_token {input : List UInt8} {r : Rule} {te : Nat} (hne : input ≠ [])
    (htoken : token flow input = some (r, te)) (calls : List Message) :
    scan flow handle calls input =
      match r.proc.readFrom (input.take r.data) ((input.take te).drop r.data) with
      | .error what => (.error what, calls)
      | .ok (args, _) =>
        if handle calls ⟨r.proc, args⟩ then
          scan flow handle (calls ++ [⟨r.proc, args⟩]) (input.drop te)
        else (.ok false, calls ++ [⟨r.proc, args⟩]) := by
  rw [scan, dif_neg hne]
  split
  · rename_i hnone
    rw [htoken] at hnone
    exact absurd hnone (by simp)
  · rename_i hsome
    rw [htoken] at hsome
    cases hsome
    rfl

/-- One token: `read_from`, the handler, and the next token. -/
theorem Matched.finishes {r : Rule} (hr : r ∈ rules) {n : Nat}
    (h : Matched msg s₀ r (s₀.ts + (r.data + n)) s) (hne : s₀.ts < msg.length)
    (htag : bytesOf r.tag <+: msg.drop s₀.ts) (hfixed : r.fixed ≤ n)
    (hn : s₀.ts + (r.data + n) ≤ msg.length)
    (htoken : token flow (msg.drop s₀.ts) = some (r, r.data + n))
    (ih : ∀ s', AtStart msg s' → s'.Safe msg.length → s'.ts = s₀.ts + (r.data + n) →
      Finishes flow handle msg s' (scan flow handle s'.calls (msg.drop s'.ts))) :
    Finishes flow handle msg (s.fallBack handle msg)
      (scan flow handle s₀.calls (msg.drop s₀.ts)) := by
  have hpos := rules_tag_ne_nil r hr
  have hnil : msg.drop s₀.ts ≠ [] := by
    rw [← List.length_pos_iff_ne_nil, List.length_drop]
    omega
  have hheader : (msg.drop s₀.ts).take r.data = r.proc.tag := by
    rw [← tag_eq hr, Rule.data]
    exact (List.prefix_iff_eq_take.mp htag).symm
  have hread : ∀ w, r.proc.args.readFrom (((msg.drop s₀.ts).take (r.data + n)).drop r.data) =
      .error w → DataError w := by
    intro w
    obtain ⟨hleaves, htailed⟩ := rules_leaves r hr
    refine readFrom_error htailed ?_
    rw [List.length_drop, List.length_take, List.length_drop, ← hleaves]
    have hfixed' : fixedSize (r.items.map Item.leaf) = r.fixed := rfl
    omega
  have hreads : ∀ c ∈ s.reads ++ [⟨s₀.ts, s₀.ts + r.data, s₀.ts + (r.data + n)⟩],
      c.header < c.data ∧ c.data ≤ c.stop ∧ c.stop ≤ msg.length := by
    intro c hc
    rcases List.mem_append.mp hc with hc | hc
    · exact h.safe.reads c hc
    · rw [List.mem_singleton.mp hc]
      exact ⟨Nat.lt_add_of_pos_right hpos, Nat.add_le_add_left (Nat.le_add_right _ _) _, hn⟩
  rw [fallBack_of_some h.matched h.data, proc, scan_token hnil htoken]
  simp only [h.ts, h.calls]
  rw [between_header, between_data, hheader, MessageType.readFrom_tag]
  cases hargs : r.proc.args.readFrom (((msg.drop s₀.ts).take (r.data + n)).drop r.data) with
  | error what =>
    refine ⟨_, .refl, rfl, rfl, ⟨h.safe.examined, h.safe.skips, hreads⟩, fun w hw => ?_⟩
    cases hw
    exact hread what hargs
  | ok rest =>
    obtain ⟨args, rest⟩ := rest
    dsimp only
    by_cases hhandle : handle s₀.calls ⟨r.proc, args⟩ = true
    · rw [if_pos hhandle, if_pos hhandle, List.drop_drop]
      exact ih (restart _ (s₀.ts + (r.data + n)))
        ⟨h.exit, rfl, hn, rfl, rfl, rfl⟩ ⟨h.safe.examined, h.safe.skips, hreads⟩ rfl
    · rw [if_neg hhandle, if_neg hhandle]
      exact ⟨_, .refl, rfl, rfl, ⟨h.safe.examined, h.safe.skips, hreads⟩,
        fun w hw => absurd hw (by simp)⟩

/-- From the start of a token the machine does what `scan` does. -/
theorem AtStart.finishes (h : AtStart msg s) (flow : Flow) (handle : Handle)
    (hsize : msg.length < 2 ^ 63) (hsafe : s.Safe msg.length) :
    Finishes flow handle msg s (scan flow handle s.calls (msg.drop s.ts)) := by
  induction hleft : msg.length - s.ts using Nat.strong_induction_on generalizing s with
  | _ left ih =>
    rcases Nat.lt_or_ge s.ts msg.length with hlt | hge
    · have hnil : msg.drop s.ts ≠ [] := by
        rw [← List.length_pos_iff_ne_nil, List.length_drop]
        omega
      by_cases hfront : ∃ r ∈ rules, r.cond.holds flow ∧ bytesOf r.tag <+: msg.drop s.ts
      · obtain ⟨r, hr, hcond, htag⟩ := hfront
        have hpos := rules_tag_ne_nil r hr
        have hbehind : msg.drop s.ts = bytesOf r.tag ++ behind msg s r :=
          (List.prefix_iff_eq_append.mp htag).symm
        rcases Nat.lt_or_ge (behind msg s r).length r.fixed with hshort | hlong
        · have hnone := token_of_short hr hcond hshort
          rw [← hbehind] at hnone
          rw [scan_none hnil hnone]
          exact (h.stops_short hsafe hr hcond htag hshort).finishes
        · have htoken := token_of_fixed hr hcond hlong
          rw [← hbehind] at htoken
          have hle : r.data ≤ (msg.drop s.ts).length := htag.length_le
          have hdata : (r.counted.map fun d => dataSize r.fixed d (behind msg s r)).getD 0 ≤
              ((behind msg s r).drop r.fixed).length := by
            cases r.counted with
            | none => exact Nat.zero_le _
            | some d => exact dataSize_le _ _ _
          rw [List.length_drop] at hle
          rw [behind, List.length_drop, List.length_drop] at hlong
          rw [behind, List.length_drop, List.length_drop, List.length_drop, ← behind] at hdata
          obtain ⟨s₁, hsteps, hin⟩ :=
            h.fields handle hsafe hr hcond htag le_rfl (by omega)
          obtain ⟨s₂, hmatch, hsteps'⟩ := hin.fallsBack flow handle hsize hr
          refine Steps.finishes (hsteps.trans hsteps') (hmatch.finishes hr hlt htag
            (Nat.le_add_right _ _) (by omega) htoken fun s' hs' hsafe' hts => ?_)
          exact ih _ (by omega) hs' hsafe' rfl
      · have hnone : ∀ r ∈ rules, r.cond.holds flow → ¬bytesOf r.tag <+: msg.drop s.ts :=
          fun r hr hcond htag => hfront ⟨r, hr, hcond, htag⟩
        rw [scan_none hnil (token_eq_none_of_tag hnone)]
        exact ((h.inTag hsafe).stops h.matched hlt hnone).finishes
    · have hnil : msg.drop s.ts = [] := List.drop_eq_nil_of_le hge
      have hlast : s.regs.p = msg.length := by rw [h.p]; exact Nat.le_antisymm h.le hge
      rw [hnil, scan_nil]
      refine ⟨_, .single ⟨h.exit, rfl⟩, ?_⟩
      rw [step, if_pos hlast, if_pos h.index]
      exact ⟨rfl, rfl, ⟨hsafe.examined, hsafe.skips, hsafe.reads⟩,
        fun what hwhat => absurd hwhat (by simp)⟩

/-- Steps to an end are a run. -/
theorem Steps.run {f : Machine} (h : Steps flow handle msg s f) :
    ∃ n, Machine.run flow handle msg n s = f := by
  induction h using Relation.ReflTransGen.head_induction_on with
  | refl => exact ⟨0, rfl⟩
  | head hnext _ ih =>
    obtain ⟨n, hn⟩ := ih
    obtain ⟨hexit, rfl⟩ := hnext
    refine ⟨n + 1, ?_⟩
    rw [Machine.run, hexit, if_neg (by simp), hn]

/-- **The scanner is memory safe and terminates.** After finitely many steps it has returned or
thrown what `process` returns or throws, and has handed over the same messages. All bytes it has
looked at are in the buffer, no skip has gone past the end, and `read_from` has only been called
with a header that is not empty and data that ends in the buffer; and it has complained about
nothing but a string or an array that is too long. -/
theorem run_safe (flow : Flow) (handle : Handle) (msg : List UInt8) (hsize : msg.length < 2 ^ 63) :
    ∃ n, let f := run flow handle msg n initial
      f.exit = some (exitOf (process flow handle msg).1) ∧
      f.calls = (process flow handle msg).2 ∧
      (∀ i ∈ f.examined, i < msg.length) ∧
      (∀ q ∈ f.regs.skips, q < msg.length) ∧
      (∀ c ∈ f.reads, c.header < c.data ∧ c.data ≤ c.stop ∧ c.stop ≤ msg.length) ∧
      ∀ what, f.exit = some (.threw what) →
        what = "String extends beyond message buffer bounds" ∨
          what = "Array extends beyond message buffer bounds" := by
  have hstart : AtStart msg initial := ⟨rfl, rfl, Nat.zero_le _, rfl, rfl, rfl⟩
  have hsafe : initial.Safe msg.length := by
    constructor <;> intro x hx <;> exact absurd hx List.not_mem_nil
  obtain ⟨f, hsteps, hexit, hcalls, hf, hwhat⟩ :=
    hstart.finishes flow handle hsize hsafe
  obtain ⟨n, rfl⟩ := hsteps.run
  refine ⟨n, hexit, hcalls, hf.examined, hf.skips, hf.reads, fun what hthrew => ?_⟩
  rw [hexit, Option.some.injEq] at hthrew
  refine hwhat what ?_
  cases hresult : (scan flow handle initial.calls (msg.drop initial.ts)).1 with
  | ok value =>
    rw [hresult] at hthrew
    exact absurd hthrew (by simp [exitOf])
  | error w =>
    rw [hresult] at hthrew
    cases hthrew
    rfl

/-- Options that announce more elements than there is memory. -/
theorem run_safe_setOptions :
    ∃ n, let f := run .stc (fun _ _ => true) (bytesOf "DSOP" ++ [255, 255, 255, 255, 1]) n initial
      f.exit = some (exitOf (process .stc (fun _ _ => true)
        (bytesOf "DSOP" ++ [255, 255, 255, 255, 1])).1) ∧
      (∀ i ∈ f.examined, i < 9) ∧ ∀ q ∈ f.regs.skips, q < 9 := by
  obtain ⟨n, hexit, -, hexamined, hskips, -⟩ := run_safe .stc (fun _ _ => true)
    (bytesOf "DSOP" ++ [255, 255, 255, 255, 1]) (by decide +kernel)
  have hlength : (bytesOf "DSOP" ++ [255, 255, 255, 255, 1]).length = 9 := by decide +kernel
  rw [hlength] at hexamined hskips
  exact ⟨n, hexit, hexamined, hskips⟩

end Machine

end Synergy.Protocol
