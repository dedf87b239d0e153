import Synergy.Protocol.Scanner

/-!
# One format

The grammar of the scanner, the field lists of the messages and the codec are separate
descriptions. They agree because all of them are the same list of `Leaf`s: fields of a fixed
width, and fields counted by a length prefix. `rules_leaves` is the comparison of the two tables;
for the rest, what a list of leaves takes from the front of some bytes (`extent`) is what
`read_from` consumes and where the longest match ends.

What is left is what happens where nothing complete is at the front: the scanner matches nothing,
unless a complete length prefix announces more than is there (`Overlong`), in which case the token
ends behind the prefix and `read_from` refuses it.
-/

set_option autoImplicit false

namespace Synergy.Protocol

open Lib

/-! ## Leaves -/

/-- A field as its bytes: of a fixed width, or as many elements of a width as a prefix of four
bytes says. -/
inductive Leaf where
  | width (n : Nat)
  | counted (d : Nat)
  deriving DecidableEq, Repr

def FieldType.leaves : FieldType → List Leaf
  | .integer t => [.width t.size]
  | .string => [.counted 1]
  | .vector t => [.counted t.size]
  | .nil => []
  | .cons head tail => head.leaves ++ tail.leaves

def Item.leaf : Item → Leaf
  | .i1 => .width 1
  | .i2 => .width 2
  | .i4 => .width 4
  | .string => .counted 1
  | .i4vec => .counted 4

/-- How much one leaf takes from the front of some bytes, if all of it is there. -/
def Leaf.extent : Leaf → List UInt8 → Option Nat
  | .width n, buf => if buf.length < n then none else some n
  | .counted d, buf =>
    if buf.length < 4 then none
    else
      let n := BigEndian.ofBytes (buf.take 4)
      if (buf.drop 4).length < n * d then none else some (4 + n * d)

/-- How much leaves take, one after the other. -/
def extent : List Leaf → List UInt8 → Option Nat
  | [], _ => some 0
  | l :: ls, buf => (l.extent buf).bind fun n => (extent ls (buf.drop n)).map (n + ·)

/-- The first leaf that is not complete is a counted one whose prefix is complete. -/
def Overlong : List Leaf → List UInt8 → Prop
  | [], _ => False
  | .width n :: ls, buf => n ≤ buf.length ∧ Overlong ls (buf.drop n)
  | .counted d :: ls, buf =>
    4 ≤ buf.length ∧
      let n := BigEndian.ofBytes (buf.take 4)
      (buf.drop 4).length < n * d ∨ Overlong ls (buf.drop (4 + n * d))

/-- Only the last leaf is counted. -/
def Tailed : List Leaf → Prop
  | [] => True
  | .width _ :: ls => Tailed ls
  | .counted _ :: ls => ls = []

instance Tailed.decidable : (ls : List Leaf) → Decidable (Tailed ls)
  | [] => isTrue trivial
  | .width _ :: ls => Tailed.decidable ls
  | .counted _ :: ls => inferInstanceAs (Decidable (ls = []))

/-- **The grammar and the field lists have the same leaves**, and no counted one but the last. -/
theorem rules_leaves :
    ∀ r ∈ rules, r.items.map Item.leaf = r.proc.args.leaves ∧ Tailed r.proc.args.leaves := by
  decide +kernel

/-- Each rule has the tag of the message it processes. -/
theorem rules_tag : ∀ r ∈ rules, r.tag = r.proc.typeTag := by decide +kernel

/-- Of the rules that are enabled together, no tag starts another one's. -/
theorem rules_prefix_free : ∀ flow ∈ [Flow.stc, Flow.cts], ∀ r ∈ rules, ∀ r' ∈ rules,
    r.cond.holds flow → r'.cond.holds flow → bytesOf r.tag <+: bytesOf r'.tag → r = r' := by
  decide +kernel

/-! ## The codec consumes the extent -/

theorem extent_append (ls ls' : List Leaf) (buf : List UInt8) :
    extent (ls ++ ls') buf =
      (extent ls buf).bind fun n => (extent ls' (buf.drop n)).map (n + ·) := by
  induction ls generalizing buf with
  | nil => simp [extent]
  | cons l ls ih =>
    simp only [List.cons_append, extent, ih]
    cases l.extent buf with
    | none => rfl
    | some n =>
      simp only [Option.bind_some]
      cases extent ls (buf.drop n) with
      | none => rfl
      | some m => simp [List.drop_drop, Function.comp_def, Nat.add_assoc]

/-- A reader that takes the extent off the front of the buffer, and refuses where there is none. -/
def Takes {α : Type} (read : List UInt8 → Except String (α × List UInt8))
    (extent : List UInt8 → Option Nat) : Prop :=
  ∀ buf, (∀ n, extent buf = some n → n ≤ buf.length ∧ ∃ v, read buf = .ok (v, buf.drop n)) ∧
    (extent buf = none → ∃ what, read buf = .error what)

theorem readInt_of_le {t : IntType} {buf : List UInt8} (h : t.size ≤ buf.length) :
    ∃ v, readInt t buf = .ok (v, buf.drop t.size) := by
  unfold readInt
  rw [if_neg (by omega)]
  exact ⟨_, rfl⟩

theorem takes_int (t : IntType) : Takes (readInt t) (extent [.width t.size]) := by
  intro buf
  by_cases h : buf.length < t.size
  · simp [extent, Leaf.extent, readInt, h]
  · simp only [extent, Leaf.extent, if_neg h, Option.bind_some, Option.map_some, Nat.add_zero]
    constructor
    · intro n hn
      cases hn
      exact ⟨Nat.not_lt.mp h, readInt_of_le (Nat.not_lt.mp h)⟩
    · intro hn
      exact absurd hn (by simp)

theorem readSize_of_le {buf : List UInt8} (h : 4 ≤ buf.length) :
    readSize buf = .ok (BigEndian.ofBytes (buf.take 4), buf.drop 4) := by
  have hlt : BigEndian.ofBytes (buf.take 4) < 256 ^ 4 := by
    have := BigEndian.ofBytes_lt (buf.take 4)
    rwa [List.length_take, Nat.min_eq_left h] at this
  apply readSize_eq_ok.mpr
  refine ⟨IntType.u32.ofBits (BigEndian.ofBytes (buf.take 4)), ?_, ?_⟩
  · unfold readInt
    rw [if_neg (show ¬ buf.length < IntType.u32.size from Nat.not_lt.mpr h)]
    rfl
  · rw [IntType.bits_ofBits]
    exact (Nat.mod_eq_of_lt hlt).symm

theorem readSize_of_lt {buf : List UInt8} (h : buf.length < 4) :
    ∃ what, readSize buf = .error what := by
  unfold readSize readInt
  rw [if_pos (show buf.length < IntType.u32.size from h)]
  exact ⟨_, rfl⟩

/-- A count and the body that it counts take a counted leaf. -/
theorem takes_counted {α : Type} {d : Nat}
    {body : Nat → List UInt8 → Except String (α × List UInt8)}
    (hfits : ∀ n buf, n * d ≤ buf.length → ∃ v, body n buf = .ok (v, buf.drop (n * d)))
    (hshort : ∀ n buf, buf.length < n * d → ∃ what, body n buf = .error what) :
    Takes (fun buf => do
      let (n, buf) ← readSize buf
      body n buf) (extent [.counted d]) := by
  intro buf
  by_cases hfew : buf.length < 4
  · obtain ⟨what, hwhat⟩ := readSize_of_lt hfew
    simp [extent, Leaf.extent, hfew, hwhat, bind, Except.bind]
  · have hread := readSize_of_le (Nat.not_lt.mp hfew)
    simp only [extent, Leaf.extent, if_neg hfew, hread, bind, Except.bind]
    by_cases hdata : (buf.drop 4).length < BigEndian.ofBytes (buf.take 4) * d
    · obtain ⟨what, hwhat⟩ := hshort _ _ hdata
      rw [if_pos hdata, hwhat]
      simp
    · obtain ⟨v, hv⟩ := hfits _ _ (Nat.not_lt.mp hdata)
      rw [if_neg hdata, hv, List.drop_drop]
      rw [List.length_drop] at hdata
      simp only [Option.bind_some, Option.map_some, Nat.add_zero]
      constructor
      · intro n hn
        cases hn
        exact ⟨by omega, v, rfl⟩
      · intro hn
        exact absurd hn (by simp)

theorem readEach_of_le {t : IntType} (n : Nat) (buf : List UInt8) (h : n * t.size ≤ buf.length) :
    ∃ vs, readEach (readInt t) n buf = .ok (vs, buf.drop (n * t.size)) := by
  induction n generalizing buf with
  | zero => exact ⟨[], by simp [readEach]⟩
  | succ n ih =>
    rw [Nat.succ_mul] at h ⊢
    have hle : t.size ≤ buf.length := by omega
    obtain ⟨v, hv⟩ := readInt_of_le hle
    obtain ⟨vs, hvs⟩ := ih (buf.drop t.size) (by rw [List.length_drop]; omega)
    rw [List.drop_drop, Nat.add_comm] at hvs
    exact ⟨v :: vs, readEach_succ_eq_ok.mpr ⟨v, vs, _, hv, hvs, rfl⟩⟩

theorem FieldType.takes (f : FieldType) : Takes f.readFrom (extent f.leaves) := by
  induction f with
  | integer t => exact takes_int t
  | string =>
    apply takes_counted
    · intro n buf h
      rw [Nat.mul_one] at h ⊢
      exact ⟨buf.take n, if_neg (Nat.not_lt.mpr h)⟩
    · intro n buf h
      rw [Nat.mul_one] at h
      exact ⟨_, if_pos h⟩
  | vector t =>
    apply takes_counted
    · intro n buf h
      obtain ⟨vs, hvs⟩ := readEach_of_le n buf h
      exact ⟨vs, by rw [readElements, if_neg (Nat.not_lt.mpr h), hvs]⟩
    · intro n buf h
      exact ⟨_, if_pos h⟩
  | nil =>
    intro buf
    simp [extent, leaves, readFrom]
  | cons head tail ihHead ihTail =>
    intro buf
    obtain ⟨hsome, hnone⟩ := ihHead buf
    simp only [leaves, extent_append, readFrom, readBoth]
    cases hn : extent head.leaves buf with
    | none =>
      obtain ⟨what, hwhat⟩ := hnone hn
      simp [hwhat, Except.bind]
    | some n =>
      obtain ⟨hle, v, hv⟩ := hsome n hn
      obtain ⟨hsome', hnone'⟩ := ihTail (buf.drop n)
      simp only [hv, Except.bind, Option.bind_some]
      cases hm : extent tail.leaves (buf.drop n) with
      | none =>
        obtain ⟨what, hwhat⟩ := hnone' hm
        simp [hwhat]
      | some m =>
        obtain ⟨hle', w, hw⟩ := hsome' m hm
        rw [hw, List.drop_drop]
        rw [List.length_drop] at hle'
        constructor
        · intro k hk
          simp only [Option.map_some, Option.some.injEq] at hk
          subst hk
          exact ⟨by omega, (v, w), rfl⟩
        · intro hk
          exact absurd hk (by simp)

/-! ## The longest match ends at the extent -/

theorem foldl_dlen (fcs : List UInt8) (n : Nat) :
    fcs.foldl (fun dlen fc => dlen <<< 8 ||| fc.toNat) n =
      fcs.foldl (fun n b => 256 * n + b.toNat) n := by
  induction fcs generalizing n with
  | nil => rfl
  | cons fc fcs ih =>
    have hor : n <<< 8 ||| fc.toNat = 256 * n + fc.toNat := by
      rw [← Nat.shiftLeft_add_eq_or_of_lt fc.toNat_lt, Nat.shiftLeft_eq, Nat.mul_comm]
    rw [List.foldl_cons, List.foldl_cons, hor, ih]

/-- The scanner computes the length prefix that the codec reads. -/
theorem dlen_eq_ofBytes (bytes : List UInt8) : dlen bytes = BigEndian.ofBytes bytes := by
  cases bytes with
  | nil => rfl
  | cons fc fcs =>
    rw [dlen, foldl_dlen, BigEndian.ofBytes, List.foldl_cons, Nat.mul_zero, Nat.zero_add]

theorem Item.ends_width {item : Item} {n : Nat} (h : item.leaf = .width n) :
    item.ends = any n := by
  cases item <;> simp_all [Item.leaf, Item.ends]

theorem Item.ends_counted {item : Item} {d : Nat} (h : item.leaf = .counted d) :
    item.ends = counted d := by
  cases item <;> simp_all [Item.leaf, Item.ends]

/-- The ways a counted field is matched. -/
theorem counted_cases (d : Nat) (buf : List UInt8) :
    (buf.length < 4 ∧ counted d buf = []) ∨
    (4 ≤ buf.length ∧ BigEndian.ofBytes (buf.take 4) * d ≤ (buf.drop 4).length ∧
      4 + BigEndian.ofBytes (buf.take 4) * d ∈ counted d buf ∧
      ∀ m ∈ counted d buf, m ≤ 4 + BigEndian.ofBytes (buf.take 4) * d) ∨
    (4 ≤ buf.length ∧ (buf.drop 4).length < BigEndian.ofBytes (buf.take 4) * d ∧
      counted d buf = [4]) := by
  unfold counted
  by_cases hfew : buf.length < 4
  · exact Or.inl ⟨hfew, if_pos hfew⟩
  · rw [if_neg hfew]
    simp only [dlen_eq_ofBytes]
    have hle : 4 ≤ buf.length := Nat.not_lt.mp hfew
    by_cases hdata : BigEndian.ofBytes (buf.take 4) * d ≤ (buf.drop 4).length
    · refine Or.inr (Or.inl ⟨hle, hdata, ?_⟩)
      split
      · simp
      · rename_i hunsafe
        -- no data is to be skipped, or no element has a size
        have hzero : BigEndian.ofBytes (buf.take 4) * d = 0 := by
          by_contra hne
          apply hunsafe
          refine ⟨?_, Nat.pos_of_ne_zero fun h => hne (by rw [h, Nat.zero_mul]), hdata⟩
          intro hnil
          rw [hnil] at hdata
          exact hne (Nat.le_zero.mp hdata)
        simp [hzero]
    · refine Or.inr (Or.inr ⟨hle, Nat.not_le.mp hdata, ?_⟩)
      exact if_neg fun h => hdata h.2.2

theorem endsOf_width {item : Item} {n : Nat} (h : item.leaf = .width n) (items : List Item)
    (buf : List UInt8) :
    endsOf (item :: items) buf =
      if buf.length < n then [] else (endsOf items (buf.drop n)).map (n + ·) := by
  rw [endsOf, Item.ends_width h, any]
  split
  · rfl
  · simp

/-- An item of fixed width lengthens the longest match of what is behind it. -/
theorem endsOf_width_max {item : Item} {w : Nat} (h : item.leaf = .width w) {items : List Item}
    {buf : List UInt8} (hfits : ¬buf.length < w) {k : Nat}
    (hk : k ∈ endsOf items (buf.drop w) ∧ ∀ m ∈ endsOf items (buf.drop w), m ≤ k) :
    w + k ∈ endsOf (item :: items) buf ∧ ∀ m ∈ endsOf (item :: items) buf, m ≤ w + k := by
  obtain ⟨hmem, hmax⟩ := hk
  rw [endsOf_width h, if_neg hfits]
  refine ⟨List.mem_map_of_mem hmem, fun m hm => ?_⟩
  obtain ⟨m', hm', rfl⟩ := List.mem_map.mp hm
  exact Nat.add_le_add_left (hmax m' hm') w

theorem endsOf_counted {item : Item} {d : Nat} (h : item.leaf = .counted d) (buf : List UInt8) :
    endsOf [item] buf = counted d buf := by
  rw [endsOf, Item.ends_counted h]
  simp [endsOf]

/-- Where all of the items are there, the longest match is their extent. -/
theorem endsOf_extent {items : List Item} (htailed : Tailed (items.map Item.leaf))
    {buf : List UInt8} {n : Nat} (h : extent (items.map Item.leaf) buf = some n) :
    n ∈ endsOf items buf ∧ ∀ m ∈ endsOf items buf, m ≤ n := by
  induction items generalizing buf n with
  | nil =>
    cases h
    simp [endsOf]
  | cons item items ih =>
    cases hleaf : item.leaf with
    | width w =>
      simp only [List.map_cons, hleaf, Tailed, extent, Leaf.extent] at htailed h
      split at h
      · exact absurd h (by simp)
      · rename_i hfits
        rw [Option.bind_some] at h
        obtain ⟨k, hk, rfl⟩ := Option.map_eq_some_iff.mp h
        exact endsOf_width_max hleaf hfits (ih htailed hk)
    | counted d =>
      simp only [List.map_cons, hleaf, Tailed, List.map_eq_nil_iff] at htailed
      subst htailed
      rw [endsOf_counted hleaf]
      simp only [List.map_cons, List.map_nil, hleaf, extent, Leaf.extent] at h
      rcases counted_cases d buf with ⟨hcut, -⟩ | ⟨hle, hdata, hmem, hmax⟩ | ⟨hle, hdata, -⟩
      · rw [if_pos hcut] at h
        exact absurd h (by simp)
      · rw [if_neg (Nat.not_lt.mpr hle), if_neg (Nat.not_lt.mpr hdata)] at h
        cases h
        exact ⟨hmem, hmax⟩
      · rw [if_neg (Nat.not_lt.mpr hle), if_pos hdata] at h
        exact absurd h (by simp)

/-- Behind an overlong prefix the scanner still ends a token, in which the items are not
complete. -/
theorem endsOf_overlong {items : List Item} (htailed : Tailed (items.map Item.leaf))
    {buf : List UInt8} (h : Overlong (items.map Item.leaf) buf) :
    ∃ k, endsOf items buf = [k] ∧ extent (items.map Item.leaf) (buf.take k) = none := by
  induction items generalizing buf with
  | nil => exact absurd h (by simp [Overlong])
  | cons item items ih =>
    cases hleaf : item.leaf with
    | width w =>
      simp only [List.map_cons, hleaf, Tailed, Overlong] at htailed h
      obtain ⟨hfits, hover⟩ := h
      obtain ⟨k, hends, hnone⟩ := ih htailed hover
      refine ⟨w + k, ?_, ?_⟩
      · rw [endsOf_width hleaf, if_neg (Nat.not_lt.mpr hfits), hends]
        rfl
      · have hlen : ¬ (buf.take (w + k)).length < w := by
          rw [List.length_take]
          omega
        have hdrop : (buf.take (w + k)).drop w = (buf.drop w).take k := by
          rw [List.drop_take, Nat.add_sub_cancel_left]
        simp only [List.map_cons, hleaf, extent, Leaf.extent, if_neg hlen, Option.bind_some, hdrop,
          hnone, Option.map_none]
    | counted d =>
      simp only [List.map_cons, hleaf, Tailed, List.map_eq_nil_iff] at htailed
      subst htailed
      simp only [List.map_cons, List.map_nil, hleaf, Overlong, or_false] at h
      obtain ⟨hle, hdata⟩ := h
      rcases counted_cases d buf with ⟨hcut, -⟩ | ⟨-, hfits, -⟩ | ⟨-, -, hends⟩
      · exact absurd hcut (Nat.not_lt.mpr hle)
      · exact absurd hfits (Nat.not_le.mpr hdata)
      · refine ⟨4, by rw [endsOf_counted hleaf, hends], ?_⟩
        have hlen : ¬ (buf.take 4).length < 4 := by
          rw [List.length_take]
          omega
        have hmore : ((buf.take 4).drop 4).length <
            BigEndian.ofBytes ((buf.take 4).take 4) * d := by
          rw [List.take_take, Nat.min_self, List.length_drop, List.length_take]
          omega
        simp only [List.map_cons, List.map_nil, hleaf, extent, Leaf.extent, if_neg hlen,
          if_pos hmore, Option.bind_none]

/-- Where something else is missing, nothing is matched. -/
theorem endsOf_cut {items : List Item} (htailed : Tailed (items.map Item.leaf))
    {buf : List UInt8} (hnone : extent (items.map Item.leaf) buf = none)
    (h : ¬ Overlong (items.map Item.leaf) buf) : endsOf items buf = [] := by
  induction items generalizing buf with
  | nil => exact absurd hnone (by simp [extent])
  | cons item items ih =>
    cases hleaf : item.leaf with
    | width w =>
      simp only [List.map_cons, hleaf, Tailed, Overlong, not_and] at htailed h
      rw [endsOf_width hleaf]
      split
      · rfl
      · rename_i hfits
        simp only [List.map_cons, hleaf, extent, Leaf.extent, if_neg hfits, Option.bind_some,
          Option.map_eq_none_iff] at hnone
        rw [ih htailed hnone (h (Nat.not_lt.mp hfits)), List.map_nil]
    | counted d =>
      simp only [List.map_cons, hleaf, Tailed, List.map_eq_nil_iff] at htailed
      subst htailed
      simp only [List.map_cons, List.map_nil, hleaf, Overlong, or_false, not_and] at h
      rw [endsOf_counted hleaf]
      rcases counted_cases d buf with ⟨-, hends⟩ | ⟨hle, hdata, -⟩ | ⟨hle, hdata, -⟩
      · exact hends
      · simp only [List.map_cons, List.map_nil, hleaf, extent, Leaf.extent,
          if_neg (Nat.not_lt.mpr hle), if_neg (Nat.not_lt.mpr hdata)] at hnone
        exact absurd hnone (by simp)
      · exact absurd hdata (h hle)

/-! ## Tokens -/

/-- The types a flow admits: each side has its own greeting. -/
def Flow.admits : Flow → MessageType → Bool
  | .stc, t => t ≠ .helloBack
  | .cts, t => t ≠ .hello

theorem rules_cond (flow : Flow) : ∀ r ∈ rules, r.cond.holds flow = flow.admits r.proc := by
  cases flow <;> decide +kernel

theorem exists_rule (t : MessageType) : ∃ r ∈ rules, r.proc = t := by
  cases t <;> decide +kernel

theorem mem_flows (flow : Flow) : flow ∈ [Flow.stc, Flow.cts] := by
  cases flow <;> simp

/-- At most one rule matches at all. -/
theorem ends_eq_nil_of_ne {flow : Flow} {r r' : Rule} (hr : r ∈ rules) (hr' : r' ∈ rules)
    (hcond : r.cond.holds flow) {input : List UInt8} (htag : bytesOf r.tag <+: input)
    (hne : r' ≠ r) : r'.ends flow input = [] := by
  unfold Rule.ends
  apply if_neg
  intro ⟨hcond', htag'⟩
  apply hne
  rcases List.prefix_or_prefix_of_prefix htag htag' with h | h
  · exact (rules_prefix_free flow (mem_flows flow) r hr r' hr' hcond hcond' h).symm
  · exact rules_prefix_free flow (mem_flows flow) r' hr' r hr hcond' hcond h

theorem ends_of_tag {flow : Flow} {r : Rule} (hcond : r.cond.holds flow) (data : List UInt8) :
    r.ends flow (bytesOf r.tag ++ data) = (endsOf r.items data).map (r.data + ·) := by
  unfold Rule.ends
  rw [if_pos ⟨hcond, List.prefix_append _ _⟩, Rule.data, List.drop_left]

/-- Rules are found at their tag only. -/
theorem token_eq_none_of_tag {flow : Flow} {input : List UInt8}
    (h : ∀ r ∈ rules, r.cond.holds flow → ¬ bytesOf r.tag <+: input) : token flow input = none := by
  apply longest_eq_none.mpr
  intro r hr
  exact if_neg fun hmatch => h r hr hmatch.1 hmatch.2

section Token

variable {flow : Flow} {r : Rule} (hr : r ∈ rules) (hcond : r.cond.holds flow) {data : List UInt8}

include hr hcond

theorem token_of_max {n : Nat} (hn : n ∈ endsOf r.items data)
    (hmax : ∀ m ∈ endsOf r.items data, m ≤ n) :
    token flow (bytesOf r.tag ++ data) = some (r, r.data + n) := by
  apply longest_of_only hr
  · rw [ends_of_tag hcond]
    exact List.mem_map_of_mem hn
  · intro m hm
    rw [ends_of_tag hcond] at hm
    obtain ⟨m', hm', rfl⟩ := List.mem_map.mp hm
    exact Nat.add_le_add_left (hmax m' hm') _
  · intro r' hr' hne
    exact ends_eq_nil_of_ne hr hr' hcond (List.prefix_append _ _) hne

theorem token_of_extent {n : Nat} (h : extent r.proc.args.leaves data = some n) :
    token flow (bytesOf r.tag ++ data) = some (r, r.data + n) := by
  obtain ⟨hleaves, htailed⟩ := rules_leaves r hr
  rw [← hleaves] at h htailed
  obtain ⟨hmem, hmax⟩ := endsOf_extent htailed h
  exact token_of_max hr hcond hmem hmax

theorem token_of_overlong (h : Overlong r.proc.args.leaves data) :
    ∃ k, token flow (bytesOf r.tag ++ data) = some (r, r.data + k) ∧
      extent r.proc.args.leaves (data.take k) = none := by
  obtain ⟨hleaves, htailed⟩ := rules_leaves r hr
  rw [← hleaves] at h htailed ⊢
  obtain ⟨k, hends, hnone⟩ := endsOf_overlong htailed h
  refine ⟨k, ?_, hnone⟩
  apply token_of_max hr hcond
  · simp [hends]
  · simp [hends]

theorem token_of_cut (hnone : extent r.proc.args.leaves data = none)
    (h : ¬ Overlong r.proc.args.leaves data) : token flow (bytesOf r.tag ++ data) = none := by
  obtain ⟨hleaves, htailed⟩ := rules_leaves r hr
  rw [← hleaves] at hnone h htailed
  apply longest_eq_none.mpr
  intro r' hr'
  by_cases hne : r' = r
  · rw [hne, ends_of_tag hcond, endsOf_cut htailed hnone h, List.map_nil]
  · exact ends_eq_nil_of_ne hr hr' hcond (List.prefix_append _ _) hne

end Token

end Synergy.Protocol
