import Mathlib

/-!
# Ordered unique indices

An `ordered_unique` (or `ranked_unique`) index keeps its elements in strictly increasing
order of a key. Here that order is a *field* of the container, so a table with two
elements of one key, or with elements out of place, cannot be built, and every operation
below pays for its own order once.

Iterators are positions. `rank p` is the position of the first element satisfying `p`
(the length when there is none, which is `end()`), so a lower bound is a rank, an upper
bound is a rank, and an `equal_range` on a prefix of the key is a pair of ranks. The second
half of the file is what that arithmetic amounts to when the prefix is monotone in the key:
the container splits into what lies below the range, the range, and what lies above it.
-/

set_option autoImplicit false

namespace Synergy.Lib

/-- The elements in strictly increasing order of `key`. -/
structure UniqueIndex {α κ : Type} [LinearOrder κ] (key : α → κ) where
  toList : List α
  sorted : toList.Pairwise fun a b => key a < key b

namespace UniqueIndex

variable {α κ : Type} [LinearOrder κ] {key : α → κ}

instance : Membership α (UniqueIndex key) := ⟨fun t a => a ∈ t.toList⟩

theorem mem_def {t : UniqueIndex key} {a : α} : a ∈ t ↔ a ∈ t.toList := Iff.rfl

/-! ## Operations -/

def empty : UniqueIndex key := ⟨[], List.Pairwise.nil⟩

/-- Is there an element with key `k`? -/
def hasKey (t : UniqueIndex key) (k : κ) : Bool := t.toList.any fun a => key a = k

/-- The first element satisfying `p`. -/
def find? (t : UniqueIndex key) (p : α → Bool) : Option α := t.toList.find? p

/-- The position of the first element satisfying `p`. -/
def rank (t : UniqueIndex key) (p : α → Bool) : Nat := t.toList.findIdx p

/-- Erase every element satisfying `p`. -/
def eraseIf (t : UniqueIndex key) (p : α → Bool) : UniqueIndex key :=
  ⟨t.toList.filter fun a => !p a, t.sorted.sublist List.filter_sublist⟩

/-- The position of the element with key `k`. -/
def rankOf (t : UniqueIndex key) (k : κ) : Nat := t.rank fun a => key a = k

/-- Erase the element with key `k`. -/
def eraseKey (t : UniqueIndex key) (k : κ) : UniqueIndex key := t.eraseIf fun a => key a = k

/-- Erase the element at position `i`. -/
def eraseAt (t : UniqueIndex key) (i : Nat) : UniqueIndex key :=
  ⟨t.toList.eraseIdx i, t.sorted.sublist (List.eraseIdx_sublist _ _)⟩

theorem sorted_orderedInsert {a : α} :
    ∀ {l : List α}, l.Pairwise (fun x y => key x < key y) → (∀ b ∈ l, key b ≠ key a) →
      (l.orderedInsert (fun x y => key x ≤ key y) a).Pairwise fun x y => key x < key y
  | [], _, _ => by simp
  | b :: l, hs, hne => by
    obtain ⟨hb, hl⟩ := List.pairwise_cons.mp hs
    rw [List.orderedInsert_cons]
    split
    · rename_i hab
      have hlt : key a < key b := lt_of_le_of_ne hab (Ne.symm (hne b (by simp)))
      refine List.pairwise_cons.mpr ⟨fun c hc => ?_, hs⟩
      rcases List.mem_cons.mp hc with rfl | hc
      · exact hlt
      · exact hlt.trans (hb c hc)
    · rename_i hab
      refine List.pairwise_cons.mpr
        ⟨fun c hc => ?_, sorted_orderedInsert hl fun c hc => hne c (by simp [hc])⟩
      rcases (List.mem_orderedInsert _).mp hc with rfl | hc
      · exact not_le.mp hab
      · exact hb c hc

theorem hasKey_iff {t : UniqueIndex key} {k : κ} : t.hasKey k ↔ ∃ a ∈ t, key a = k := by
  simp [hasKey, mem_def]

theorem key_ne_of_not_hasKey {t : UniqueIndex key} {a : α} (h : ¬t.hasKey (key a)) :
    ∀ b ∈ t.toList, key b ≠ key a :=
  fun b hb e => h (hasKey_iff.mpr ⟨b, hb, e⟩)

/-- Insert `a`, unless its key is taken. -/
def insert (t : UniqueIndex key) (a : α) : UniqueIndex key :=
  if h : t.hasKey (key a) then t
  else ⟨t.toList.orderedInsert (fun x y => key x ≤ key y) a,
    sorted_orderedInsert t.sorted (key_ne_of_not_hasKey h)⟩

/-! ## Membership -/

@[simp] theorem not_mem_empty (a : α) : a ∉ (empty : UniqueIndex key) := by
  simp [mem_def, empty]

@[simp] theorem mem_eraseIf {t : UniqueIndex key} {p : α → Bool} {a : α} :
    a ∈ t.eraseIf p ↔ a ∈ t ∧ p a = false := by
  simp [mem_def, eraseIf]

@[simp] theorem mem_eraseKey {t : UniqueIndex key} {k : κ} {a : α} :
    a ∈ t.eraseKey k ↔ a ∈ t ∧ key a ≠ k := by
  simp [eraseKey]

theorem insert_of_hasKey {t : UniqueIndex key} {a : α} (h : t.hasKey (key a)) :
    t.insert a = t := by
  simp [insert, h]

theorem toList_insert {t : UniqueIndex key} {a : α} (h : ¬t.hasKey (key a)) :
    (t.insert a).toList = t.toList.orderedInsert (fun x y => key x ≤ key y) a := by
  simp [insert, h]

theorem mem_insert {t : UniqueIndex key} {a x : α} (h : ¬t.hasKey (key a)) :
    x ∈ t.insert a ↔ x = a ∨ x ∈ t := by
  simp only [mem_def, toList_insert h, List.mem_orderedInsert]

theorem nodup_map_key (t : UniqueIndex key) : (t.toList.map key).Nodup :=
  List.pairwise_map.mpr (t.sorted.imp fun h => h.ne)

/-- One key, one element. -/
theorem eq_of_key_eq {t : UniqueIndex key} {a b : α} (ha : a ∈ t) (hb : b ∈ t)
    (h : key a = key b) : a = b :=
  List.inj_on_of_nodup_map t.nodup_map_key ha hb h

theorem nodup (t : UniqueIndex key) : t.toList.Nodup :=
  t.nodup_map_key.of_map

/-- The order is determined by the members, so an index is its set of members. -/
theorem ext_of_mem {t t' : UniqueIndex key} (h : ∀ x, x ∈ t ↔ x ∈ t') : t = t' := by
  have hperm : t.toList.Perm t'.toList := (List.perm_ext_iff_of_nodup t.nodup t'.nodup).mpr h
  have heq : t.toList = t'.toList :=
    hperm.eq_of_pairwise (fun a b _ _ h₁ h₂ => absurd h₁ h₂.asymm) t.sorted t'.sorted
  cases t
  cases t'
  simp only at heq
  subst heq
  rfl

theorem find?_some {t : UniqueIndex key} {p : α → Bool} {a : α} (h : t.find? p = some a) :
    a ∈ t ∧ p a = true ∧ ∀ b ∈ t, p b = true → key a ≤ key b := by
  obtain ⟨hp, pre, post, hl, hpre⟩ := List.find?_eq_some_iff_append.mp h
  refine ⟨by rw [mem_def, hl]; simp, hp, fun b hb hpb => ?_⟩
  have hs := t.sorted
  rw [mem_def, hl] at hb
  rw [hl] at hs
  rcases List.mem_append.mp hb with hb | hb
  · exact absurd hpb (by simpa using hpre b hb)
  · rcases List.mem_cons.mp hb with rfl | hb
    · exact le_rfl
    · exact ((List.pairwise_cons.mp (List.pairwise_append.mp hs).2.1).1 b hb).le

theorem find?_isSome {t : UniqueIndex key} {p : α → Bool} :
    (t.find? p).isSome ↔ ∃ a ∈ t, p a = true := by
  simp [find?, mem_def]

theorem filter_orderedInsert {a : α} (p : α → Bool) :
    ∀ {l : List α}, l.Pairwise (fun x y => key x < key y) →
      (l.orderedInsert (fun x y => key x ≤ key y) a).filter p = if p a
        then (l.filter p).orderedInsert (fun x y => key x ≤ key y) a else l.filter p
  | [], _ => by cases h : p a <;> simp [h]
  | b :: l, hs => by
    obtain ⟨hb, hl⟩ := List.pairwise_cons.mp hs
    have ih := filter_orderedInsert (a := a) p hl
    rw [List.orderedInsert_cons]
    by_cases hab : key a ≤ key b
    · -- everything in `l` is above `a` as well, so `a` goes to the front of any filtrate
      have hfront : (l.filter p).orderedInsert (fun x y => key x ≤ key y) a = a :: l.filter p := by
        cases hf : l.filter p with
        | nil => rfl
        | cons c l' =>
          have hc : c ∈ l := (List.mem_filter.mp (hf ▸ List.mem_cons_self)).1
          exact List.orderedInsert_cons_of_le _ _ (hab.trans (hb c hc).le)
      rw [if_pos hab]
      cases ha : p a <;> cases hpb : p b <;> simp [ha, hpb, hfront, hab]
    · rw [if_neg hab]
      cases ha : p a <;> cases hpb : p b <;> simp [ha, hpb, hab, ih]

/-- Erasing at a position is erasing the key found there. -/
theorem eraseAt_eq_eraseKey {t : UniqueIndex key} {i : Nat} {b : α}
    (h : t.toList[i]? = some b) : t.eraseAt i = t.eraseKey (key b) := by
  obtain ⟨hi, hb⟩ := List.getElem?_eq_some_iff.mp h
  have hsplit : t.toList = t.toList.take i ++ b :: t.toList.drop (i + 1) := by
    rw [← hb, List.getElem_cons_drop, List.take_append_drop]
  have hne : ∀ x ∈ t.toList.take i ++ t.toList.drop (i + 1), key x ≠ key b := by
    have hs := t.sorted
    rw [hsplit] at hs
    obtain ⟨-, hr, hlr⟩ := List.pairwise_append.mp hs
    intro x hx
    rcases List.mem_append.mp hx with hx | hx
    · exact (hlr x hx b (by simp)).ne
    · exact ((List.pairwise_cons.mp hr).1 x hx).ne'
  refine ext_of_mem fun x => ?_
  have herase : x ∈ t.eraseAt i ↔ x ∈ t.toList.take i ++ t.toList.drop (i + 1) := by
    show x ∈ t.toList.eraseIdx i ↔ _
    rw [List.eraseIdx_eq_take_drop_succ]
  rw [herase, mem_eraseKey]
  constructor
  · intro hx
    refine ⟨?_, hne x hx⟩
    rcases List.mem_append.mp hx with hx | hx
    · exact List.mem_of_mem_take hx
    · exact List.mem_of_mem_drop hx
  · rintro ⟨hx, hk⟩
    rw [mem_def, hsplit] at hx
    rcases List.mem_append.mp hx with hx | hx
    · exact List.mem_append_left _ hx
    · rcases List.mem_cons.mp hx with rfl | hx
      · exact absurd rfl hk
      · exact List.mem_append_right _ hx

theorem eraseAt_rankOf {t : UniqueIndex key} {k : κ} (h : t.hasKey k) :
    t.eraseAt (t.rankOf k) = t.eraseKey k := by
  obtain ⟨a, ha, hk⟩ := hasKey_iff.mp h
  have hlt : t.rankOf k < t.toList.length :=
    List.findIdx_lt_length_of_exists ⟨a, ha, decide_eq_true hk⟩
  have hget : t.toList[t.rankOf k]? = some t.toList[t.rankOf k] := List.getElem?_eq_getElem hlt
  have hkey : key t.toList[t.rankOf k] = k :=
    of_decide_eq_true (@List.findIdx_getElem _ (fun x => decide (key x = k)) t.toList hlt)
  rw [eraseAt_eq_eraseKey hget, hkey]

theorem eraseKey_insert {t : UniqueIndex key} {a : α} (h : ¬t.hasKey (key a)) :
    (t.insert a).eraseKey (key a) = t := by
  refine ext_of_mem fun x => ?_
  rw [mem_eraseKey, mem_insert h]
  constructor
  · rintro ⟨rfl | hx, hne⟩
    · exact absurd rfl hne
    · exact hx
  · exact fun hx => ⟨Or.inr hx, key_ne_of_not_hasKey h x hx⟩

/-! ## Ranges

`cls` is a prefix of the key: it never decreases as the key grows. The elements of one
class are then contiguous, between the rank of the first element not below the class and
the rank of the first one above it. -/

section Range

variable {δ : Type} [LinearOrder δ] {cls : α → δ}

/-- The elements of class `d`, in order: what `equal_range` delimits. -/
def range (t : UniqueIndex key) (cls : α → δ) (d : δ) : List α :=
  t.toList.filter fun a => cls a = d

def below (t : UniqueIndex key) (cls : α → δ) (d : δ) : List α :=
  t.toList.filter fun a => cls a < d

def above (t : UniqueIndex key) (cls : α → δ) (d : δ) : List α :=
  t.toList.filter fun a => d < cls a

theorem mem_range {t : UniqueIndex key} {d : δ} {a : α} :
    a ∈ t.range cls d ↔ a ∈ t ∧ cls a = d := by
  simp [range, mem_def]

theorem range_eraseIf {t : UniqueIndex key} {p : α → Bool} {d : δ} :
    (t.eraseIf p).range cls d = (t.range cls d).filter fun a => !p a := by
  simp only [range, eraseIf, List.filter_filter]
  exact List.filter_congr fun a _ => Bool.and_comm _ _

theorem length_range_eraseKey_le (t : UniqueIndex key) (k : κ) (d : δ) :
    ((t.eraseKey k).range cls d).length ≤ (t.range cls d).length := by
  rw [eraseKey, range_eraseIf]
  exact List.length_filter_le _ _

theorem length_range_eraseKey_lt {t : UniqueIndex key} {a : α} {d : δ}
    (h : a ∈ t.range cls d) :
    ((t.eraseKey (key a)).range cls d).length < (t.range cls d).length := by
  rw [eraseKey, range_eraseIf]
  exact List.length_filter_lt_length_iff_exists.mpr ⟨a, h, by simp⟩

/-- Erasing a key leaves the classes alone that it is not in. -/
theorem range_eraseKey {t : UniqueIndex key} {k : κ} {d : δ}
    (h : ∀ a ∈ t, key a = k → cls a ≠ d) :
    (t.eraseKey k).range cls d = t.range cls d := by
  rw [eraseKey, range_eraseIf, List.filter_eq_self]
  intro a ha
  obtain ⟨ha, hd⟩ := mem_range.mp ha
  simpa using fun hk => h a ha hk hd

private theorem split_of_pairwise (d : δ) :
    ∀ {l : List α}, l.Pairwise (fun a b => cls a ≤ cls b) →
      l = l.filter (fun a => cls a < d) ++ (l.filter (fun a => cls a = d) ++
        l.filter fun a => d < cls a)
  | [], _ => rfl
  | a :: l, hs => by
    obtain ⟨ha, hl⟩ := List.pairwise_cons.mp hs
    have ih := split_of_pairwise d hl
    rcases lt_trichotomy (cls a) d with h | h | h
    · simp only [List.filter_cons, h, h.ne, h.asymm, decide_true, decide_false, if_true]
      simpa using ih
    · have hlow : l.filter (fun b => cls b < d) = [] :=
        List.filter_eq_nil_iff.mpr fun b hb => by simpa [← h] using ha b hb
      rw [hlow] at ih
      simp only [List.filter_cons, h, lt_irrefl, decide_true, decide_false, if_true]
      simpa [hlow] using ih
    · have hlow : l.filter (fun b => cls b < d) = [] :=
        List.filter_eq_nil_iff.mpr fun b hb => by simpa using h.le.trans (ha b hb)
      have hmid : l.filter (fun b => cls b = d) = [] :=
        List.filter_eq_nil_iff.mpr fun b hb => by simpa using (h.trans_le (ha b hb)).ne'
      rw [hlow, hmid] at ih
      simp only [List.filter_cons, h, h.ne', h.asymm, decide_true, decide_false, if_true]
      simpa [hlow, hmid] using ih

private theorem findIdx_append_of {p : α → Bool} {l l' : List α} (hl : ∀ a ∈ l, p a = false)
    (hl' : ∀ a ∈ l', p a = true) : (l ++ l').findIdx p = l.length := by
  rw [List.findIdx_append, List.findIdx_eq_length_of_false hl, if_neg (lt_irrefl _)]
  cases l' with
  | nil => simp
  | cons b l' => simp [List.findIdx_cons, hl' b (by simp)]

theorem range_insert {t : UniqueIndex key} {a : α} {d : δ} (h : ¬t.hasKey (key a)) :
    (t.insert a).range cls d = if cls a = d
      then (t.range cls d).orderedInsert (fun x y => key x ≤ key y) a else t.range cls d := by
  rw [range, toList_insert h, filter_orderedInsert _ t.sorted]
  simp [range]

variable (hcls : ∀ a b, key a ≤ key b → cls a ≤ cls b)

include hcls

theorem toList_split (t : UniqueIndex key) (d : δ) :
    t.toList = t.below cls d ++ (t.range cls d ++ t.above cls d) :=
  split_of_pairwise d (t.sorted.imp fun h => hcls _ _ h.le)

/-- The rank of `equal_range(d).first`. -/
theorem rank_lower (t : UniqueIndex key) (d : δ) :
    t.rank (fun a => !decide (cls a < d)) = (t.below cls d).length := by
  rw [rank, t.toList_split hcls d]
  refine findIdx_append_of (fun a ha => ?_) fun a ha => ?_
  · simpa using (List.mem_filter.mp ha).2
  · rcases List.mem_append.mp ha with ha | ha
    · simpa using (mem_range.mp ha).2.ge
    · simpa using (of_decide_eq_true (List.mem_filter.mp ha).2).le

/-- The rank of `equal_range(d).second`. -/
theorem rank_upper (t : UniqueIndex key) (d : δ) :
    t.rank (fun a => decide (d < cls a)) = (t.below cls d).length + (t.range cls d).length := by
  rw [rank, t.toList_split hcls d, ← List.append_assoc, ← List.length_append]
  refine findIdx_append_of (fun a ha => ?_) fun a ha => (List.mem_filter.mp ha).2
  rcases List.mem_append.mp ha with ha | ha
  · simpa using (of_decide_eq_true (List.mem_filter.mp ha).2).le
  · simpa using (mem_range.mp ha).2.le

/-- The rank of a freshly inserted element, counted from the start of its range. -/
theorem rank_inserted {t : UniqueIndex key} {a : α} (h : ¬t.hasKey (key a)) :
    (t.insert a).rankOf (key a) = (t.below cls (cls a)).length +
      ((t.range cls (cls a)).filter fun x => key x < key a).length := by
  have hself : (t.insert a).rankOf (key a) = ((t.insert a).below key (key a)).length := by
    rw [rankOf, rank, @toList_split _ _ _ _ _ _ key (fun _ _ h => h) (t.insert a) (key a)]
    have hrange : (t.insert a).range key (key a) = [a] := by
      have hold : t.range key (key a) = [] :=
        List.filter_eq_nil_iff.mpr fun b hb => by simpa using key_ne_of_not_hasKey h b hb
      rw [range_insert h, if_pos rfl, hold, List.orderedInsert_nil]
    rw [hrange, List.findIdx_append, List.findIdx_eq_length_of_false, if_neg (lt_irrefl _)]
    · simp [List.findIdx_cons]
    · intro b hb
      simpa using (of_decide_eq_true (List.mem_filter.mp hb).2).ne
  have hbelow : (t.insert a).below key (key a) = t.toList.filter fun x => key x < key a := by
    rw [below, toList_insert h, filter_orderedInsert _ t.sorted]
    simp
  have hlow : (t.below cls (cls a)).filter (fun x => key x < key a) = t.below cls (cls a) := by
    refine List.filter_eq_self.mpr fun x hx => ?_
    have hx := of_decide_eq_true (List.mem_filter.mp hx).2
    exact decide_eq_true (not_le.mp fun hk => (hcls _ _ hk).not_gt hx)
  have habove : (t.above cls (cls a)).filter (fun x => key x < key a) = [] := by
    refine List.filter_eq_nil_iff.mpr fun x hx => ?_
    have hx := of_decide_eq_true (List.mem_filter.mp hx).2
    simpa using not_lt.mp fun hk => (hcls _ _ hk.le).not_gt hx
  rw [hself, hbelow]
  conv_lhs => rw [t.toList_split hcls (cls a)]
  rw [List.filter_append, List.filter_append, hlow, habove, List.append_nil, List.length_append]

/-- The last element of a nonempty range stands just before `equal_range(d).second` and
    has the greatest key of the range. -/
theorem exists_last (t : UniqueIndex key) {d : δ} (h : t.range cls d ≠ []) :
    ∃ b ∈ t.range cls d, (∀ x ∈ t.range cls d, key x ≤ key b) ∧
      t.toList[(t.below cls d).length + (t.range cls d).length - 1]? = some b := by
  refine ⟨(t.range cls d).getLast h, List.getLast_mem h, fun x hx => ?_, ?_⟩
  · have hs : (t.range cls d).Pairwise fun a b => key a < key b :=
      t.sorted.sublist List.filter_sublist
    rw [← List.dropLast_append_getLast h] at hs hx
    rcases List.mem_append.mp hx with hx | hx
    · exact ((List.pairwise_append.mp hs).2.2 x hx _ (by simp)).le
    · rw [List.mem_singleton.mp hx]
  · have hpos : 0 < (t.range cls d).length := List.length_pos_iff.mpr h
    rw [t.toList_split hcls d, List.getElem?_append_right (by omega),
      List.getElem?_append_left (by omega), List.getLast_eq_getElem,
      show (t.below cls d).length + (t.range cls d).length - 1 - (t.below cls d).length
        = (t.range cls d).length - 1 by omega, List.getElem?_eq_getElem]

end Range

end UniqueIndex

end Synergy.Lib
