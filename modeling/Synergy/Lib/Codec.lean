import Mathlib.Algebra.BigOperators.Group.List.Basic
import Mathlib.Algebra.GroupWithZero.Nat

/-!
# Codecs that agree

A writer turns a value into symbols or refuses it; a reader takes a value off the front of what
is left or refuses; a size function announces how much the writer will write. The three are
separate functions, and `Exact` is what it means that they describe one format. It is closed
under the ways formats are put together: nothing, one after the other, a count that is followed
by as many elements. A value that carries its count elsewhere is read by a reader that is told
the count (`Counted`).
-/

set_option autoImplicit false

namespace Synergy.Lib

variable {ε β α γ : Type}

theorem Except.bind_eq_ok {x : Except ε α} {f : α → Except ε γ} {r : γ} :
    x.bind f = .ok r ↔ ∃ a, x = .ok a ∧ f a = .ok r := by
  cases x with
  | error e => simp [Except.bind]
  | ok a => simp [Except.bind]

/-- Size, writer and reader describe one format; the writer accepts the values that are `ok`. -/
structure Exact (size : α → Nat) (write : α → Except ε (List β))
    (read : List β → Except ε (α × List β)) (ok : α → Prop) : Prop where
  /-- The writer accepts what is `ok`. -/
  accepts : ∀ v, ok v → ∃ out, write v = .ok out
  /-- It writes as much as was announced. -/
  sized : ∀ v out, write v = .ok out → out.length = size v
  /-- What was written is read back, whatever follows it. -/
  reads : ∀ v out rest, write v = .ok out → read (out ++ rest) = .ok (v, rest)
  /-- What was read is what the writer makes of the value. -/
  rewrites : ∀ v buf rest, read buf = .ok (v, rest) → ∃ out, write v = .ok out ∧ buf = out ++ rest

/-- The same for a reader that is told the count of the value it is to read. -/
structure Counted (count : α → Nat) (size : α → Nat) (write : α → Except ε (List β))
    (read : Nat → List β → Except ε (α × List β)) (ok : α → Prop) : Prop where
  accepts : ∀ v, ok v → ∃ out, write v = .ok out
  sized : ∀ v out, write v = .ok out → out.length = size v
  reads : ∀ v out rest, write v = .ok out → read (count v) (out ++ rest) = .ok (v, rest)
  rewrites : ∀ n v buf rest, read n buf = .ok (v, rest) →
    count v = n ∧ ∃ out, write v = .ok out ∧ buf = out ++ rest

/-! ## Nothing, and one after the other -/

theorem Exact.nil : Exact (ε := ε) (β := β) (fun _ : Unit => 0) (fun _ => .ok [])
    (fun buf => .ok ((), buf)) (fun _ => True) where
  accepts v _ := ⟨[], rfl⟩
  sized v out h := by
    cases h
    rfl
  reads v out rest h := by
    cases h
    rfl
  rewrites v buf rest h := by
    cases h
    exact ⟨[], rfl, rfl⟩

/-- Write one part, then the other. -/
def writeBoth (write : α → Except ε (List β)) (write' : γ → Except ε (List β)) (v : α × γ) :
    Except ε (List β) :=
  (write v.1).bind fun out => (write' v.2).bind fun out' => .ok (out ++ out')

/-- Read one part, then the other from what is left. -/
def readBoth (read : List β → Except ε (α × List β)) (read' : List β → Except ε (γ × List β))
    (buf : List β) : Except ε ((α × γ) × List β) :=
  (read buf).bind fun r => (read' r.2).bind fun r' => .ok ((r.1, r'.1), r'.2)

section Both

variable {size : α → Nat} {write : α → Except ε (List β)}
  {read : List β → Except ε (α × List β)} {ok : α → Prop}
  {size' : γ → Nat} {write' : γ → Except ε (List β)}
  {read' : List β → Except ε (γ × List β)} {ok' : γ → Prop}

theorem writeBoth_eq_ok {v : α × γ} {both : List β} :
    writeBoth write write' v = .ok both ↔
      ∃ out out', write v.1 = .ok out ∧ write' v.2 = .ok out' ∧ both = out ++ out' := by
  simp only [writeBoth, Except.bind_eq_ok, Except.ok.injEq]
  constructor
  · intro ⟨out, hout, out', hout', heq⟩
    exact ⟨out, out', hout, hout', heq.symm⟩
  · intro ⟨out, out', hout, hout', heq⟩
    exact ⟨out, hout, out', hout', heq.symm⟩

theorem readBoth_eq_ok {buf : List β} {v : α × γ} {rest : List β} :
    readBoth read read' buf = .ok (v, rest) ↔
      ∃ buf', read buf = .ok (v.1, buf') ∧ read' buf' = .ok (v.2, rest) := by
  simp only [readBoth, Except.bind_eq_ok, Except.ok.injEq, Prod.mk.injEq]
  constructor
  · intro ⟨r, hr, r', hr', heq, hrest⟩
    subst heq hrest
    exact ⟨r.2, hr, hr'⟩
  · intro ⟨buf', hr, hr'⟩
    exact ⟨_, hr, _, hr', rfl, rfl⟩

theorem Exact.both (h : Exact size write read ok) (h' : Exact size' write' read' ok') :
    Exact (fun v => size v.1 + size' v.2) (writeBoth write write') (readBoth read read')
      (fun v => ok v.1 ∧ ok' v.2) where
  accepts v hv := by
    obtain ⟨out, hout⟩ := h.accepts v.1 hv.1
    obtain ⟨out', hout'⟩ := h'.accepts v.2 hv.2
    exact ⟨out ++ out', writeBoth_eq_ok.mpr ⟨out, out', hout, hout', rfl⟩⟩
  sized v both hboth := by
    obtain ⟨out, out', hout, hout', rfl⟩ := writeBoth_eq_ok.mp hboth
    rw [List.length_append, h.sized _ _ hout, h'.sized _ _ hout']
  reads v both rest hboth := by
    obtain ⟨out, out', hout, hout', rfl⟩ := writeBoth_eq_ok.mp hboth
    apply readBoth_eq_ok.mpr
    refine ⟨out' ++ rest, ?_, h'.reads _ _ rest hout'⟩
    rw [List.append_assoc]
    exact h.reads _ _ _ hout
  rewrites v buf rest hread := by
    obtain ⟨buf', hr, hr'⟩ := readBoth_eq_ok.mp hread
    obtain ⟨out, hout, rfl⟩ := h.rewrites _ _ _ hr
    obtain ⟨out', hout', rfl⟩ := h'.rewrites _ _ _ hr'
    refine ⟨out ++ out', writeBoth_eq_ok.mpr ⟨out, out', hout, hout', rfl⟩, ?_⟩
    rw [List.append_assoc]

end Both

/-! ## As many as was counted -/

/-- Write every element of a list. -/
def writeEach (write : α → Except ε (List β)) : List α → Except ε (List β)
  | [] => .ok []
  | v :: vs => (write v).bind fun out => (writeEach write vs).bind fun out' => .ok (out ++ out')

/-- Read `n` elements. -/
def readEach (read : List β → Except ε (α × List β)) :
    Nat → List β → Except ε (List α × List β)
  | 0, buf => .ok ([], buf)
  | n + 1, buf =>
    (read buf).bind fun r => (readEach read n r.2).bind fun r' => .ok (r.1 :: r'.1, r'.2)

section Each

variable {size : α → Nat} {write : α → Except ε (List β)}
  {read : List β → Except ε (α × List β)} {ok : α → Prop}

theorem writeEach_cons_eq_ok {v : α} {vs : List α} {all : List β} :
    writeEach write (v :: vs) = .ok all ↔
      ∃ out out', write v = .ok out ∧ writeEach write vs = .ok out' ∧ all = out ++ out' := by
  rw [← writeBoth_eq_ok (v := (v, vs))]
  rfl

theorem readEach_succ_eq_ok {n : Nat} {buf rest : List β} {vs : List α} :
    readEach read (n + 1) buf = .ok (vs, rest) ↔
      ∃ v vs' buf', read buf = .ok (v, buf') ∧ readEach read n buf' = .ok (vs', rest) ∧
        vs = v :: vs' := by
  simp only [readEach, Except.bind_eq_ok, Except.ok.injEq, Prod.mk.injEq]
  constructor
  · intro ⟨r, hr, r', hr', heq, hrest⟩
    subst heq hrest
    exact ⟨r.1, r'.1, r.2, hr, hr', rfl⟩
  · intro ⟨v, vs', buf', hr, hr', heq⟩
    exact ⟨_, hr, _, hr', heq.symm, rfl⟩

theorem Exact.each (h : Exact size write read ok) :
    Counted List.length (fun vs => (vs.map size).sum) (writeEach write) (readEach read)
      (fun vs => ∀ v ∈ vs, ok v) where
  accepts vs hvs := by
    induction vs with
    | nil => exact ⟨[], rfl⟩
    | cons v vs ih =>
      obtain ⟨out, hout⟩ := h.accepts v (hvs v (by simp))
      obtain ⟨out', hout'⟩ := ih fun w hw => hvs w (by simp [hw])
      exact ⟨out ++ out', writeEach_cons_eq_ok.mpr ⟨out, out', hout, hout', rfl⟩⟩
  sized vs all hall := by
    induction vs generalizing all with
    | nil =>
      cases hall
      rfl
    | cons v vs ih =>
      obtain ⟨out, out', hout, hout', rfl⟩ := writeEach_cons_eq_ok.mp hall
      simp [h.sized v out hout, ih out' hout']
  reads vs all rest hall := by
    induction vs generalizing all with
    | nil =>
      cases hall
      rfl
    | cons v vs ih =>
      obtain ⟨out, out', hout, hout', rfl⟩ := writeEach_cons_eq_ok.mp hall
      apply readEach_succ_eq_ok.mpr
      refine ⟨v, vs, out' ++ rest, ?_, ih out' hout', rfl⟩
      rw [List.append_assoc]
      exact h.reads v out _ hout
  rewrites n vs buf rest hread := by
    induction n generalizing vs buf with
    | zero =>
      cases hread
      exact ⟨rfl, [], rfl, rfl⟩
    | succ n ih =>
      obtain ⟨v, vs', buf', hr, hr', rfl⟩ := readEach_succ_eq_ok.mp hread
      obtain ⟨out, hout, rfl⟩ := h.rewrites v buf buf' hr
      obtain ⟨hlen, out', hout', rfl⟩ := ih vs' buf' hr'
      refine ⟨by simp [hlen], out ++ out', ?_, by rw [List.append_assoc]⟩
      exact writeEach_cons_eq_ok.mpr ⟨out, out', hout, hout', rfl⟩

end Each

/-- Take `n` symbols as they are, refusing with `e` where there are fewer. -/
def takeExactly (e : ε) (n : Nat) (buf : List β) : Except ε (List β × List β) :=
  if buf.length < n then .error e else .ok (buf.take n, buf.drop n)

theorem Counted.symbols (e : ε) : Counted (β := β) List.length List.length .ok (takeExactly e)
    (fun _ => True) where
  accepts v _ := ⟨v, rfl⟩
  sized v out h := by
    cases h
    rfl
  reads v out rest h := by
    cases h
    simp [takeExactly]
  rewrites n v buf rest h := by
    unfold takeExactly at h
    split at h
    · exact absurd h (by simp)
    · cases h
      refine ⟨by simp; omega, _, rfl, (List.take_append_drop n buf).symm⟩

section Prefixed

variable {count : α → Nat} {size : α → Nat} {write : α → Except ε (List β)}
  {read : Nat → List β → Except ε (α × List β)} {ok : α → Prop}
  {sizeN : Nat → Nat} {writeN : Nat → Except ε (List β)}
  {readN : List β → Except ε (Nat × List β)} {okN : Nat → Prop}

/-- A reader that first looks whether enough is left refuses nothing that was written. -/
theorem Counted.guarded (h : Counted count size write read ok) (need : Nat → Nat) (e : ε)
    (hneed : ∀ v, need (count v) ≤ size v) :
    Counted count size write (fun n buf => if buf.length < need n then .error e else read n buf)
      ok where
  accepts := h.accepts
  sized := h.sized
  reads v out rest hout := by
    have hlen : ¬ (out ++ rest).length < need (count v) := by
      have := hneed v
      rw [List.length_append, h.sized v out hout]
      omega
    rw [if_neg hlen]
    exact h.reads v out rest hout
  rewrites n v buf rest hread := by
    split at hread
    · exact absurd hread (by simp)
    · exact h.rewrites n v buf rest hread

/-- The count in front of what it counts. -/
theorem Counted.prefixed (hn : Exact sizeN writeN readN okN)
    (h : Counted count size write read ok) :
    Exact (fun v => sizeN (count v) + size v)
      (fun v => (writeN (count v)).bind fun out => (write v).bind fun out' => .ok (out ++ out'))
      (fun buf => (readN buf).bind fun r => read r.1 r.2)
      (fun v => okN (count v) ∧ ok v) where
  accepts v hv := by
    obtain ⟨out, hout⟩ := hn.accepts _ hv.1
    obtain ⟨out', hout'⟩ := h.accepts v hv.2
    exact ⟨out ++ out', by simp [hout, hout', Except.bind]⟩
  sized v all hall := by
    simp only [Except.bind_eq_ok, Except.ok.injEq] at hall
    obtain ⟨out, hout, out', hout', rfl⟩ := hall
    rw [List.length_append, hn.sized _ _ hout, h.sized _ _ hout']
  reads v all rest hall := by
    simp only [Except.bind_eq_ok, Except.ok.injEq] at hall ⊢
    obtain ⟨out, hout, out', hout', rfl⟩ := hall
    refine ⟨(count v, out' ++ rest), ?_, h.reads v out' rest hout'⟩
    rw [List.append_assoc]
    exact hn.reads _ out _ hout
  rewrites v buf rest hread := by
    simp only [Except.bind_eq_ok, Except.ok.injEq] at hread ⊢
    obtain ⟨⟨n, buf'⟩, hr, hr'⟩ := hread
    obtain ⟨out, hout, rfl⟩ := hn.rewrites n buf buf' hr
    obtain ⟨rfl, out', hout', rfl⟩ := h.rewrites n v buf' rest hr'
    exact ⟨out ++ out', ⟨out, hout, out', hout', rfl⟩, by rw [List.append_assoc]⟩

end Prefixed

end Synergy.Lib
