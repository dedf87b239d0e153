import Mathlib.Data.List.DropRight
import Synergy.Lib.Lines
import Synergy.Lib.Run

/-!
# What the core prints

The two loops of `CoreProcessImpl` that read what its child prints, one for each standard stream.
`async_read_until` is over when there is a newline in the buffer, and a buffer may hold more than
one line by then. `asyncReadLines` takes a line out of it, waits for the next, and emits `output`.
The loops have one `m_lineBuffer` between them.

A loop ends when its read fails: at the end of the stream, or because `cancel` came while it was
waiting. A read that is over already is not cancelled.
-/

set_option autoImplicit false

namespace Synergy

open Lib

namespace CoreOutput

/-- The standard streams of the child. -/
inductive Source where
  | out
  | err
  deriving DecidableEq

/-- Where the `async_read_until` of a loop is. -/
inductive Reading where
  | outstanding
  /-- Its handler is queued, with a line in the buffer or with an error. -/
  | completed
  | failed
  /-- There is none any more. -/
  | over
  deriving DecidableEq

structure Pipe where
  buffer : List UInt8 := []
  reading : Reading := .outstanding
  /-- All bytes that were read. -/
  arrived : List UInt8 := []

inductive Event where
  /-- Some bytes are read. -/
  | arrive (source : Source) (bytes : List UInt8)
  | fail (source : Source)
  /-- The handler of a read runs. -/
  | handle (source : Source)

end CoreOutput

open CoreOutput (Source Reading Pipe)

structure CoreOutput where
  pipes : Source → Pipe := fun _ => {}
  lineBuffer : List UInt8 := []
  /-- The lines that were emitted, oldest first. -/
  output : List (Source × List UInt8) := []

namespace CoreOutput

def newline : UInt8 := 10

/-- `std::isspace`, in the classic locale. -/
def isSpace (c : UInt8) : Bool := c = 32 ∨ (9 ≤ c ∧ c ≤ 13)

/-- `boost::algorithm::trim_right`. -/
def trimRight (line : List UInt8) : List UInt8 := line.rdropWhile isSpace

/-- `std::getline`, which fails if there is nothing to extract. -/
def getline (buffer : List UInt8) : Option (List UInt8 × List UInt8) :=
  if buffer = [] then none
  else some (buffer.takeWhile (· ≠ newline), (buffer.dropWhile (· ≠ newline)).tail)

def setPipe (s : CoreOutput) (source : Source) (pipe : Pipe) : CoreOutput :=
  { s with pipes := fun i => if i = source then pipe else s.pipes i }

/-- `async_read_until` looks at what is in the buffer first. -/
def asyncReadUntil (pipe : Pipe) : Pipe :=
  { pipe with reading := if newline ∈ pipe.buffer then .completed else .outstanding }

/-- The handler of a read that has not failed. -/
def asyncReadLines (s : CoreOutput) (source : Source) : CoreOutput :=
  match getline (s.pipes source).buffer with
  | none => s.setPipe source { s.pipes source with reading := .over }
  | some (line, buffer) =>
    let s := s.setPipe source (asyncReadUntil { s.pipes source with buffer := buffer })
    { s with lineBuffer := trimRight line, output := s.output ++ [(source, trimRight line)] }

def step (s : CoreOutput) : Event → Option CoreOutput
  | .arrive source bytes =>
    if (s.pipes source).reading = .outstanding ∧ bytes ≠ [] then
      some (s.setPipe source (asyncReadUntil { s.pipes source with
        buffer := (s.pipes source).buffer ++ bytes
        arrived := (s.pipes source).arrived ++ bytes }))
    else none
  | .fail source =>
    if (s.pipes source).reading = .outstanding then
      some (s.setPipe source { s.pipes source with reading := .failed })
    else none
  | .handle source =>
    match (s.pipes source).reading with
    | .completed => some (s.asyncReadLines source)
    | .failed => some (s.setPipe source { s.pipes source with reading := .over })
    | .outstanding | .over => none

/-- The lines that were emitted for one of the streams. -/
def linesOf (s : CoreOutput) (source : Source) : List (List UInt8) :=
  (s.output.filter fun emitted => emitted.1 = source).map Prod.snd

/-! ## One loop -/

variable {s s' : CoreOutput} {source other : Source} {pipe : Pipe} {lines : List (List UInt8)}

/-- These lines were taken out of the buffer, and there is a read that is over exactly while there
is another one in it. -/
structure Loop (pipe : Pipe) (lines : List (List UInt8)) : Prop where
  taken : Leading newline pipe.arrived lines pipe.buffer
  reading : pipe.reading = .completed ↔ newline ∈ pipe.buffer

theorem loop_asyncReadUntil (h : Leading newline pipe.arrived lines pipe.buffer) :
    Loop (asyncReadUntil pipe) lines := by
  refine ⟨h, ?_⟩
  unfold asyncReadUntil
  split <;> simp_all

/-- The line that `getline` extracts where there is a newline. -/
theorem getline_eq {buffer : List UInt8} (h : newline ∈ buffer) :
    ∃ line rest, getline buffer = some (line, rest) ∧ newline ∉ line ∧
      buffer = line ++ newline :: rest := by
  obtain ⟨line, rest, rfl, hline⟩ := List.eq_append_cons_of_mem h
  have hkept : ∀ c ∈ line, decide (c ≠ newline) = true := by
    intro c hc
    exact decide_eq_true fun hnewline => hline (hnewline ▸ hc)
  refine ⟨line, rest, ?_, hline, rfl⟩
  rw [getline, if_neg (by simp), List.takeWhile_append_of_pos hkept,
    List.dropWhile_append_of_pos hkept]
  simp

/-! ## Both loops -/

@[simp] theorem pipes_setPipe (s : CoreOutput) (source other : Source) (pipe : Pipe) :
    (s.setPipe source pipe).pipes other = if other = source then pipe else s.pipes other := rfl

@[simp] theorem linesOf_setPipe (s : CoreOutput) (source other : Source) (pipe : Pipe) :
    (s.setPipe source pipe).linesOf other = s.linesOf other := rfl

/-- What was emitted for every stream are the lines that its loop took, without the white space at
their ends. -/
def Reads (s : CoreOutput) : Prop :=
  ∀ source, ∃ lines, Loop (s.pipes source) lines ∧ s.linesOf source = lines.map trimRight

theorem Reads.setPipe (h : s.Reads)
    (hpipe : ∀ lines, Loop (s.pipes source) lines → Loop pipe lines) :
    (s.setPipe source pipe).Reads := by
  intro other
  obtain ⟨lines, hloop, houtput⟩ := h other
  refine ⟨lines, ?_, houtput⟩
  rw [pipes_setPipe]
  split
  · rename_i heq
    exact hpipe lines (heq ▸ hloop)
  · exact hloop

theorem Reads.asyncReadLines (h : s.Reads) (hcompleted : (s.pipes source).reading = .completed) :
    (s.asyncReadLines source).Reads := by
  obtain ⟨lines, hloop, houtput⟩ := h source
  obtain ⟨line, rest, hgetline, hline, hbuffer⟩ := getline_eq (hloop.reading.mp hcompleted)
  have htaken : Leading newline (s.pipes source).arrived (lines ++ [line]) rest :=
    Leading.concat (hbuffer ▸ hloop.taken) hline
  rw [CoreOutput.asyncReadLines, hgetline]
  intro other
  by_cases hother : other = source
  · subst hother
    refine ⟨lines ++ [line], ?_, ?_⟩
    · simp only [pipes_setPipe, if_pos]
      exact loop_asyncReadUntil htaken
    · simp only [linesOf, CoreOutput.setPipe] at houtput ⊢
      simp [houtput]
  · obtain ⟨lines', hloop', houtput'⟩ := h other
    refine ⟨lines', ?_, ?_⟩
    · simpa [hother] using hloop'
    · simp only [linesOf, CoreOutput.setPipe] at houtput' ⊢
      simp [houtput', Ne.symm hother]

/-- A read that is waiting goes over to another state, with the same buffer. -/
theorem Loop.stop (h : Loop pipe lines) (houtstanding : pipe.reading ≠ .completed)
    {reading : Reading} (hreading : reading ≠ .completed) :
    Loop { pipe with reading := reading } lines :=
  ⟨h.taken, iff_of_false hreading fun hmem => houtstanding (h.reading.mpr hmem)⟩

theorem Reads.step (h : s.Reads) {ev : Event} (hstep : s.step ev = some s') : s'.Reads := by
  cases ev with
  | arrive source bytes =>
    simp only [CoreOutput.step, Option.ite_none_right_eq_some, Option.some.injEq] at hstep
    obtain ⟨_, rfl⟩ := hstep
    exact h.setPipe fun lines hloop => loop_asyncReadUntil (hloop.taken.append bytes)
  | fail source =>
    simp only [CoreOutput.step, Option.ite_none_right_eq_some, Option.some.injEq] at hstep
    obtain ⟨houtstanding, rfl⟩ := hstep
    exact h.setPipe fun lines hloop => hloop.stop (by simp [houtstanding]) (by simp)
  | handle source =>
    simp only [CoreOutput.step] at hstep
    split at hstep
    · rename_i hcompleted
      exact Option.some.inj hstep ▸ h.asyncReadLines hcompleted
    · rename_i hfailed
      refine Option.some.inj hstep ▸ h.setPipe fun lines hloop => ?_
      exact hloop.stop (by simp [hfailed]) (by simp)
    · exact absurd hstep (by simp)
    · exact absurd hstep (by simp)

/-- **The lines that the core prints are emitted one by one**, however the bytes of its two streams
arrive and whichever loop gets its turn: what was emitted for a stream are the first of its lines,
without the white space at their ends, and it is all of them unless a read is over whose handler has
not run. In particular a line is not lost when a loop ends, and a stream's last line is not emitted
where it has no newline. -/
theorem output_eq_lines (evs : List Event) (source : Source) :
    ((execs step {} evs).linesOf source <+:
        (cutAt newline ((execs step {} evs).pipes source).arrived).1.map trimRight) ∧
      (((execs step {} evs).pipes source).reading ≠ .completed →
        (execs step {} evs).linesOf source =
          (cutAt newline ((execs step {} evs).pipes source).arrived).1.map trimRight) := by
  have hrun : Run step (fun _ _ => True) {} (execs step {} evs) :=
    Run.nil.execs (allOk_of_forall (fun _ _ => trivial) _ evs)
  have hreads : (execs step {} evs).Reads := by
    refine hrun.invariant (fun source => ⟨[], ⟨Leading.nil [], by simp⟩, rfl⟩) ?_
    exact fun _ _ _ _ hs _ hstep => hs.step hstep
  obtain ⟨lines, hloop, houtput⟩ := hreads source
  have hlines := lines_cutAt newline ((execs step {} evs).pipes source).arrived
  rw [houtput]
  refine ⟨(hloop.taken.first hlines).map trimRight, fun hreading => ?_⟩
  have hrest : newline ∉ ((execs step {} evs).pipes source).buffer :=
    fun hmem => hreading (hloop.reading.mpr hmem)
  rw [(hlines.unique ⟨hloop.taken, hrest⟩).1]

/-- Two lines arrive in three pieces, the other stream's in between. -/
example : (execs step {} [.arrive .out [111, 107, 13], .arrive .err [33, 10],
    .arrive .out [10, 111, 10, 112], .handle .out, .handle .err, .handle .out]).output =
      [(.out, [111, 107]), (.err, [33]), (.out, [111])] := by decide +kernel

end CoreOutput

end Synergy
