import Synergy.Lib.Run
import Synergy.Service.Zombies

/-!
# Whose read the timer cancels

The timer is armed by the first bytes of a frame and disarmed by `reset` at its end, but an expiry
whose handler is queued by then is not taken back. The handler does not ask which frame it was armed
for: it cancels whatever the socket is waiting for when it runs, and that may be the next header of
a peer that has always been in time.

Beside the session, a `FrameReader` keeps what the code does not: the number of the frame, the frame
for which the timer was armed, and for each queued expiry whether bytes of that frame were missing
when it happened. The header and the body of every frame are given beforehand.
-/

set_option autoImplicit false

namespace Synergy

open Lib

/-- An expiry of the timer whose handler has not run yet. -/
structure Expiry where
  /-- The frame for which the timer was armed. -/
  frame : Option ℕ
  /-- Bytes of it were still missing. -/
  late : Bool
deriving DecidableEq

/-- A call of `lowest_layer().cancel ()` by the handler. -/
structure TimerCancel where
  expiry : Expiry
  /-- The frame that is being read at the time. -/
  reading : Option ℕ
  /-- An `async_read_some` is outstanding, so that it is aborted. -/
  aborts : Bool
deriving DecidableEq

/-- The frame that is being read is the one for which the timer was armed, and it is aborted only
where the peer was late with it. -/
def TimerCancel.Own (c : TimerCancel) : Prop :=
  (∃ k, c.expiry.frame = some k ∧ c.reading = some k) ∧ (c.aborts = true → c.expiry.late = true)

structure FrameReader where
  session : Session
  /-- How many frames are over. -/
  frame : ℕ
  armedFor : Option ℕ
  expiries : List Expiry
  cancels : List TimerCancel

inductive FrameMove
  /-- The coroutine runs for the first time. -/
  | begin
  /-- The tests between two frames. -/
  | test
  /-- Bytes arrive, or the connection fails. -/
  | transfer (ec : ErrorCode) (bytes : ℕ)
  | expire
  /-- The handler of the timer runs. -/
  | timeout
  /-- The handler of a completed read runs. -/
  | resume

namespace Session

/-- An `async_read` is over when this completion is handled. -/
def readOver (s : Session) (total : ℕ) (ec : ErrorCode) (bytes : ℕ) : Bool :=
  (ec = .success ∧ bytes = 0) ∨ ec ≠ .success ∨ s.reader.readSize ≤ total + bytes

/-- The handler of the queued completion ends the frame: the body is read, or the header is not. -/
def endsFrame (s : Session) : Bool :=
  match s.loop with
  | .reading header ⟨total, .queued ec bytes⟩ =>
    s.readOver total ec bytes && (header.isSome || total + bytes ≠ kHeaderSize)
  | _ => false

/-- The last byte of the frame has arrived. -/
def delivered (s : Session) (size : UInt32) : Bool :=
  match s.loop with
  | .reading none ⟨total, .queued _ bytes⟩ => total + bytes = kHeaderSize && size = 0
  | .reading (some header) ⟨total, .queued _ bytes⟩ => total + bytes = header.size.toNat
  | _ => false

def inRead (s : Session) : Bool :=
  match s.loop with
  | .reading _ _ => true
  | _ => false

end Session

namespace FrameReader

def initial : FrameReader where
  session := { Session.initial with loop := .spawned }
  frame := 0
  armedFor := none
  expiries := []
  cancels := []

variable (frames : ℕ → Content)

/-- The frame that is being read. -/
def reading (x : FrameReader) : Option ℕ := if x.session.inRead then some x.frame else none

def delivered (x : FrameReader) : Bool := x.session.delivered (frames x.frame).header.size

def step (x : FrameReader) : FrameMove → Option FrameReader
  | .begin =>
    if x.session.loop = .spawned then some { x with session := x.session.begin } else none
  | .test =>
    if x.session.loop = .testing then some { x with session := x.session.test.1 } else none
  | .transfer ec bytes => (x.session.transfer ec bytes).map fun s => { x with session := s }
  | .expire =>
    x.session.expire.map fun s => { x with
      session := s
      armedFor := none
      expiries := x.expiries ++ [{ frame := x.armedFor, late := !x.delivered frames }] }
  | .timeout =>
    match x.expiries with
    | [] => none
    | expiry :: expiries =>
      x.session.timeout.map fun s => { x with
        session := s
        expiries := expiries
        cancels := x.cancels ++
          [{ expiry := expiry, reading := x.reading, aborts := x.session.loop.Waits }] }
  | .resume =>
    (x.session.resume (frames x.frame)).map fun result => { x with
      session := result.1
      frame := if result.1.inRead then x.frame else x.frame + 1
      armedFor :=
        if !result.1.reader.timer.armed then none
        else if x.session.reader.timer.armed then x.armedFor else some x.frame }

/-- The end of a frame is not handled while the handler of an expired timer is queued. -/
def NoneLeft (x : FrameReader) : FrameMove → Prop
  | .resume => x.session.endsFrame = true → x.expiries = []
  | _ => True

instance (x : FrameReader) : (move : FrameMove) → Decidable (x.NoneLeft move)
  | .resume => inferInstanceAs (Decidable (x.session.endsFrame = true → x.expiries = []))
  | .begin | .test | .transfer _ _ | .expire | .timeout => inferInstanceAs (Decidable True)

end FrameReader

/-! ## What a completion does -/

namespace Session

variable {x y : Session}

/-- The first chunk that leaves something wanted arms the timer. -/
inductive Arms (r : MessageReader) : MessageReader → Prop
  | no : Arms r r
  | yes (idle : r.started = false) :
      Arms r { r with started := true, timer := r.timer.asyncWait }

/-- The ways in which the handler of a completed read can leave the session. -/
inductive CompletionCase (x : Session) (content : Content) (header : Option MessageHeader)
    (total : ℕ) (ec : ErrorCode) (bytes : ℕ) : Session → Prop
  | more (notOver : x.readOver total ec bytes = false) (reader : MessageReader)
      (arms : Arms x.reader reader) : CompletionCase x content header total ec bytes
        { x with reader := reader, loop := .reading header ⟨total + bytes, .outstanding⟩ }
  | body (isOver : x.readOver total ec bytes = true) (isHeader : header = none)
      (whole : total + bytes = kHeaderSize) : CompletionCase x content header total ec bytes
        ({ x with reader := { x.reader with error := ec } }.readBody content.header)
  | ends (isOver : x.readOver total ec bytes = true)
      (last : (header.isSome || total + bytes ≠ kHeaderSize) = true) :
      CompletionCase x content header total ec bytes
        { x with reader := { x.reader with error := ec }.reset, loop := .testing }

theorem advance_of_over {total bytes : ℕ} {ec : ErrorCode}
    (h : x.readOver total ec bytes = true) :
    AsyncRead.advance x.reader total ec bytes =
      ({ x.reader with error := ec }, some (total + bytes)) := by
  rw [readOver, decide_eq_true_eq] at h
  unfold AsyncRead.advance
  split
  · rename_i hzero
    rw [hzero.2]
    rfl
  · rename_i hzero
    have hchunk : x.reader.readChunk ec (total + bytes) = (x.reader, 0) :=
      if_pos (h.resolve_left hzero)
    rw [hchunk]
    rfl

theorem advance_of_not_over {total bytes : ℕ} {ec : ErrorCode}
    (h : x.readOver total ec bytes = false) :
    ∃ reader, Arms x.reader reader ∧
      AsyncRead.advance x.reader total ec bytes = (reader, none) := by
  rw [readOver, decide_eq_false_iff_not, not_or] at h
  obtain ⟨hzero, hmore⟩ := h
  have hwanted : min (x.reader.readSize - (total + bytes)) 65536 ≠ 0 := by
    have hlt : ¬x.reader.readSize ≤ total + bytes := fun hle => hmore (Or.inr hle)
    omega
  unfold AsyncRead.advance
  rw [if_neg hzero]
  unfold MessageReader.readChunk
  rw [if_neg hmore]
  by_cases hstart : (!x.reader.started && total + bytes ≠ 0) = true
  · refine ⟨_, .yes ?_, by simp only [hstart, if_true, hwanted, if_false]⟩
    simp only [Bool.and_eq_true, Bool.not_eq_true'] at hstart
    exact hstart.1
  · exact ⟨_, .no, by simp only [hstart, Bool.false_eq_true, if_false, hwanted]⟩

theorem completion_cases {content : Content} {message : Option (MessageHeader × Body)}
    (h : x.resume content = some (y, message)) :
    ∃ header total ec bytes, x.loop = .reading header ⟨total, .queued ec bytes⟩ ∧
      CompletionCase x content header total ec bytes y := by
  unfold resume at h
  split at h
  · rename_i header total ec bytes hloop
    refine ⟨header, total, ec, bytes, hloop, ?_⟩
    cases hover : x.readOver total ec bytes with
    | false =>
      obtain ⟨reader, harms, hadvance⟩ := advance_of_not_over hover
      rw [hadvance] at h
      cases h
      exact .more hover reader harms
    | true =>
      rw [advance_of_over hover] at h
      cases header with
      | some header =>
        cases h
        exact .ends hover rfl
      | none =>
        change some (headerRead { x with reader := { x.reader with error := ec } }
          (total + bytes) content.header, none) = some (y, message) at h
        by_cases hwhole : total + bytes = kHeaderSize
        · rw [headerRead, if_neg (not_not.mpr hwhole)] at h
          cases h
          exact .body hover rfl hwhole
        · rw [headerRead, if_pos hwhole] at h
          cases h
          exact .ends hover (by simp [hwhole])
  · exact absurd h (by simp)

end Session

/-! ## One frame at a time -/

namespace FrameReader

variable {frames : ℕ → Content} {x : FrameReader} {s : Session}

/-- How much an `async_read` of the frame asks for. -/
def Sized (content : Content) (readSize : ℕ) : Option MessageHeader → Prop
  | none => readSize = kHeaderSize
  | some header => header = content.header ∧ readSize = header.size.toNat

/-- The timer and its expiries are of the frame that is being read, and between two frames there are
none. -/
structure Tagged (frames : ℕ → Content) (x : FrameReader) : Prop where
  armed : x.session.reader.timer.armed = true →
    x.armedFor = some x.frame ∧ x.session.reader.started = true
  between : x.session.inRead = false →
    x.session.reader.timer.armed = false ∧ x.expiries = []
  due : x.expiries.length = x.session.reader.timer.due
  own : ∀ e ∈ x.expiries, e.frame = some x.frame ∧ (e.late = false → x.delivered frames = true)
  sized : ∀ header read, x.session.loop = .reading header read →
    Sized (frames x.frame) x.session.reader.readSize header
  cancels : ∀ c ∈ x.cancels, c.Own

theorem inRead_of_reading {header : Option MessageHeader} {read : AsyncRead}
    (h : s.loop = .reading header read) : s.inRead = true := by
  simp [Session.inRead, h]

theorem not_waits_of_delivered {size : UInt32} (h : s.delivered size = true) :
    ¬s.loop.Waits := by
  intro hwaits
  unfold Session.delivered at h
  split at h
  · rename_i hloop
    rw [hloop] at hwaits
    exact hwaits
  · rename_i hloop
    rw [hloop] at hwaits
    exact hwaits
  · exact absurd h Bool.false_ne_true

theorem inRead_cancel (s : Session) : s.cancel.inRead = s.inRead := by
  unfold Session.cancel
  split
  · rename_i hloop
    simp [Session.inRead, hloop]
  · rfl

theorem reading_of_cancel {header : Option MessageHeader} {read : AsyncRead}
    (h : s.cancel.loop = .reading header read) : ∃ read', s.loop = .reading header read' := by
  unfold Session.cancel at h
  split at h
  · rename_i hloop
    cases h
    exact ⟨_, hloop⟩
  · exact ⟨read, h⟩

namespace Tagged

theorem initial (frames : ℕ → Content) : Tagged frames FrameReader.initial where
  armed h := absurd h Bool.false_ne_true
  between _ := ⟨rfl, rfl⟩
  due := rfl
  own e he := absurd he (by simp [FrameReader.initial])
  sized header read h := absurd h nofun
  cancels c hc := absurd hc (by simp [FrameReader.initial])

/-- Between two frames the loop goes on to the next header, or somewhere else. -/
theorem outside (h : Tagged frames x) (hout : x.session.inRead = false)
    (hreader : s.reader = x.session.reader) (hloop : s.inRead = false) :
    Tagged frames { x with session := s } := by
  obtain ⟨hidle, hnone⟩ := h.between hout
  refine ⟨fun harmed => ?_, fun _ => ⟨by rw [hreader, hidle], hnone⟩, by rw [hreader, h.due],
    fun e he => ?_, fun header read hread => ?_, h.cancels⟩
  · rw [hreader, hidle] at harmed
    exact absurd harmed Bool.false_ne_true
  · rw [hnone] at he
    exact absurd he List.not_mem_nil
  · rw [inRead_of_reading hread] at hloop
    exact absurd hloop.symm Bool.false_ne_true

theorem readHeader (h : Tagged frames x) (hout : x.session.inRead = false)
    (hreader : s.reader = x.session.reader) :
    Tagged frames { x with session := s.readHeader } := by
  obtain ⟨hidle, hnone⟩ := h.between hout
  have htimer : s.readHeader.reader.timer = x.session.reader.timer := by rw [← hreader]; rfl
  refine ⟨fun harmed => ?_, fun hnot => absurd hnot nofun, by rw [htimer, h.due],
    fun e he => ?_, fun header read hread => ?_, h.cancels⟩
  · rw [htimer, hidle] at harmed
    exact absurd harmed Bool.false_ne_true
  · rw [hnone] at he
    exact absurd he List.not_mem_nil
  · cases hread
    rfl

theorem test (h : Tagged frames x) (htesting : x.session.loop = .testing) :
    Tagged frames { x with session := x.session.test.1 } := by
  have hout : x.session.inRead = false := by simp [Session.inRead, htesting]
  unfold Session.test
  split
  · exact h.outside hout rfl rfl
  · split
    · exact h.outside hout rfl rfl
    · exact h.outside hout rfl rfl
    · exact h.readHeader hout rfl

theorem transfer (h : Tagged frames x) {ec : ErrorCode} {bytes : ℕ}
    (hstep : x.session.transfer ec bytes = some s) : Tagged frames { x with session := s } := by
  unfold Session.transfer at hstep
  split at hstep
  · rename_i header total hloop
    obtain ⟨-, heq⟩ := Option.ite_none_right_eq_some.mp hstep
    cases heq
    have hwaits : x.session.loop.Waits := by rw [hloop]; trivial
    refine ⟨h.armed, fun hnot => absurd hnot nofun, h.due, fun e he => ?_,
      fun header' read hread => ?_, h.cancels⟩
    · obtain ⟨hframe, hlate⟩ := h.own e he
      exact ⟨hframe, fun hearly => absurd hwaits (not_waits_of_delivered (hlate hearly))⟩
    · cases hread
      exact h.sized header _ hloop
  · exact absurd hstep (by simp)

theorem expire (h : Tagged frames x) (hstep : x.session.expire = some s) :
    Tagged frames { x with
      session := s
      armedFor := none
      expiries := x.expiries ++ [{ frame := x.armedFor, late := !x.delivered frames }] } := by
  obtain ⟨harmed, heq⟩ := Option.ite_none_right_eq_some.mp hstep
  cases heq
  refine ⟨fun hnow => absurd hnow Bool.false_ne_true, fun hout => ?_, ?_, fun e he => ?_,
    h.sized, h.cancels⟩
  · have hidle := (h.between hout).1
    rw [harmed] at hidle
    exact absurd hidle.symm Bool.false_ne_true
  · rw [List.length_append, h.due]
    rfl
  · rcases List.mem_append.mp he with he | he
    · exact h.own e he
    · rw [List.mem_singleton.mp he]
      refine ⟨(h.armed harmed).1, fun hearly => ?_⟩
      show x.delivered frames = true
      simpa using hearly

theorem timeout (h : Tagged frames x) {expiry : Expiry} {expiries : List Expiry}
    (hqueue : x.expiries = expiry :: expiries) (hstep : x.session.timeout = some s) :
    Tagged frames { x with
      session := s
      expiries := expiries
      cancels := x.cancels ++
        [{ expiry := expiry, reading := x.reading, aborts := x.session.loop.Waits }] } := by
  have hmem : expiry ∈ x.expiries := by
    rw [hqueue]
    exact List.mem_cons_self
  have hin : x.session.inRead = true := by
    by_contra hout
    rw [(h.between (Bool.not_eq_true _ ▸ hout)).2] at hmem
    exact absurd hmem List.not_mem_nil
  have hlength := h.due
  rw [hqueue, List.length_cons] at hlength
  unfold Session.timeout at hstep
  rw [← hlength] at hstep
  cases hstep
  -- the session with one handler fewer
  generalize hz : ({ x.session with reader := { x.session.reader with
    timer := { x.session.reader.timer with due := expiries.length } } } : Session) = z
  have hreader : z.cancel.reader = { x.session.reader with
      timer := { x.session.reader.timer with due := expiries.length } } := by
    rw [Session.cancel_reader, ← hz]
  have hloop : z.loop = x.session.loop := by rw [← hz]
  -- what is delivered stays so: there is nothing for `cancel` to abort
  have hkeep : x.delivered frames = true → z.cancel.loop = x.session.loop := by
    intro hdelivered
    rw [Session.cancel_of_not_waits (hloop ▸ not_waits_of_delivered hdelivered), hloop]
  refine ⟨fun harmed => ?_, fun hout => ?_, by rw [hreader], fun e he => ?_,
    fun header read hread => ?_, fun c hc => ?_⟩
  · rw [hreader] at harmed ⊢
    exact h.armed harmed
  · rw [inRead_cancel, Session.inRead, hloop] at hout
    exact absurd (hin.symm.trans hout) nofun
  · obtain ⟨hframe, hlate⟩ := h.own e (hqueue ▸ List.mem_cons_of_mem _ he)
    refine ⟨hframe, fun hearly => ?_⟩
    have hdelivered := hlate hearly
    unfold delivered Session.delivered at hdelivered ⊢
    rw [hkeep (hlate hearly)]
    exact hdelivered
  · obtain ⟨read', hread'⟩ := reading_of_cancel hread
    rw [hreader]
    exact h.sized header read' (hloop ▸ hread')
  · rcases List.mem_append.mp hc with hc | hc
    · exact h.cancels c hc
    · obtain ⟨hframe, hlate⟩ := h.own expiry hmem
      rw [List.mem_singleton.mp hc]
      refine ⟨⟨x.frame, hframe, by rw [reading, if_pos hin]⟩, fun haborts => ?_⟩
      by_contra hearly
      exact not_waits_of_delivered (hlate (Bool.eq_false_iff.mpr hearly))
        (of_decide_eq_true haborts)

/-- The end of a frame, and none of its expiries is left. -/
theorem ended (h : Tagged frames x) (hnone : x.expiries = []) {ec : ErrorCode} :
    Tagged frames { x with
      session := { x.session with
        reader := { x.session.reader with error := ec }.reset, loop := .testing }
      frame := x.frame + 1
      armedFor := none } := by
  have htimer : ({ x.session.reader with error := ec }.reset).timer.armed = false ∧
      ({ x.session.reader with error := ec }.reset).timer.due = x.session.reader.timer.due := by
    unfold MessageReader.reset
    by_cases hstarted : x.session.reader.started = true
    · simp only [hstarted, if_true]
      exact ⟨rfl, rfl⟩
    · simp only [hstarted]
      refine ⟨Bool.eq_false_iff.mpr fun harmed => hstarted (h.armed harmed).2, rfl⟩
  refine ⟨fun harmed => ?_, fun _ => ⟨htimer.1, hnone⟩, by rw [htimer.2, h.due],
    fun e he => ?_, fun header read hread => absurd hread nofun, h.cancels⟩
  · rw [htimer.1] at harmed
    exact absurd harmed Bool.false_ne_true
  · rw [hnone] at he
    exact absurd he List.not_mem_nil

theorem over_of_delivered (h : Tagged frames x) {header : Option MessageHeader}
    {total bytes : ℕ} {ec : ErrorCode}
    (hloop : x.session.loop = .reading header ⟨total, .queued ec bytes⟩)
    (hdelivered : x.delivered frames = true) : x.session.readOver total ec bytes = true := by
  have hsized := h.sized header _ hloop
  have hle : x.session.reader.readSize ≤ total + bytes := by
    unfold delivered Session.delivered at hdelivered
    rw [hloop] at hdelivered
    cases header with
    | none =>
      simp only [Bool.and_eq_true, decide_eq_true_eq] at hdelivered
      rw [hsized, hdelivered.1]
    | some header =>
      simp only [decide_eq_true_eq] at hdelivered
      rw [hsized.2, hdelivered]
  simp [Session.readOver, hle]

/-- The frame goes on: nothing of it is delivered in full that has not been before. -/
theorem more (h : Tagged frames x) {header : Option MessageHeader} {total bytes : ℕ}
    {ec : ErrorCode} (hloop : x.session.loop = .reading header ⟨total, .queued ec bytes⟩)
    (hnot : x.session.readOver total ec bytes = false) {reader : MessageReader}
    (harms : Session.Arms x.session.reader reader) :
    Tagged frames { x with
      session := { x.session with
        reader := reader, loop := .reading header ⟨total + bytes, .outstanding⟩ }
      armedFor :=
        if !reader.timer.armed then none
        else if x.session.reader.timer.armed then x.armedFor else some x.frame } := by
  have hlate : ∀ e ∈ x.expiries, e.frame = some x.frame ∧ e.late = true := by
    intro e he
    obtain ⟨hframe, hearly⟩ := h.own e he
    refine ⟨hframe, ?_⟩
    by_contra hnotLate
    have hover := h.over_of_delivered hloop (hearly (Bool.eq_false_iff.mpr hnotLate))
    rw [hnot] at hover
    exact absurd hover Bool.false_ne_true
  have hsize : reader.readSize = x.session.reader.readSize ∧
      reader.timer.due = x.session.reader.timer.due := by
    cases harms with
    | no => exact ⟨rfl, rfl⟩
    | yes _ => exact ⟨rfl, rfl⟩
  refine ⟨fun harmed => ?_, fun hout => absurd hout nofun, by rw [hsize.2, h.due],
    fun e he => ⟨(hlate e he).1, fun hearly => ?_⟩, fun header' read hread => ?_, h.cancels⟩
  · dsimp only at harmed ⊢
    rw [harmed]
    by_cases hbefore : x.session.reader.timer.armed = true
    · obtain ⟨hframe, hstarted⟩ := h.armed hbefore
      refine ⟨by simp [hbefore, hframe], ?_⟩
      cases harms with
      | no => exact hstarted
      | yes _ => rfl
    · cases harms with
      | no => exact absurd harmed hbefore
      | yes _ => exact ⟨by simp [hbefore], rfl⟩
  · rw [(hlate e he).2] at hearly
    exact absurd hearly.symm Bool.false_ne_true
  · cases hread
    rw [hsize.1]
    exact h.sized header _ hloop

/-- From the header to the body, which may be there already if it has no bytes. -/
theorem body (h : Tagged frames x) {total bytes : ℕ} {ec : ErrorCode}
    (hloop : x.session.loop = .reading none ⟨total, .queued ec bytes⟩) :
    Tagged frames { x with
      session := { x.session with
        reader := { x.session.reader with error := ec } }.readBody (frames x.frame).header
      armedFor :=
        if !x.session.reader.timer.armed then none
        else if x.session.reader.timer.armed then x.armedFor else some x.frame } := by
  refine ⟨fun harmed => ?_, fun hout => absurd hout nofun, h.due, fun e he => ?_,
    fun header read hread => ?_, h.cancels⟩
  · obtain ⟨hframe, hstarted⟩ := h.armed harmed
    have hnow : x.session.reader.timer.armed = true := harmed
    exact ⟨by simp [hnow, hframe], hstarted⟩
  · obtain ⟨hframe, hearly⟩ := h.own e he
    refine ⟨hframe, fun hnotLate => ?_⟩
    have hdelivered := hearly hnotLate
    unfold delivered Session.delivered at hdelivered
    rw [hloop] at hdelivered
    simp only [Bool.and_eq_true, decide_eq_true_eq] at hdelivered
    simp [delivered, Session.delivered, Session.readBody, Session.asyncRead, AsyncRead.start,
      MessageReader.readChunk, hdelivered.2]
  · cases hread
    exact ⟨rfl, rfl⟩

theorem resume (h : Tagged frames x) (hnone : x.session.endsFrame = true → x.expiries = [])
    {message : Option (MessageHeader × Body)}
    (hstep : x.session.resume (frames x.frame) = some (s, message)) :
    Tagged frames { x with
      session := s
      frame := if s.inRead then x.frame else x.frame + 1
      armedFor :=
        if !s.reader.timer.armed then none
        else if x.session.reader.timer.armed then x.armedFor else some x.frame } := by
  obtain ⟨header, total, ec, bytes, hloop, hcase⟩ := Session.completion_cases hstep
  cases hcase with
  | more notOver reader arms => exact h.more hloop notOver arms
  | body isOver isHeader whole =>
    subst isHeader
    exact h.body hloop
  | ends isOver last =>
    have hends : x.session.endsFrame = true := by
      unfold Session.endsFrame
      rw [hloop]
      exact Bool.and_eq_true_iff.mpr ⟨isOver, last⟩
    have hended := @ended frames x h (hnone hends) ec
    have hidle := (hended.between rfl).1
    dsimp only at hidle ⊢
    rw [hidle]
    exact hended

theorem step (h : Tagged frames x) {move : FrameMove} (hok : x.NoneLeft move) {y : FrameReader}
    (hstep : FrameReader.step frames x move = some y) : Tagged frames y := by
  cases move with
  | begin =>
    obtain ⟨hspawned, heq⟩ := Option.ite_none_right_eq_some.mp hstep
    cases heq
    have hout : x.session.inRead = false := by simp [Session.inRead, hspawned]
    exact h.readHeader (s := { x.session with enabled := true }) hout rfl
  | test =>
    obtain ⟨htesting, heq⟩ := Option.ite_none_right_eq_some.mp hstep
    cases heq
    exact h.test htesting
  | transfer ec bytes =>
    obtain ⟨s, hs, rfl⟩ := Option.map_eq_some_iff.mp hstep
    exact h.transfer hs
  | expire =>
    obtain ⟨s, hs, rfl⟩ := Option.map_eq_some_iff.mp hstep
    exact h.expire hs
  | timeout =>
    cases hqueue : x.expiries with
    | nil =>
      rw [FrameReader.step, hqueue] at hstep
      exact absurd hstep (by simp)
    | cons expiry expiries =>
      rw [FrameReader.step, hqueue] at hstep
      obtain ⟨s, hs, rfl⟩ := Option.map_eq_some_iff.mp hstep
      exact h.timeout hqueue hs
  | resume =>
    obtain ⟨⟨s, message⟩, hs, rfl⟩ := Option.map_eq_some_iff.mp hstep
    exact h.resume hok hs

end Tagged

/-- **A timeout hits its own frame**: in a run in which no frame ends while the handler of an
expired timer is queued, every read that the timer cancels is of the frame for which it was armed,
and of a peer that was late with it. -/
theorem cancels_own (frames : ℕ → Content) {x : FrameReader}
    (h : Run (step frames) NoneLeft initial x) : ∀ c ∈ x.cancels, c.Own := by
  have htagged : Tagged frames x := h.invariant (I := Tagged frames) (Tagged.initial frames)
    fun _ _ _ _ hx hok hstep => hx.step hok hstep
  exact htagged.cancels

/-- Frames of a header alone. -/
def bare (_ : ℕ) : Content where
  header := { type := 1, size := 0, dest := 0 }
  body := some (.helloMessage 3)

/-- Half a header and then nothing: the read is cancelled, and the loop ends. -/
def halfHeader : List FrameMove :=
  [.begin, .transfer .success 8, .resume, .expire, .timeout, .resume, .test]

theorem cancels_own_halfHeader :
    (execs (step bare) initial halfHeader).cancels ≠ [] ∧
    ∀ c ∈ (execs (step bare) initial halfHeader).cancels, c.Own :=
  ⟨by decide +kernel, cancels_own bare (Run.nil.execs (by decide +kernel))⟩

/-- The second half of the header comes in time, and the read of the empty body completes at once,
but the timer expires before that is handled. The frame is complete, the handler is still queued,
and it hits the wait for the next one. -/
def lateHandler : List FrameMove :=
  [.begin, .transfer .success 8, .resume, .transfer .success 8, .resume, .expire, .resume, .test,
    .timeout, .resume, .test]

/-- A peer that was never late loses its connection's receive loop. -/
theorem cancels_next_frame :
    ¬∀ (frames : ℕ → Content) (x : FrameReader), Run (step frames) (fun _ _ => True) initial x →
      ∀ c ∈ x.cancels, c.Own := by
  intro hall
  have hrun : Run (step bare) (fun _ _ => True) initial (execs (step bare) initial lateHandler) :=
    Run.nil.execs (allOk_of_forall (fun _ _ => trivial) _ _)
  have hcancel : (execs (step bare) initial lateHandler).cancels =
      [{ expiry := { frame := some 0, late := false }, reading := some 1, aborts := true }] := by
    decide +kernel
  have hown := hall bare _ hrun _ (hcancel ▸ List.mem_cons_self)
  exact absurd (hown.2 rfl) Bool.false_ne_true

example : (execs (step bare) initial lateHandler).session.loop = .ended ∧
    (execs (step bare) initial lateHandler).session.enabled = true := by decide +kernel

end FrameReader

end Synergy
