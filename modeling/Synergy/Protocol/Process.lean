import Synergy.Protocol.Grammar

/-!
# What the scanner accepts

From the front of a buffer the scanner takes complete messages as long as there are any; what it
does with the rest depends on the rest alone. So a run of the scanner is: the longest run of
complete message encodings that the flow admits at the front (`Longest`), handed to the handler in
order until it rejects one, and then one of three ends.
-/

set_option autoImplicit false

namespace Synergy.Protocol

open Lib

/-- Messages of the flow, encoded one after the other, are at the front of the buffer. -/
def Front (flow : Flow) (buffer : List UInt8) (ms : List Message) (rest : List UInt8) : Prop :=
  (∀ m ∈ ms, flow.admits m.type) ∧
    ∃ out, writeEach Message.writeTo ms = .ok out ∧ buffer = out ++ rest

/-- There is no complete message of the flow at the front. -/
def Stuck (flow : Flow) (rest : List UInt8) : Prop :=
  ∀ (m : Message) (out : List UInt8), flow.admits m.type → m.writeTo = .ok out → ¬ out <+: rest

/-- The longest run of complete messages at the front, and what follows it. -/
def Longest (flow : Flow) (buffer : List UInt8) (ms : List Message) (rest : List UInt8) : Prop :=
  Front flow buffer ms rest ∧ ∀ ms' rest', Front flow buffer ms' rest' → ms' <+: ms

/-- A known message is at the front whose complete length prefix asks for more than is left. -/
def Flow.overlong (flow : Flow) (rest : List UInt8) : Prop :=
  ∃ t, flow.admits t ∧ ∃ data, rest = t.tag ++ data ∧ Overlong t.args.leaves data

/-- A handler that is handed messages one after the other, until it rejects one: what it was
handed, and whether it accepted all of them. -/
def handled (handle : Handle) : List Message → List Message → List Message × Bool
  | calls, [] => (calls, true)
  | calls, m :: ms =>
    if handle calls m then handled handle (calls ++ [m]) ms else (calls ++ [m], false)

/-! ## One message -/

theorem tag_eq {r : Rule} (hr : r ∈ rules) : bytesOf r.tag = r.proc.tag := by
  rw [rules_tag r hr, MessageType.tag]

theorem data_eq {r : Rule} (hr : r ∈ rules) : r.data = r.proc.tag.length := by
  rw [Rule.data, tag_eq hr]

/-- Every type a flow admits has its enabled rule. -/
theorem exists_enabled {flow : Flow} {t : MessageType} (h : flow.admits t) :
    ∃ r ∈ rules, r.proc = t ∧ r.cond.holds flow := by
  obtain ⟨r, hr, rfl⟩ := exists_rule t
  exact ⟨r, hr, rfl, by rw [rules_cond flow r hr, h]⟩

/-- What is read from all of the data is of the extent of the data. -/
theorem extent_of_writeTo {f : FieldType} {v : f.Val} {out : List UInt8}
    (h : f.writeTo v = .ok out) (rest : List UInt8) :
    extent f.leaves (out ++ rest) = some out.length := by
  obtain ⟨hsome, hnone⟩ := f.takes (out ++ rest)
  have hread := (FieldType.exact f).reads v out rest h
  cases hn : extent f.leaves (out ++ rest) with
  | none =>
    obtain ⟨what, hwhat⟩ := hnone hn
    rw [hread] at hwhat
    exact absurd hwhat (by simp)
  | some n =>
    obtain ⟨hle, w, hw⟩ := hsome n hn
    rw [hread] at hw
    have hrest : rest = (out ++ rest).drop n := congrArg Prod.snd (Except.ok.inj hw)
    have hlen := congrArg List.length hrest
    simp only [List.length_append, List.length_drop] at hle hlen
    have heq : n = out.length := by omega
    rw [heq]

/-- The token of a complete message is that message. -/
theorem token_of_writeTo {flow : Flow} {m : Message} {out : List UInt8}
    (hadmits : flow.admits m.type) (h : m.writeTo = .ok out) (rest : List UInt8) :
    ∃ r ∈ rules, r.proc = m.type ∧ token flow (out ++ rest) = some (r, out.length) := by
  obtain ⟨r, hr, hproc, hcond⟩ := exists_enabled hadmits
  obtain ⟨data, hdata, rfl⟩ := Message.writeTo_eq_ok.mp h
  refine ⟨r, hr, hproc, ?_⟩
  have hextent := extent_of_writeTo hdata rest
  rw [← hproc] at hextent
  have htoken := token_of_extent hr hcond hextent
  rw [tag_eq hr, data_eq hr, hproc] at htoken
  rw [List.append_assoc, List.length_append, htoken]

/-- One round of the scanner on a complete message. -/
theorem scan_message {flow : Flow} {m : Message} {out : List UInt8}
    (hadmits : flow.admits m.type) (h : m.writeTo = .ok out) (rest : List UInt8) (handle : Handle)
    (calls : List Message) :
    scan flow handle calls (out ++ rest) =
      if handle calls m then scan flow handle (calls ++ [m]) rest
      else (.ok false, calls ++ [m]) := by
  obtain ⟨r, hr, hproc, htoken⟩ := token_of_writeTo hadmits h rest
  obtain ⟨type, args⟩ := m
  dsimp only at hproc
  subst hproc
  have hne : ¬ out ++ rest = [] := by
    intro hnil
    have hpos := token_pos htoken
    rw [(List.append_eq_nil_iff.mp hnil).1] at hpos
    exact absurd hpos (by simp)
  obtain ⟨data, rfl, hread⟩ := Message.readFrom_writeTo h
  have hheader : ((r.proc.tag ++ data) ++ rest).take r.data = r.proc.tag := by
    rw [data_eq hr, List.append_assoc, List.take_left]
  have hdata : (((r.proc.tag ++ data) ++ rest).take (r.proc.tag ++ data).length).drop r.data =
      data := by
    rw [data_eq hr, List.take_left, List.drop_left]
  rw [scan, dif_neg hne]
  split
  · rename_i hnone
    rw [htoken] at hnone
    exact absurd hnone (by simp)
  · rename_i r' te hsome
    rw [htoken] at hsome
    cases hsome
    rw [hheader, hdata, hread, List.drop_left]

/-! ## The rest -/

/-- What a rule finds behind its tag, where there is no complete message. -/
theorem extent_eq_none_of_stuck {flow : Flow} {r : Rule} (hr : r ∈ rules)
    (hcond : r.cond.holds flow) {data : List UInt8} (hstuck : Stuck flow (bytesOf r.tag ++ data)) :
    extent r.proc.args.leaves data = none := by
  cases hn : extent r.proc.args.leaves data with
  | none => rfl
  | some n =>
    obtain ⟨-, v, hv⟩ := (r.proc.args.takes data).1 n hn
    obtain ⟨out, hout, heq⟩ := (FieldType.exact _).rewrites _ _ _ hv
    have hadmits : flow.admits r.proc := by rw [← rules_cond flow r hr, hcond]
    have hwrite : Message.writeTo ⟨r.proc, v⟩ = .ok (r.proc.tag ++ out) :=
      Message.writeTo_eq_ok.mpr ⟨out, hout, rfl⟩
    refine absurd ?_ (hstuck ⟨r.proc, v⟩ _ hadmits hwrite)
    rw [tag_eq hr, heq]
    exact ⟨data.drop n, by rw [List.append_assoc]⟩

theorem scan_overlong {flow : Flow} {rest : List UInt8} (h : flow.overlong rest) (handle : Handle)
    (calls : List Message) : ∃ what, scan flow handle calls rest = (.error what, calls) := by
  obtain ⟨t, hadmits, data, rfl, hover⟩ := h
  obtain ⟨r, hr, rfl, hcond⟩ := exists_enabled hadmits
  obtain ⟨k, htoken, hnone⟩ := token_of_overlong hr hcond hover
  rw [tag_eq hr] at htoken
  have hne : ¬ r.proc.tag ++ data = [] := by
    intro hnil
    have hpos := rules_tag_ne_nil r hr
    rw [data_eq hr, (List.append_eq_nil_iff.mp hnil).1] at hpos
    exact absurd hpos (by simp)
  have hheader : (r.proc.tag ++ data).take r.data = r.proc.tag := by
    rw [data_eq hr, List.take_left]
  have hdata : ((r.proc.tag ++ data).take (r.data + k)).drop r.data = data.take k := by
    rw [data_eq hr, List.take_append, List.take_of_length_le (Nat.le_add_right _ _),
      Nat.add_sub_cancel_left, List.drop_left]
  obtain ⟨what, hwhat⟩ := (r.proc.args.takes (data.take k)).2 hnone
  refine ⟨what, ?_⟩
  rw [scan, dif_neg hne]
  split
  · rename_i hnone'
    rw [htoken] at hnone'
    exact absurd hnone' (by simp)
  · rename_i r' te hsome
    rw [htoken] at hsome
    cases hsome
    rw [hheader, hdata, MessageType.readFrom_tag, hwhat]

theorem scan_cut {flow : Flow} {rest : List UInt8} (hstuck : Stuck flow rest) (hne : rest ≠ [])
    (h : ¬ flow.overlong rest) (handle : Handle) (calls : List Message) :
    scan flow handle calls rest = (.ok false, calls) := by
  have htoken : token flow rest = none := by
    by_cases htag : ∃ r ∈ rules, r.cond.holds flow ∧ bytesOf r.tag <+: rest
    · obtain ⟨r, hr, hcond, data, rfl⟩ := htag
      apply token_of_cut hr hcond (extent_eq_none_of_stuck hr hcond hstuck)
      intro hover
      apply h
      refine ⟨r.proc, by rw [← rules_cond flow r hr, hcond], data, by rw [tag_eq hr], hover⟩
    · apply token_eq_none_of_tag
      intro r hr hcond hprefix
      exact htag ⟨r, hr, hcond, hprefix⟩
  rw [scan, dif_neg hne]
  split
  · rfl
  · rename_i r te hsome
    rw [htoken] at hsome
    exact absurd hsome (by simp)

/-! ## The longest run at the front -/

theorem front_nil {flow : Flow} {buffer rest : List UInt8} :
    Front flow buffer [] rest ↔ buffer = rest := by
  simp [Front, writeEach]

theorem front_cons {flow : Flow} {buffer rest : List UInt8} {m : Message} {ms : List Message} :
    Front flow buffer (m :: ms) rest ↔
      ∃ out buffer', flow.admits m.type ∧ m.writeTo = .ok out ∧ buffer = out ++ buffer' ∧
        Front flow buffer' ms rest := by
  constructor
  · intro ⟨hadmits, all, hall, hbuffer⟩
    obtain ⟨out, out', hout, hout', rfl⟩ := writeEach_cons_eq_ok.mp hall
    refine ⟨out, out' ++ rest, hadmits m (by simp), hout, by rw [hbuffer, List.append_assoc], ?_⟩
    exact ⟨fun m' hm' => hadmits m' (by simp [hm']), out', hout', rfl⟩
  · intro ⟨out, buffer', hm, hout, hbuffer, hadmits, out', hout', hbuffer'⟩
    refine ⟨?_, out ++ out', writeEach_cons_eq_ok.mpr ⟨out, out', hout, hout', rfl⟩, ?_⟩
    · intro m' hm'
      rcases List.mem_cons.mp hm' with heq | hmem
      · rw [heq]
        exact hm
      · exact hadmits m' hmem
    · rw [hbuffer, hbuffer', List.append_assoc]

/-- Two complete messages at one front are the same message. -/
theorem message_unique {flow : Flow} {m m' : Message} {out out' rest rest' : List UInt8}
    (hm : flow.admits m.type) (hm' : flow.admits m'.type) (h : m.writeTo = .ok out)
    (h' : m'.writeTo = .ok out') (heq : out ++ rest = out' ++ rest') : m = m' ∧ rest = rest' := by
  obtain ⟨r, -, hproc, htoken⟩ := token_of_writeTo hm h rest
  obtain ⟨r', -, hproc', htoken'⟩ := token_of_writeTo hm' h' rest'
  rw [heq, htoken'] at htoken
  have hr : r' = r := congrArg Prod.fst (Option.some.inj htoken)
  have hlen : out'.length = out.length := congrArg Prod.snd (Option.some.inj htoken)
  obtain ⟨hout, hrest⟩ := List.append_inj heq hlen.symm
  subst hout hrest hr
  refine ⟨?_, rfl⟩
  have htype : m.type = m'.type := by rw [← hproc, ← hproc']
  obtain ⟨type, args⟩ := m
  obtain ⟨type', args'⟩ := m'
  dsimp only at htype
  subst htype
  obtain ⟨data, rfl, hread⟩ := Message.readFrom_writeTo h
  obtain ⟨data', hdata, hread'⟩ := Message.readFrom_writeTo h'
  rw [← List.append_cancel_left hdata, hread] at hread'
  have hargs : args = args' := congrArg Prod.fst (Except.ok.inj hread')
  rw [hargs]

/-- A complete message has at least its tag. -/
theorem length_pos_of_writeTo {m : Message} {out : List UInt8} (h : m.writeTo = .ok out) :
    0 < out.length := by
  obtain ⟨data, -, rfl⟩ := Message.writeTo_eq_ok.mp h
  obtain ⟨r, hr, hproc⟩ := exists_rule m.type
  have hpos := rules_tag_ne_nil r hr
  rw [data_eq hr, hproc] at hpos
  rw [List.length_append]
  omega

theorem exists_front_stuck (flow : Flow) (buffer : List UInt8) :
    ∃ ms rest, Front flow buffer ms rest ∧ Stuck flow rest := by
  induction hn : buffer.length using Nat.strong_induction_on generalizing buffer with
  | _ n ih =>
    by_cases hstuck : Stuck flow buffer
    · exact ⟨[], buffer, front_nil.mpr rfl, hstuck⟩
    · simp only [Stuck, not_forall, not_not] at hstuck
      obtain ⟨m, out, hadmits, hout, buffer', rfl⟩ := hstuck
      have hpos := length_pos_of_writeTo hout
      have hlt : buffer'.length < n := by
        rw [← hn, List.length_append]
        omega
      obtain ⟨ms, rest, hfront, hrest⟩ := ih buffer'.length hlt buffer' rfl
      exact ⟨m :: ms, rest, front_cons.mpr ⟨out, buffer', hadmits, hout, rfl, hfront⟩, hrest⟩

/-- A run that cannot be continued is the longest one. -/
theorem longest_of_stuck {flow : Flow} {buffer rest : List UInt8} {ms : List Message}
    (hfront : Front flow buffer ms rest) (hstuck : Stuck flow rest) :
    Longest flow buffer ms rest := by
  refine ⟨hfront, ?_⟩
  induction ms generalizing buffer with
  | nil =>
    intro ms' rest' hfront'
    cases ms' with
    | nil => exact List.prefix_refl []
    | cons m' ms' =>
      obtain ⟨out, buffer', hadmits, hout, rfl, -⟩ := front_cons.mp hfront'
      refine absurd ?_ (hstuck m' out hadmits hout)
      rw [← front_nil.mp hfront]
      exact List.prefix_append _ _
  | cons m ms ih =>
    intro ms' rest' hfront'
    cases ms' with
    | nil => exact List.nil_prefix
    | cons m' ms' =>
      obtain ⟨out, buffer', hadmits, hout, rfl, hms⟩ := front_cons.mp hfront
      obtain ⟨out', buffer'', hadmits', hout', heq, hms'⟩ := front_cons.mp hfront'
      obtain ⟨rfl, rfl⟩ := message_unique hadmits hadmits' hout hout' heq
      exact List.cons_prefix_cons.mpr ⟨rfl, ih hms ms' rest' hms'⟩

/-- The scanner hands over the complete messages at the front. -/
theorem scan_front {flow : Flow} {buffer rest : List UInt8} {ms : List Message}
    (h : Front flow buffer ms rest) (handle : Handle) (calls : List Message) :
    scan flow handle calls buffer =
      if (handled handle calls ms).2 then scan flow handle (handled handle calls ms).1 rest
      else (.ok false, (handled handle calls ms).1) := by
  induction ms generalizing buffer calls with
  | nil =>
    rw [front_nil.mp h]
    rfl
  | cons m ms ih =>
    obtain ⟨out, buffer', hadmits, hout, rfl, hms⟩ := front_cons.mp h
    rw [scan_message hadmits hout, handled]
    split
    · exact ih hms (calls ++ [m])
    · rfl

theorem scan_nil (flow : Flow) (handle : Handle) (calls : List Message) :
    scan flow handle calls [] = (.ok true, calls) := by
  rw [scan]
  rfl

theorem eq_nil_of_scan_true {flow : Flow} {rest : List UInt8} (hstuck : Stuck flow rest)
    {handle : Handle} {calls : List Message}
    (h : (scan flow handle calls rest).1 = .ok true) : rest = [] := by
  by_contra hne
  by_cases hover : flow.overlong rest
  · obtain ⟨what, hwhat⟩ := scan_overlong hover handle calls
    rw [hwhat] at h
    exact absurd h (by simp)
  · rw [scan_cut hstuck hne hover] at h
    exact absurd h (by simp)

/-- **Every end of the scanner.** At the front of every buffer there is a longest run of complete
messages of the flow. They are handed to the handler in order, up to the first that it rejects. If
it rejects none, the scanner returns true where the run is the whole buffer, throws where an
overlong message follows, and returns false everywhere else. -/
theorem process_outcome (flow : Flow) (buffer : List UInt8) :
    ∃ ms rest, Longest flow buffer ms rest ∧ ∀ handle : Handle,
      (process flow handle buffer).2 = (handled handle [] ms).1 ∧
      ((process flow handle buffer).1 = .ok true ↔ (handled handle [] ms).2 ∧ rest = []) ∧
      ((∃ what, (process flow handle buffer).1 = .error what) ↔
        (handled handle [] ms).2 ∧ flow.overlong rest) ∧
      ((process flow handle buffer).1 = .ok false ↔
        ¬ (handled handle [] ms).2 ∨ rest ≠ [] ∧ ¬ flow.overlong rest) := by
  obtain ⟨ms, rest, hfront, hstuck⟩ := exists_front_stuck flow buffer
  refine ⟨ms, rest, longest_of_stuck hfront hstuck, ?_⟩
  intro handle
  rw [process, scan_front hfront]
  by_cases haccepted : (handled handle [] ms).2
  · rw [if_pos haccepted]
    by_cases hrest : rest = []
    · subst hrest
      have hnot : ¬ flow.overlong [] := by
        intro hover
        obtain ⟨what, hwhat⟩ := scan_overlong hover handle []
        rw [scan_nil] at hwhat
        exact absurd hwhat (by simp)
      simp [scan_nil, haccepted, hnot]
    · by_cases hover : flow.overlong rest
      · obtain ⟨what, hwhat⟩ := scan_overlong hover handle (handled handle [] ms).1
        simp [hwhat, haccepted, hrest, hover]
      · rw [scan_cut hstuck hrest hover]
        simp [haccepted, hrest, hover]
  · rw [if_neg haccepted]
    simp [haccepted]

/-! ## A handler that accepts everything -/

theorem handled_true (calls ms : List Message) :
    handled (fun _ _ => true) calls ms = (calls ++ ms, true) := by
  induction ms generalizing calls with
  | nil => simp [handled]
  | cons m ms ih => simp [handled, ih]

/-- The two greetings, for which the handler only raises a signal. -/
def Message.greeting (m : Message) : Bool := m.type = .hello ∨ m.type = .helloBack

theorem Message.routed_of_writeTo {m : Message} {out : List UInt8} (h : m.writeTo = .ok out) :
    m.routed = if m.greeting then none else some out := by
  unfold routed greeting
  rw [h]
  cases m.type <;> rfl

/-- What the router gets of messages that were written: all of them but the greetings. -/
theorem writeEach_routed {ms : List Message} {all : List UInt8}
    (h : writeEach Message.writeTo ms = .ok all) :
    writeEach Message.writeTo (ms.filter fun m => !m.greeting) =
      .ok (ms.filterMap Message.routed).flatten := by
  induction ms generalizing all with
  | nil => rfl
  | cons m ms ih =>
    obtain ⟨out, out', hout, hout', -⟩ := writeEach_cons_eq_ok.mp h
    rw [List.filterMap_cons, Message.routed_of_writeTo hout, List.filter_cons]
    cases m.greeting with
    | true => exact ih hout'
    | false => exact writeEach_cons_eq_ok.mpr ⟨out, _, hout, ih hout', rfl⟩

/-- **The scanner accepts exactly its messages**, with a handler that accepts everything: `process`
returns true just for concatenations of encodings of messages that the flow admits, has then handed
over these messages, and the router has got the encodings of those that are no greetings. -/
theorem process_accepts (flow : Flow) (buffer : List UInt8) :
    ((process flow (fun _ _ => true) buffer).1 = .ok true ↔
      ∃ ms, (∀ m ∈ ms, flow.admits m.type) ∧ writeEach Message.writeTo ms = .ok buffer) ∧
    ∀ ms, (∀ m ∈ ms, flow.admits m.type) → writeEach Message.writeTo ms = .ok buffer →
      (process flow (fun _ _ => true) buffer).2 = ms ∧
      writeEach Message.writeTo (ms.filter fun m => !m.greeting) =
        .ok ((process flow (fun _ _ => true) buffer).2.filterMap Message.routed).flatten := by
  have hprocess : ∀ ms, (∀ m ∈ ms, flow.admits m.type) → writeEach Message.writeTo ms = .ok buffer →
      process flow (fun _ _ => true) buffer = (.ok true, ms) := by
    intro ms hadmits hbuffer
    have hfront : Front flow buffer ms [] := ⟨hadmits, buffer, hbuffer, by simp⟩
    rw [process, scan_front hfront, handled_true, scan_nil]
    rfl
  refine ⟨⟨?_, ?_⟩, ?_⟩
  · intro htrue
    obtain ⟨ms, rest, hfront, hstuck⟩ := exists_front_stuck flow buffer
    rw [process, scan_front hfront, handled_true, if_pos rfl] at htrue
    have hdone : rest = [] := eq_nil_of_scan_true hstuck htrue
    obtain ⟨hadmits, out, hout, rfl⟩ := hfront
    rw [hdone, List.append_nil]
    exact ⟨ms, hadmits, hout⟩
  · intro ⟨ms, hadmits, hbuffer⟩
    rw [hprocess ms hadmits hbuffer]
  · intro ms hadmits hbuffer
    rw [hprocess ms hadmits hbuffer]
    exact ⟨rfl, writeEach_routed hbuffer⟩

/-- A client's answer to the greeting of its server, with the name of its screen. -/
def answer : Message :=
  ⟨.helloBack, (((1, 6, ()), [104, 105], ()) : MessageType.helloBack.args.Val)⟩

/-- The answer is accepted, and nothing of it goes to the router. -/
theorem answer_not_routed : ¬ ∀ (flow : Flow) (buffer : List UInt8),
    (process flow (fun _ _ => true) buffer).1 = .ok true →
      ((process flow (fun _ _ => true) buffer).2.filterMap Message.routed).flatten = buffer := by
  intro h
  obtain ⟨out, hout⟩ := (FieldType.exact answer.type.args).accepts answer.args (by
    simp [answer, FieldType.Short])
  have hwrite : answer.writeTo = .ok (answer.type.tag ++ out) :=
    Message.writeTo_eq_ok.mpr ⟨out, hout, rfl⟩
  have hprocess :
      process .cts (fun _ _ => true) (answer.type.tag ++ out) = (.ok true, [answer]) := by
    have hadmits : Flow.cts.admits answer.type := by decide
    have hscan := scan_message hadmits hwrite [] (fun _ _ => true) []
    rw [List.append_nil, if_pos rfl, scan_nil] at hscan
    exact hscan
  have hempty := h .cts (answer.type.tag ++ out) (by rw [hprocess])
  have hnone : answer.routed = none := by
    rw [Message.routed_of_writeTo hwrite, if_pos (by decide)]
  rw [hprocess, List.filterMap_cons, hnone] at hempty
  have hpos := length_pos_of_writeTo hwrite
  rw [← hempty] at hpos
  exact absurd hpos (by simp)

end Synergy.Protocol
