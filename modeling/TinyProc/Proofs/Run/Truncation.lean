import TinyProc.Proofs.Run.Composition

/-!
# Runs at a sink that fails

A sink fails when it takes no more lines, or when a flush fails (`Breakage`). The same run on two
machines, one at a reliable sink and one at a sink that fails, is compared here by a relation on the
two endings, `Run.Truncated`: either they are the same, or the second run has been stopped. Then it
was stopped at a display, for which as many lines are out as the sink can bear, and the lines that
the first run has displayed since are missing.

Which displays there are is a parameter of the relation. What is needed of a run that goes on after
a display is that it keeps the sink and at most adds lines (`Run.AddsLines`).
-/

namespace TinyProc

/-! ### Sinks that fail -/

/-- The ways in which a sink fails. -/
inductive Breakage
  /-- It takes so many lines and no more. -/
  | full (lines : Nat)
  /-- The flush after the next line fails, when so many lines are out. -/
  | flush (lines : Nat)

namespace Breakage

/-- How many lines are out when the display comes that fails. -/
def lines : Breakage → Nat
  | full lines | flush lines => lines

/-- The sink that fails in this way. -/
def sink : Breakage → Sink
  | full lines => ⟨some lines, none⟩
  | flush lines => ⟨none, some (lines + 1)⟩

/-- The failure that is reported. -/
def failure : Breakage → StreamFailure
  | full _ => .outputFull
  | flush _ => .flushFailed

/-- How many lines are out in the end. A line that cannot be flushed has been written. -/
def kept : Breakage → Nat
  | full lines => lines
  | flush lines => lines + 1

/-- At most one line more than before is out when the display fails. -/
theorem kept_le (b : Breakage) : b.kept ≤ b.lines + 1 := by
  cases b with
  | full lines => exact Nat.le_succ _
  | flush lines => exact Nat.le_refl _

end Breakage

namespace Console

/-- A reliable sink takes every line. -/
theorem display_of_reliable {c : Console} (hc : c.sink = .reliable) (w : Word) :
    c.display w = (none, { c with output := c.output.push w }) := by
  simp [display, isFull, hc, Sink.reliable]

/-- Below the point where it fails the sink takes a line. -/
theorem display_of_lt (b : Breakage) {c : Console} (hlines : c.output.size < b.lines) (w : Word) :
    Console.display { c with sink := b.sink } w =
      (none, { c with output := c.output.push w, sink := b.sink }) := by
  cases b with
  | full lines =>
    have hroom : ¬ lines ≤ c.output.size := Nat.not_le.2 hlines
    simp [display, isFull, Breakage.sink, hroom]
  | flush lines =>
    have hother : ¬ lines = c.output.size := Nat.ne_of_gt hlines
    simp [display, isFull, Breakage.sink, hother]

/-- When as many lines are out as the sink can bear, a display fails. -/
theorem display_of_eq (b : Breakage) {c : Console} (hlines : c.output.size = b.lines) (w : Word) :
    ∃ c', Console.display { c with sink := b.sink } w = (some b.failure, c') ∧
      c'.input = c.input ∧ c'.output.toList = (c.output.toList ++ [w]).take b.kept := by
  cases b with
  | full lines =>
    have hfull : lines ≤ c.output.size := Nat.le_of_eq hlines.symm
    refine ⟨{ c with sink := ⟨some lines, none⟩ }, ?_, rfl, ?_⟩
    · simp [display, isFull, Breakage.sink, Breakage.failure, hfull]
    · have hlength : c.output.toList.length = lines := hlines
      show c.output.toList = (c.output.toList ++ [w]).take lines
      rw [← hlength, List.take_left]
  | flush lines =>
    have hflush : lines = c.output.size := hlines.symm
    refine ⟨{ c with output := c.output.push w, sink := ⟨none, some (lines + 1)⟩ }, ?_, rfl, ?_⟩
    · simp [display, isFull, Breakage.sink, Breakage.failure, hflush]
    · have hlength : (c.output.toList ++ [w]).length ≤ lines + 1 := by
        simp [hflush]
      show (c.output.push w).toList = (c.output.toList ++ [w]).take (lines + 1)
      rw [List.take_of_length_le hlength, Array.toList_push]

/-- A display does not repair a sink. -/
theorem sink_display (c : Console) (w : Word) : (c.display w).2.sink = c.sink := by
  unfold display
  split
  · rfl
  · dsimp only
    split <;> rfl

end Console

/-- The machine with another sink. -/
def Machine.withSink (m : Machine) (sink : Sink) : Machine :=
  { m with console := { m.console with sink := sink } }

/-- The machine with one more line displayed. -/
def Machine.displaying (m : Machine) (value : Word) : Machine :=
  { m with console := { m.console with output := m.console.output.push value } }

namespace Run

variable {α β : Type} {m m' : Machine} {x : Run α}

/-! ### Lines are only added -/

/-- A run that keeps the sink, and at most adds lines. -/
def AddsLines (α : Type) (x : Run α) : Prop :=
  ∀ m : Machine, (stateLeft (x m)).console.sink = m.console.sink ∧
    m.console.output.toList <+: (stateLeft (x m)).console.output.toList

/-- Every run keeps the sink and at most adds lines. -/
theorem addsLines_compositional : Compositional AddsLines :=
  compositional_of_detached
    (fun hx m ↦ by rw [hx.console_eq m]; exact ⟨rfl, List.prefix_refl _⟩)
    (stateLeft_bind (R := fun m m' ↦ m'.console.sink = m.console.sink ∧
        m.console.output.toList <+: m'.console.output.toList)
      fun h h' ↦ ⟨h'.1.trans h.1, h.2.trans h'.2⟩)
    (fun value line m ↦ by
      have hlines := (m.console.display_frame value).2.1
      have hsink := m.console.sink_display value
      rw [display_apply]
      rcases (m.console.display value).1 with _ | failure <;> exact ⟨hsink, hlines⟩)
    (fun s target m ↦ by
      rw [readInto_eq]
      rcases (m.console.read target.name).1 with cause | value
      · exact ⟨rfl, List.prefix_refl _⟩
      · dsimp only
        rw [(assign_detached s target.name value).console_eq]
        exact ⟨rfl, List.prefix_refl _⟩)
    (fun calls line m ↦ by
      rw [checkDepth_apply]
      split <;> exact ⟨rfl, List.prefix_refl _⟩)
    (fun hcount hwork m ↦ by
      rw [inCall_apply hcount]
      split
      · rw [stateLeft_mapMachine]
        exact hwork m.env.nextScope m.enterCall
      · exact ⟨rfl, List.prefix_refl _⟩)

/-! ### Runs that do not display -/

/-- A run that neither asks for the sink nor displays anything. -/
def IgnoresSink (x : Run α) : Prop :=
  ∀ (m : Machine) (sink : Sink), x (m.withSink sink) = mapMachine (·.withSink sink) (x m) ∧
    (stateLeft (x m)).console.output = m.console.output

/-- Whoever does not look at the sink leaves it as it is. -/
theorem IgnoresSink.sink_eq (hx : IgnoresSink x) (m : Machine) :
    (stateLeft (x m)).console.sink = m.console.sink := by
  have hsame := congrArg (fun r ↦ (stateLeft r).console.sink) (hx m m.console.sink).1
  rwa [stateLeft_mapMachine] at hsame

theorem Detached.ignoresSink (hx : Detached α x) : IgnoresSink x :=
  fun m sink ↦ ⟨hx.mapConsole (fun c ↦ { c with sink := sink }) m,
    congrArg Console.output (hx.console_eq m)⟩

/-- The count of calls has nothing to do with the sink. -/
theorem checkDepth_ignoresSink (calls line : Nat) : IgnoresSink (checkDepth calls line) := by
  intro m sink
  rw [checkDepth_apply, checkDepth_apply]
  show (if m.console.activeCalls < calls then _ else _) = _ ∧ _
  split <;> exact ⟨rfl, rfl⟩

/-- Reading and displaying are two sides of the console. -/
theorem readInto_ignoresSink (s : ScopeId) (target : ReadTarget) :
    IgnoresSink (readInto s target) := by
  intro m sink
  have hassign := fun value ↦ (assign_detached s target.name value).ignoresSink
    ⟨m.env, (m.console.read target.name).2,
      m.journal.note (.read target.name value target.line)⟩ sink
  have hread : (m.withSink sink).console.read target.name = ((m.console.read target.name).1,
      { (m.console.read target.name).2 with sink := sink }) := rfl
  rw [readInto_eq, readInto_eq, hread]
  rcases (m.console.read target.name).1 with cause | value
  · exact ⟨rfl, rfl⟩
  · exact hassign value

theorem readAttached_ignoresSink (s : ScopeId) (attached : Option ReadTarget) :
    IgnoresSink (readAttached s attached) := by
  rcases attached with _ | target
  · exact (Detached.pure ()).ignoresSink
  · exact readInto_ignoresSink s target

/-! ### Two endings -/

section Endings

variable {b : Breakage} {D : Nat → Word → Machine → Prop}

/-- A run that would display the lines `full` has been stopped at the display of a value on a line:
`d` is the machine that it found there at a reliable sink, and `m'` is the machine that is left. -/
structure CutAt (b : Breakage) (D : Nat → Word → Machine → Prop) (full : List Word) (line : Nat)
    (value : Word) (d m' : Machine) : Prop where
  /-- It is one of the displays in question. -/
  displayed : D line value d
  /-- As many lines are out as the sink can bear. -/
  lines : d.console.output.size = b.lines
  /-- The next one is the value. -/
  value : full[b.lines]? = some value
  /-- What was to be read then is still there. -/
  input : m'.console.input = d.console.input
  /-- The lines that are out are the first of them all. -/
  output : m'.console.output.toList = full.take b.kept

section CutAt

variable {full full' : List Word} {line : Nat} {value : Word} {d : Machine}

/-- The full run has at least one line more than the sink can bear. -/
theorem CutAt.lt_length (h : CutAt b D full line value d m') : b.lines < full.length :=
  (List.getElem?_eq_some_iff.1 h.value).1

/-- A run that is stopped does not see the lines that would have been added. -/
theorem CutAt.append (h : CutAt b D full line value d m') (hfull : full <+: full') :
    CutAt b D full' line value d m' := by
  obtain ⟨added, rfl⟩ := hfull
  refine ⟨h.displayed, h.lines, ?_, h.input, ?_⟩
  · rw [List.getElem?_append_left h.lt_length]
    exact h.value
  · rw [List.take_append_of_le_length (Nat.le_trans b.kept_le h.lt_length)]
    exact h.output

end CutAt

/-- The second ending is that of the same run at a sink that fails: it is the same, or the run has
been stopped. -/
inductive Truncated (b : Breakage) (D : Nat → Word → Machine → Prop)
    (r : EStateM.Result Halt Machine α) : EStateM.Result Halt Machine α → Prop
  /-- The sink has borne all lines. -/
  | same (hlines : (stateLeft r).console.output.size ≤ b.lines) :
    Truncated b D r (mapMachine (·.withSink b.sink) r)
  /-- It has not. -/
  | cut {line : Nat} {value : Word} {d m' : Machine}
    (hcut : CutAt b D (stateLeft r).console.output.toList line value d m') :
    Truncated b D r (.error (.fault ⟨.stream b.failure, line⟩) m')

/-- From a machine at a reliable sink the run is at most truncated by the sink that fails. -/
def Truncates (b : Breakage) (D : Nat → Word → Machine → Prop) (x : Run α) (m : Machine) : Prop :=
  m.console.sink = .reliable → m.console.output.size ≤ b.lines →
    Truncated b D (x m) (x (m.withSink b.sink))

/-- What does not look at the sink is the same at both. -/
theorem IgnoresSink.truncates (hx : IgnoresSink x) (m : Machine) : Truncates b D x m := by
  intro _ hlines
  obtain ⟨hsame, houtput⟩ := hx m b.sink
  rw [hsame]
  exact .same (houtput ▸ hlines)

/-- After something that does not look at the sink, the two runs are still together. -/
theorem Truncates.bind_of_ignoresSink {f : α → Run β} (hx : IgnoresSink x)
    (hf : ∀ a m', x m = .ok a m' → Truncates b D (f a) m') : Truncates b D (x >>= f) m := by
  intro hsink hlines
  obtain ⟨hsame, houtput⟩ := hx m b.sink
  have hkept := hx.sink_eq m
  rcases h : x m with ⟨a, m'⟩ | ⟨e, m'⟩
  · rw [h] at hsame houtput hkept
    rw [bind_of_ok h, bind_of_ok hsame]
    exact hf a m' h (hkept.trans hsink) (houtput ▸ hlines)
  · rw [h] at hsame houtput
    rw [bind_of_error h, bind_of_error hsame]
    exact .same (r := .error e m') (houtput ▸ hlines)

/-- A sequence. If the first part is stopped at the sink that fails, the full run may go on, and
what it adds is missing. -/
theorem Truncates.bind {f : α → Run β} (hx : Truncates b D x m) (hadds : AddsLines α x)
    (hadds' : ∀ a, AddsLines β (f a))
    (hf : ∀ a m', x m = .ok a m' → Truncates b D (f a) m') : Truncates b D (x >>= f) m := by
  intro hsink hlines
  have hstep := hx hsink hlines
  have hkept := (hadds m).1
  rcases h : x m with ⟨a, m'⟩ | ⟨e, m'⟩
  · rw [h] at hstep hkept
    rw [bind_of_ok h]
    generalize hbroken : x (m.withSink b.sink) = r' at hstep
    cases hstep with
    | same hlines' =>
      rw [bind_of_ok hbroken]
      exact hf a m' h (hkept.trans hsink) hlines'
    | cut hcut =>
      -- the full run goes on with the second part, the other one has stopped
      rw [bind_of_error hbroken]
      exact .cut (hcut.append (hadds' a m').2)
  · rw [h] at hstep
    rw [bind_of_error h]
    generalize hbroken : x (m.withSink b.sink) = r' at hstep
    cases hstep with
    | same hlines' =>
      rw [bind_of_error hbroken]
      exact .same (r := .error e m') hlines'
    | cut hcut =>
      rw [bind_of_error hbroken]
      exact .cut hcut

theorem Truncates.ite {y : Run α} {p : Prop} [Decidable p] (hx : p → Truncates b D x m)
    (hy : ¬ p → Truncates b D y m) : Truncates b D (if p then x else y) m := by
  split
  · exact hx ‹_›
  · exact hy ‹_›

/-- At the sink that fails a display is stopped when so many lines are out. -/
theorem display_of_eq_lines (hlines : m.console.output.size = b.lines) (value : Word)
    (line : Nat) :
    ∃ m', display value line (m.withSink b.sink) =
        .error (.fault ⟨.stream b.failure, line⟩) m' ∧
      m'.console.input = m.console.input ∧
      m'.console.output.toList = (m.console.output.toList ++ [value]).take b.kept := by
  obtain ⟨console, hfails, hinput, houtput⟩ := Console.display_of_eq b hlines value
  have hdisplay : (m.withSink b.sink).console.display value = (some b.failure, console) := hfails
  refine ⟨{ m with console := console }, ?_, hinput, houtput⟩
  rw [display_apply, hdisplay]
  rfl

/-- The display that the sink cannot bear is the one at which the run is stopped. -/
theorem display_truncates {value : Word} {line : Nat}
    (hdisplayed : D line value m) : Truncates b D (display value line) m := by
  intro hsink hlines
  have hreliable : display value line m = .ok () (m.displaying value) := by
    rw [display_apply, Console.display_of_reliable hsink]
    rfl
  have hall : (m.displaying value).console.output.toList = m.console.output.toList ++ [value] :=
    Array.toList_push
  rw [hreliable]
  obtain hlt | heq := Nat.lt_or_eq_of_le hlines
  · have hdisplay : (m.withSink b.sink).console.display value =
        (none, ((m.displaying value).withSink b.sink).console) :=
      Console.display_of_lt b hlt value
    have hbroken : display value line (m.withSink b.sink) =
        .ok () ((m.displaying value).withSink b.sink) := by
      rw [display_apply, hdisplay]
      rfl
    rw [hbroken]
    refine .same (r := .ok () (m.displaying value)) ?_
    show (m.console.output.push value).size ≤ b.lines
    rw [Array.size_push]
    exact hlt
  · obtain ⟨m', hbroken, hinput, houtput⟩ := display_of_eq_lines heq value line
    have hlength : m.console.output.toList.length = b.lines := heq
    rw [hbroken]
    refine .cut (d := m) ⟨hdisplayed, heq, ?_, hinput, ?_⟩
    · rw [stateLeft_ok, hall, ← hlength]
      exact List.getElem?_concat_length
    · rw [stateLeft_ok, hall]
      exact houtput

/-- A call is stopped where its work is. -/
theorem inCall_truncates {work : ScopeId → Run α} (hcount : ∀ t, KeepsCount α (work t))
    (hwork : m.console.activeCalls < Console.maxCalls →
      Truncates b D (work m.env.nextScope) m.enterCall) :
    Truncates b D (inFreshScope fun t ↦ asCall (work t)) m := by
  intro hsink hlines
  by_cases hcalls : m.console.activeCalls < Console.maxCalls
  · have hbody := hwork hcalls hsink hlines
    have hcalls' : (m.withSink b.sink).console.activeCalls < Console.maxCalls := hcalls
    rw [inCall_apply hcount, if_pos hcalls, inCall_apply hcount, if_pos hcalls']
    show Truncated b D _ (mapMachine (·.leaveCall m.env.nextScope)
      (work m.env.nextScope (m.enterCall.withSink b.sink)))
    generalize work m.env.nextScope m.enterCall = r at hbody ⊢
    generalize work m.env.nextScope (m.enterCall.withSink b.sink) = r' at hbody ⊢
    cases hbody with
    | same hlines' =>
      rcases r with ⟨a, m'⟩ | ⟨e, m'⟩
      · exact .same (r := .ok a (m'.leaveCall m.env.nextScope)) hlines'
      · exact .same (r := .error e (m'.leaveCall m.env.nextScope)) hlines'
    | cut hcut =>
      refine .cut ⟨hcut.displayed, hcut.lines, ?_, hcut.input, ?_⟩
      · rw [stateLeft_mapMachine]
        exact hcut.value
      · rw [stateLeft_mapMachine]
        exact hcut.output
  · have hcalls' : ¬ (m.withSink b.sink).console.activeCalls < Console.maxCalls := hcalls
    rw [inCall_apply hcount, if_neg hcalls, inCall_apply hcount, if_neg hcalls']
    exact .same (r := .error .miscounted { m with env := m.env.push.pop m.env.nextScope }) hlines

end Endings

end Run

end TinyProc
