import TinyProc.Proofs.Run.Entries
import TinyProc.Proofs.Run.Truncation

/-!
# A failing sink only truncates

A program whose output stays below the point where a sink fails does not notice that it does. Any
other is stopped at the display that reaches this point: the lines before are the same, and so is
the input that has been read before, and nothing happens afterwards (`Run.failing_sink_truncates`).

The display is one that the program makes at a reliable sink, and this is said by the entries of
that run. There are two sides to it. Whatever is entered directly from an entry of a run is an entry
of the run, and a run is stopped where a part of it is: so, along the syntax tree and the calls, the
run is stopped at a display that is entered (`Run.runProgram_truncates`). On the other hand, what is
entered at the reliable sink is entered at the other, as long as it can bear the lines, and a part
that is stopped stops what it is entered from: so, back along the entries, any display that is
entered when so many lines are out stops the run (`Run.stops_of_display`). Hence there is only one
line and one input to be found.
-/

namespace TinyProc.Run

variable {α β : Type} {m m' : Machine} {x : Run α}

/-! ### Along the entries of a run -/

/-- A value is displayed on a line in one of the entries. The machine is the one that is found when
the value has been computed. -/
def DisplaysIn (bounds : Bounds) (E : Entry → Prop) (line : Nat) (value : Word) (m : Machine) :
    Prop :=
  ∃ e attached s left m₀, E ⟨.statement (.display e attached line), s, left, m₀⟩ ∧
    eval (invoke bounds left) s e m₀ = .ok value m

section Entries

variable {b : Breakage} {bounds : Bounds} {E : Entry → Prop} {left : Nat} {s : ScopeId}

/-- A loop, given what its condition and its body do in every round that it gets to. -/
theorem repeatWhile_truncates {condition : Run Word} {body : Run Unit} {D} {m₀ : Machine}
    (hadds : AddsLines Word condition) (hadds' : AddsLines Unit body)
    (hcondition : ∀ m, AfterRounds condition body m₀ m → Truncates b D condition m)
    (hbody : ∀ m m' value, AfterRounds condition body m₀ m → condition m = .ok value m' →
      value ≠ .zero → Truncates b D body m')
    (rounds : Nat) (hm : AfterRounds condition body m₀ m) :
    Truncates b D (repeatWhile condition body rounds) m := by
  have hloop := addsLines_compositional.repeatWhile hadds hadds'
  induction rounds generalizing m with
  | zero =>
    refine (hcondition m hm).bind hadds
      (fun _ ↦ Compositional.ite (addsLines_compositional.pure ())
        addsLines_compositional.outOfRounds) fun value m₁ _ ↦ ?_
    exact .ite (fun _ ↦ (Detached.pure ()).ignoresSink.truncates m₁)
      (fun _ ↦ IgnoresSink.truncates (Detached.ignoresSink fun _ _ ↦ rfl) m₁)
  | succ rounds ih =>
    refine (hcondition m hm).bind hadds
      (fun _ ↦ Compositional.ite (addsLines_compositional.pure ())
        (addsLines_compositional.bind hadds' fun _ ↦ hloop rounds))
      fun value m₁ hvalue ↦ ?_
    refine .ite (fun _ ↦ (Detached.pure ()).ignoresSink.truncates m₁) fun hne ↦ ?_
    refine (hbody m m₁ value hm hvalue hne).bind hadds' (fun _ ↦ hloop rounds) fun _ m₂ hround ↦ ?_
    exact ih (.round hm hvalue hne hround)

/-- The calls that are made in the entries of the run, with so many still to be nested, are at most
truncated. -/
def CallsTruncate (b : Breakage) (bounds : Bounds) (E : Entry → Prop) (left : Nat) : Prop :=
  ∀ s name arguments line m m' values, E ⟨.expr (.call name arguments line), s, left, m⟩ →
    checkCall name arguments.length line m = .ok () m →
    evalAll (invoke bounds left) s arguments m = .ok values m' →
    Truncates b (DisplaysIn bounds E) (invoke bounds left name values line) m'

/-- Whatever is entered from one of the entries is one of them. -/
def ClosedUnderEntering (bounds : Bounds) (E : Entry → Prop) : Prop :=
  ∀ c c', E c → Enters bounds c c' → E c'

/-- Where a block is entered, so are its statements, each after those before it. -/
theorem ClosedUnderEntering.statements (hE : ClosedUnderEntering bounds E) {block : Block}
    (h : E ⟨.block block, s, left, m⟩) (before : Block) (t : Statement) (after : Block)
    (m' : Machine) (hblock : block = before ++ t :: after)
    (hbefore : execBlock (invoke bounds left) bounds.rounds s before m = .ok () m') :
    E ⟨.statement t, s, left, m'⟩ := by
  subst hblock
  exact hE _ _ h (.statement hbefore)

-- An argument or a statement is entered after those before it. So what is supposed of a list is
-- about every place where it can be cut, which the rest of the list inherits.

mutual

/-- An expression that is entered. What it enters in its turn is closed off by `hE`. -/
theorem eval_truncates (hE : ClosedUnderEntering bounds E)
    (hcall : CallsTruncate b bounds E left) :
    (e : Expr) → ∀ {m}, E ⟨.expr e, s, left, m⟩ →
      Truncates b (DisplaysIn bounds E) (eval (invoke bounds left) s e) m
  | .number value, m, _ => (Detached.pure value).ignoresSink.truncates m
  | .variable name line, m, _ => (lookup_detached s name line).ignoresSink.truncates m
  | .binary op a c line, m, h => by
    have hadds := addsLines_compositional.eval (s := s) (addsLines_compositional.invoke bounds left)
    have happly := fun v w ↦ addsLines_compositional.apply op v w line
    refine (eval_truncates hE hcall a (hE _ _ h .leftOperand)).bind (hadds a)
      (fun v ↦ addsLines_compositional.bind (hadds c) (happly v)) fun v m₁ hv ↦ ?_
    refine (eval_truncates hE hcall c (hE _ _ h (.rightOperand hv))).bind (hadds c) (happly v)
      fun w m₂ _ ↦ ?_
    exact (orFail_detached _ line).ignoresSink.truncates m₂
  | .call name arguments line, m, h => by
    refine .bind_of_ignoresSink (checkCall_detached name _ line).ignoresSink fun _ m₁ hcheck ↦ ?_
    obtain rfl := (checkCall_eq_ok hcheck).2
    refine (evalAll_truncates hE hcall arguments ?_).bind
      (addsLines_compositional.evalAll (addsLines_compositional.invoke bounds left) arguments)
      (fun values ↦ addsLines_compositional.invoke bounds left name values line)
      fun values m₂ hvalues ↦ hcall s name arguments line m₁ m₂ values h hcheck hvalues
    rintro before e after values m' rfl hbefore
    exact hE _ _ h (.argument hcheck hbefore)

/-- Arguments, each of which is entered when those before have been evaluated. -/
theorem evalAll_truncates (hE : ClosedUnderEntering bounds E)
    (hcall : CallsTruncate b bounds E left) :
    (es : List Expr) → ∀ {m}, (∀ before e after values m', es = before ++ e :: after →
      evalAll (invoke bounds left) s before m = .ok values m' → E ⟨.expr e, s, left, m'⟩) →
      Truncates b (DisplaysIn bounds E) (evalAll (invoke bounds left) s es) m
  | [], m, _ => (Detached.pure []).ignoresSink.truncates m
  | e :: rest, m, h => by
    have hcalls := addsLines_compositional.invoke bounds left
    have hadds := addsLines_compositional.evalAll (s := s) hcalls rest
    refine (eval_truncates hE hcall e (h [] e rest [] m rfl rfl)).bind
      (addsLines_compositional.eval hcalls e)
      (fun v ↦ addsLines_compositional.bind hadds fun _ ↦ addsLines_compositional.pure _)
      fun v m₁ hv ↦ ?_
    refine (evalAll_truncates hE hcall rest ?_).bind hadds
      (fun _ ↦ addsLines_compositional.pure _) fun values m₂ _ ↦
        (Detached.pure (v :: values)).ignoresSink.truncates m₂
    rintro before e' after values m' rfl hbefore
    have hfirst : evalAll (invoke bounds left) s (e :: before) m = .ok (v :: values) m' := by
      rw [evalAll, bind_of_ok hv, bind_of_ok hbefore]
      rfl
    exact h (e :: before) e' after _ m' rfl hfirst

end

mutual

/-- A statement that is entered. This is where displays are found. -/
theorem exec_truncates (hE : ClosedUnderEntering bounds E)
    (hcall : CallsTruncate b bounds E left) :
    (t : Statement) → ∀ {m}, E ⟨.statement t, s, left, m⟩ →
      Truncates b (DisplaysIn bounds E) (exec (invoke bounds left) bounds.rounds s t) m
  | .assign name e line, m, h => by
    have hadds := addsLines_compositional.eval (s := s) (addsLines_compositional.invoke bounds left)
    refine (eval_truncates hE hcall e (hE _ _ h .assigned)).bind (hadds e)
      (fun v ↦ addsLines_compositional.assign s name v) fun v m₁ _ ↦ ?_
    exact (assign_detached s name v).ignoresSink.truncates m₁
  | .display e attached line, m, h => by
    have hadds := addsLines_compositional.eval (s := s) (addsLines_compositional.invoke bounds left)
    have hread := addsLines_compositional.readAttached s attached
    refine (eval_truncates hE hcall e (hE _ _ h .displayed)).bind (hadds e)
      (fun v ↦ addsLines_compositional.bind (addsLines_compositional.display v line) fun _ ↦ hread)
      fun v m₁ hv ↦ ?_
    refine (display_truncates ⟨e, attached, s, left, m, h, hv⟩).bind
      (addsLines_compositional.display v line) (fun _ ↦ hread) fun _ m₂ _ ↦ ?_
    exact (readAttached_ignoresSink s attached).truncates m₂
  | .read target, m, _ => (readInto_ignoresSink s target).truncates m
  | .branch e thenBlock elseBlock line, m, h => by
    have hcalls := addsLines_compositional.invoke bounds left
    refine (eval_truncates hE hcall e (hE _ _ h .branchCondition)).bind
      (addsLines_compositional.eval hcalls e)
      (fun _ ↦ Compositional.ite (addsLines_compositional.execElse hcalls _ elseBlock)
        (addsLines_compositional.execBlock hcalls _ thenBlock)) fun v m₁ hv ↦ ?_
    refine .ite (fun hzero ↦ execElse_truncates hE hcall elseBlock ?_) fun hne ↦
      execBlock_truncates hE hcall thenBlock (hE.statements (hE _ _ h (.thenBlock hv hne)))
    rintro block rfl
    exact hE _ _ h (.elseBlock (hzero ▸ hv))
  | .loop e body line, m, h => by
    have hcalls := addsLines_compositional.invoke bounds left
    exact repeatWhile_truncates (addsLines_compositional.eval hcalls e)
      (addsLines_compositional.execBlock hcalls _ body)
      (fun m₁ hm₁ ↦ eval_truncates hE hcall e (hE _ _ h (.loopCondition hm₁)))
      (fun m₁ m₂ v hm₁ hv hne ↦ execBlock_truncates hE hcall body
        (hE.statements (hE _ _ h (.loopBody hm₁ hv hne)))) bounds.rounds .start

/-- Statements, each of which is entered when those before have been run. -/
theorem execBlock_truncates (hE : ClosedUnderEntering bounds E)
    (hcall : CallsTruncate b bounds E left) :
    (block : List Statement) → ∀ {m}, (∀ before t after m', block = before ++ t :: after →
      execBlock (invoke bounds left) bounds.rounds s before m = .ok () m' →
        E ⟨.statement t, s, left, m'⟩) →
      Truncates b (DisplaysIn bounds E) (execBlock (invoke bounds left) bounds.rounds s block) m
  | [], m, _ => (Detached.pure ()).ignoresSink.truncates m
  | t :: rest, m, h => by
    have hcalls := addsLines_compositional.invoke bounds left
    refine (exec_truncates hE hcall t (h [] t rest m rfl rfl)).bind
      (addsLines_compositional.exec hcalls _ t)
      (fun _ ↦ addsLines_compositional.execBlock hcalls _ rest) fun _ m₁ ht ↦ ?_
    refine execBlock_truncates hE hcall rest ?_
    rintro before t' after m' rfl hbefore
    exact h (t :: before) t' after m' rfl ((bind_of_ok ht).trans hbefore)

theorem execElse_truncates (hE : ClosedUnderEntering bounds E)
    (hcall : CallsTruncate b bounds E left) :
    (block? : Option (List Statement)) → ∀ {m},
      (∀ block, block? = some block → E ⟨.block block, s, left, m⟩) →
      Truncates b (DisplaysIn bounds E) (execElse (invoke bounds left) bounds.rounds s block?) m
  | none, m, _ => (Detached.pure ()).ignoresSink.truncates m
  | some block, _, h => execBlock_truncates hE hcall block (hE.statements (h block rfl))

end

/-- A call is truncated where its body is, which is entered with one call less to be nested. -/
theorem callsTruncate (hE : ClosedUnderEntering bounds E) (left : Nat) :
    CallsTruncate b bounds E left := by
  induction left with
  | zero =>
    intro s name arguments line _ m' values _ _ _
    exact (fail_detached _ line).ignoresSink.truncates m'
  | succ left ih =>
    intro s name arguments line m m₁ values h hcheck harguments
    have hcount := keepsCount_compositional.invoke bounds left
    have hcalls := addsLines_compositional.invoke bounds left
    -- none of the steps before the body displays anything, and they are what its entry asks for
    refine .bind_of_ignoresSink (checkDepth_ignoresSink bounds.calls line) fun _ m₂ hdepth ↦ ?_
    obtain rfl := eq_of_checkDepth hdepth
    refine .bind_of_ignoresSink (procedure_detached name line).ignoresSink fun p m₃ hp ↦ ?_
    obtain rfl := (procedure_eq_ok hp).2
    refine .bind_of_ignoresSink (Detached.ignoresSink fun _ _ ↦ rfl) fun _ m₄ hnote ↦ ?_
    cases hnote
    refine inCall_truncates
      (fun t ↦ keepsCount_compositional.runBody hcount bounds.rounds p values) fun hlt ↦ ?_
    refine .bind_of_ignoresSink (declareAll_detached _ _).ignoresSink fun _ m₅ hframe ↦ ?_
    have hbody := hE _ _ h (.body hcheck harguments hdepth hp (if_pos hlt) hframe)
    refine (execBlock_truncates hE ih p.body (hE.statements hbody)).bind
      (addsLines_compositional.execBlock hcalls _ p.body)
      (fun _ ↦ addsLines_compositional.lookup _ p.name p.line) fun _ m₆ _ ↦ ?_
    exact (lookup_detached _ p.name p.line).ignoresSink.truncates m₆

end Entries

/-! ### Entries at the sink that fails -/

section Stopping

variable {b : Breakage} {bounds : Bounds} {c c' : Entry} {left : Nat} {s : ScopeId}

/-- A run that is at most truncated, wherever it is stopped. -/
def Bears (b : Breakage) (α : Type) (x : Run α) : Prop :=
  AddsLines α x ∧ ∀ m, Truncates b (fun _ _ _ ↦ True) x m

theorem IgnoresSink.bears {x : Run α} (hx : IgnoresSink x) (hadds : AddsLines α x) :
    Bears b α x :=
  ⟨hadds, hx.truncates⟩

/-- A run does at a sink that fails what it does at a reliable one, as long as no more lines are out
than the sink can bear. -/
theorem bears_compositional (b : Breakage) : Compositional (Bears b) where
  pure a := (Detached.pure a).ignoresSink.bears (addsLines_compositional.pure a)
  bind hx hf :=
    ⟨addsLines_compositional.bind hx.1 fun a ↦ (hf a).1,
      fun m ↦ (hx.2 m).bind hx.1 (fun a ↦ (hf a).1) fun a m' _ ↦ (hf a).2 m'⟩
  fail hcause line :=
    (fail_detached _ line).ignoresSink.bears (addsLines_compositional.fail hcause line)
  outOfRounds :=
    (Detached.ignoresSink fun _ _ ↦ rfl).bears addsLines_compositional.outOfRounds
  lookup s name line :=
    (lookup_detached s name line).ignoresSink.bears (addsLines_compositional.lookup s name line)
  assign s name value :=
    (assign_detached s name value).ignoresSink.bears (addsLines_compositional.assign s name value)
  declare s name value :=
    (declare_detached s name value).ignoresSink.bears
      (addsLines_compositional.declare s name value)
  display value line :=
    ⟨addsLines_compositional.display value line, fun _ ↦ display_truncates trivial⟩
  readInto s target :=
    (readInto_ignoresSink s target).bears (addsLines_compositional.readInto s target)
  procedure name line :=
    (procedure_detached name line).ignoresSink.bears (addsLines_compositional.procedure name line)
  checkDepth calls line :=
    (checkDepth_ignoresSink calls line).bears (addsLines_compositional.checkDepth calls line)
  noteCall name values line :=
    (Detached.ignoresSink fun _ _ ↦ rfl).bears
      (addsLines_compositional.noteCall name values line)
  inCall hcount hwork :=
    ⟨addsLines_compositional.inCall hcount fun t ↦ (hwork t).1,
      fun _ ↦ inCall_truncates hcount fun _ ↦ (hwork _).2 _⟩

/-- From one machine at a reliable sink to another, and what it takes to do the same at the sink
that fails. -/
structure Unbroken (b : Breakage) (m m' : Machine) (p : Prop) : Prop where
  /-- The sink is still a reliable one. -/
  sink : m'.console.sink = .reliable
  /-- There are no fewer lines. -/
  lines : m.console.output.size ≤ m'.console.output.size
  /-- What is said of the sink that fails holds as long as it can bear the lines. -/
  same : m'.console.output.size ≤ b.lines → p

section Unbroken

variable {m'' : Machine} {p q : Prop}

theorem Unbroken.refl (hm : m.console.sink = .reliable) (hp : p) : Unbroken b m m p :=
  ⟨hm, Nat.le_refl _, fun _ ↦ hp⟩

theorem Unbroken.imp (h : Unbroken b m m' p) (hpq : p → q) : Unbroken b m m' q :=
  ⟨h.sink, h.lines, fun hlines ↦ hpq (h.same hlines)⟩

/-- One stretch without a failure after another. -/
theorem Unbroken.trans (h : Unbroken b m m' p) (h' : Unbroken b m' m'' q) :
    Unbroken b m m'' (p ∧ q) :=
  ⟨h'.sink, Nat.le_trans h.lines h'.lines,
    fun hlines ↦ ⟨h.same (Nat.le_trans h'.lines hlines), h'.same hlines⟩⟩

end Unbroken

/-- A part that comes to a result at the reliable sink does so at the other, if the lines can be
borne. -/
theorem Bears.unbroken (hx : Bears b α x) (hm : m.console.sink = .reliable) {a : α}
    (h : x m = .ok a m') :
    Unbroken b m m' (x (m.withSink b.sink) = .ok a (m'.withSink b.sink)) := by
  obtain ⟨hsink, hprefix⟩ := hx.1 m
  rw [h] at hsink hprefix
  refine ⟨hsink.trans hm, hprefix.length_le, fun hlines ↦ ?_⟩
  have htruncated := hx.2 m hm (Nat.le_trans hprefix.length_le hlines)
  rw [h] at htruncated
  generalize x (m.withSink b.sink) = r' at htruncated ⊢
  cases htruncated with
  | same _ => rfl
  | cut hcut => exact absurd hlines (Nat.not_le.2 hcut.lt_length)

/-- The same for a number of rounds of a loop. -/
theorem AfterRounds.unbroken {condition : Run Word} {body : Run Unit}
    (hcondition : Bears b Word condition) (hbody : Bears b Unit body)
    (hm : m.console.sink = .reliable) (h : AfterRounds condition body m m') :
    Unbroken b m m' (AfterRounds condition body (m.withSink b.sink) (m'.withSink b.sink)) := by
  induction h with
  | start => exact .refl hm .start
  | round _ hvalue hne hround ih =>
    have hasked := hcondition.unbroken ih.sink hvalue
    have hdone := hbody.unbroken hasked.sink hround
    exact ((ih.trans hasked).trans hdone).imp fun ⟨⟨hrounds, hvalue'⟩, hround'⟩ ↦
      .round hrounds hvalue' hne hround'

/-- The entry of the same part at another sink. -/
def atSink (sink : Sink) (c : Entry) : Entry :=
  { c with machine := c.machine.withSink sink }

/-- **One step:** what is entered at a reliable sink is entered at the sink that fails, as long as
it can bear the lines. -/
theorem Enters.unbroken (h : Enters bounds c c') (hc : c.machine.console.sink = .reliable) :
    Unbroken b c.machine c'.machine (Enters bounds (atSink b.sink c) (atSink b.sink c')) := by
  have hbears := bears_compositional b
  have hcalls := hbears.invoke bounds
  cases h with
  | leftOperand => exact .refl hc .leftOperand
  | assigned => exact .refl hc .assigned
  | displayed => exact .refl hc .displayed
  | branchCondition => exact .refl hc .branchCondition
  | rightOperand hleft =>
    exact ((hbears.eval (hcalls _) _).unbroken hc hleft).imp .rightOperand
  | thenBlock hcondition hvalue =>
    exact ((hbears.eval (hcalls _) _).unbroken hc hcondition).imp (.thenBlock · hvalue)
  | elseBlock hcondition =>
    exact ((hbears.eval (hcalls _) _).unbroken hc hcondition).imp .elseBlock
  | argument hcheck hbefore =>
    have hchecked := (hbears.checkCall _ _ _).unbroken hc hcheck
    have hevaluated := (hbears.evalAll (hcalls _) _).unbroken hchecked.sink hbefore
    exact (hchecked.trans hevaluated).imp fun ⟨hcheck', hbefore'⟩ ↦ .argument hcheck' hbefore'
  | @body _ _ _ m' _ name _ line values _ _ hcheck harguments hdepth hp hcount hframe =>
    obtain ⟨hcalls', rfl⟩ := enter?_eq_some hcount
    have hchecked := (hbears.checkCall _ _ _).unbroken hc hcheck
    have hevaluated := (hbears.evalAll (hcalls _) _).unbroken hchecked.sink harguments
    have hlimited := (hbears.checkDepth _ _).unbroken hevaluated.sink hdepth
    have hfound := (hbears.procedure _ _).unbroken hlimited.sink hp
    have hentered : (Machine.enterCall { m' with
        journal := m'.journal.note (.called name values line) }).console.sink = .reliable :=
      hfound.sink
    have hdeclared := (hbears.declareAll _ _).unbroken hentered hframe
    refine ((((hchecked.trans hevaluated).trans hlimited).trans hfound).trans
      ⟨hdeclared.sink, hdeclared.lines, hdeclared.same⟩).imp ?_
    rintro ⟨⟨⟨⟨hcheck', harguments'⟩, hdepth'⟩, hp'⟩, hframe'⟩
    have hcount' : (m'.withSink b.sink).console.enter? = some _ := if_pos hcalls'
    have hbody := Enters.body hcheck' harguments' hdepth' hp' hcount' hframe'
    exact hbody
  | loopCondition hrounds =>
    exact (hrounds.unbroken (hbears.eval (hcalls _) _) (hbears.execBlock (hcalls _) _ _) hc).imp
      .loopCondition
  | loopBody hrounds hcondition hvalue =>
    have hasked := hrounds.unbroken (hbears.eval (hcalls _) _) (hbears.execBlock (hcalls _) _ _) hc
    exact (hasked.trans ((hbears.eval (hcalls _) _).unbroken hasked.sink hcondition)).imp
      fun ⟨hrounds', hcondition'⟩ ↦ .loopBody hrounds' hcondition' hvalue
  | statement hbefore =>
    exact ((hbears.execBlock (hcalls _) _ _).unbroken hc hbefore).imp .statement

/-- **Any display that is made when so many lines are out stops the run** at the sink that fails,
unless the rounds of a loop are used up before. -/
theorem stops_of_display {e : Expr} {attached : Option ReadTarget} {line : Nat} {value : Word}
    {m₀ d : Machine} (hlines : d.console.output.size = b.lines)
    (hc : c.machine.console.sink = .reliable)
    (hentered : Relation.ReflTransGen (Enters bounds) c
      ⟨.statement (.display e attached line), s, left, m₀⟩)
    (hvalue : eval (invoke bounds left) s e m₀ = .ok value d) :
    Stops bounds (.fault ⟨.stream b.failure, line⟩) d.console.input (atSink b.sink c) ∨
      ∃ input', Stops bounds .outOfRounds input' (atSink b.sink c) := by
  have hbears := bears_compositional b
  -- backwards from the display: as many lines are out at most, so all that leads to it is unbroken
  suffices h : c.machine.console.output.size ≤ b.lines ∧ _ from h.2
  induction hentered using Relation.ReflTransGen.head_induction_on with
  | refl =>
    have hcomputed := (hbears.eval (hbears.invoke bounds left) e).unbroken hc hvalue
    obtain ⟨m', hbroken, hinput, -⟩ := display_of_eq_lines hlines value line
    refine ⟨hlines ▸ hcomputed.lines, .inl (.after (hcomputed.same (Nat.le_of_eq hlines)) ?_)⟩
    exact StopsWith.bind ⟨m', hbroken, hinput⟩
  | head hstep _ ih =>
    have hunbroken := hstep.unbroken (b := b) hc
    obtain ⟨hle, hstops⟩ := ih hunbroken.sink
    have hentry := hunbroken.same hle
    refine ⟨Nat.le_trans hunbroken.lines hle, ?_⟩
    obtain hstops | ⟨input', hout⟩ := hstops
    · exact hentry.stops hstops
    · exact .inr ((hentry.stops hout).elim (⟨input', ·⟩) id)

end Stopping

/-! ### Programs -/

section Programs

variable {b : Breakage} {bounds : Bounds} {p : Program} {calls : Nat}

/-- A program displays a value on a line. The machine is the one that is found when the value has
been computed. -/
def IsDisplayed (bounds : Bounds) (p : Program) (m : Machine) :
    (line : Nat) → (value : Word) → (d : Machine) → Prop :=
  DisplaysIn bounds (IsEntered bounds p m)

/-- Whatever an entry of the run enters is an entry of the run. -/
theorem isEntered_closed (bounds : Bounds) (p : Program) (m : Machine) :
    ClosedUnderEntering bounds (IsEntered bounds p m) := by
  rintro c c' ⟨m', hregistered, hentered⟩ hstep
  exact ⟨m', hregistered, hentered.tail hstep⟩

/-- A program, seen from the outside in: it is stopped at a display that it makes, or not at all. -/
theorem runProgram_truncates (b : Breakage) (bounds : Bounds) (p : Program) (m : Machine) :
    Truncates b (IsDisplayed bounds p m) (runProgram bounds p) m := by
  refine .bind_of_ignoresSink (registerAll_detached p.procedures).ignoresSink fun _ m' hm' ↦ ?_
  have hE := isEntered_closed bounds p m
  exact execBlock_truncates hE (callsTruncate hE bounds.calls) p.statements
    (hE.statements ⟨m', hm', .refl⟩)

/-- And from the inside out: a display at the point where the sink fails stops the program. -/
theorem stopsWith_of_isDisplayed (hsink : m.console.sink = .reliable) {line : Nat} {value : Word}
    {d : Machine} (hd : IsDisplayed bounds p m line value d)
    (hlines : d.console.output.size = b.lines)
    (hrounds : halt? (runProgram bounds p (m.withSink b.sink)) ≠ some .outOfRounds) :
    StopsWith (.fault ⟨.stream b.failure, line⟩) d.console.input
      (runProgram bounds p (m.withSink b.sink)) := by
  obtain ⟨e, attached, s, left, m₀, ⟨m₁, hregistered, hentered⟩, hvalue⟩ := hd
  have hignores := (registerAll_detached p.procedures).ignoresSink
  have hreliable := hignores.sink_eq m
  have hregistered' := (hignores m b.sink).1
  rw [hregistered] at hreliable hregistered'
  have hstatements : runProgram bounds p (m.withSink b.sink) =
      runBlock bounds .root p.statements (m₁.withSink b.sink) := bind_of_ok hregistered'
  rw [hstatements] at hrounds ⊢
  obtain hstops | ⟨_, m', hout, -⟩ :=
    stops_of_display hlines (hreliable.trans hsink) hentered hvalue
  · exact hstops
  · exact absurd (congrArg halt? hout) hrounds

/-- **A failing sink only truncates.** Let a program end at a reliable sink. At a sink that takes so
many lines and no more it ends in the same way, if there are no more lines in the end. Otherwise it
is stopped with the failure of the sink, on the line of the display that is made when so many lines
are out; those are the lines that are out then, and the input is what is found by that display at
the reliable sink. All displays that are made then are on this line and find this input. With a sink
that cannot be flushed after a line it is the same, except that this line is out. -/
theorem failing_sink_truncates {calls : Nat} {p : Program} {m : Machine}
    {r : EStateM.Result Halt Machine Unit} (h : EndsWith calls p m r)
    (hsink : m.console.sink = .reliable) (b : Breakage)
    (hlines : m.console.output.size ≤ b.lines) :
    ((stateLeft r).console.output.size ≤ b.lines →
      EndsWith calls p (m.withSink b.sink) (mapMachine (·.withSink b.sink) r)) ∧
    (b.lines < (stateLeft r).console.output.size →
      ∃ rounds line value d m', runProgram ⟨calls, rounds⟩ p m = r ∧
        EndsWith calls p (m.withSink b.sink) (.error (.fault ⟨.stream b.failure, line⟩) m') ∧
        CutAt b (IsDisplayed ⟨calls, rounds⟩ p m) (stateLeft r).console.output.toList
          line value d m' ∧
        ∀ line' value' d', IsDisplayed ⟨calls, rounds⟩ p m line' value' d' →
          d'.console.output.size = b.lines →
            line' = line ∧ d'.console.input = d.console.input) := by
  obtain ⟨⟨rounds, hr⟩, hrounds⟩ := h
  have htruncated := runProgram_truncates b ⟨calls, rounds⟩ p m hsink hlines
  rw [hr] at htruncated
  generalize hr' : runProgram ⟨calls, rounds⟩ p (m.withSink b.sink) = r' at htruncated
  cases htruncated with
  | same hless =>
    refine ⟨fun _ ↦ ⟨⟨rounds, hr'⟩, by rwa [halt?_mapMachine]⟩, fun hmore ↦ ?_⟩
    exact absurd hless (Nat.not_le.2 hmore)
  | @cut line value d m' hcut =>
    refine ⟨fun hless ↦ absurd hless (Nat.not_le.2 hcut.lt_length), fun _ ↦ ?_⟩
    refine ⟨rounds, line, value, d, m', hr, ⟨⟨rounds, hr'⟩, nofun⟩, hcut, ?_⟩
    intro line' value' d' hd' hlines'
    obtain ⟨m'', hstopped, hinput⟩ :=
      stopsWith_of_isDisplayed hsink hd' hlines' (by rw [hr']; nofun)
    cases hr'.symm.trans hstopped
    exact ⟨rfl, hinput.symm.trans hcut.input⟩

/-- The third display is in a call that the second statement makes, and its read is not performed.
-/
theorem failing_sink_truncates_call :
    let f : Procedure := ⟨"f", ["n"], ["x"], [.display (.variable "n" 2) (some ⟨"x", 2⟩) 2], 1⟩
    let p : Program := ⟨[f], [.display (.call "f" [.number .one] 4) none 4,
      .display (.call "f" [.number .zero] 5) (some ⟨"y", 5⟩) 5]⟩
    let m : Machine := ⟨.empty, Console.start [49, 10, 50, 10, 51, 10] .reliable, .silent⟩
    ∃ r, EndsWith 64 p m r ∧ m.console.sink = .reliable ∧ m.console.output.size ≤ 2 ∧
      (stateLeft r).console.output.toList = [.one, .zero, .zero, .zero] ∧
      ∃ rounds value d m', EndsWith 64 p (m.withSink ⟨some 2, none⟩)
          (.error (.fault ⟨.stream .outputFull, 2⟩) m') ∧
        CutAt (.full 2) (IsDisplayed ⟨64, rounds⟩ p m) (stateLeft r).console.output.toList
          2 value d m' ∧
        m'.console.input = [50, 10, 51, 10] := by
  intro f p m
  have hhalt : halt? (runProgram ⟨64, 0⟩ p m) = none := by decide +kernel
  have houtput : (stateLeft (runProgram ⟨64, 0⟩ p m)).console.output.toList =
      [.one, .zero, .zero, .zero] := by decide +kernel
  have h : EndsWith 64 p m (runProgram ⟨64, 0⟩ p m) := ⟨⟨0, rfl⟩, by simp [hhalt]⟩
  have hmore : 2 < (stateLeft (runProgram ⟨64, 0⟩ p m)).console.output.size := by
    rw [← Array.length_toList, houtput]
    decide
  obtain ⟨rounds, line, value, d, m', -, hstopped, hcut, -⟩ :=
    (failing_sink_truncates h rfl (.full 2) (Nat.zero_le 2)).2 hmore
  -- the second run can be evaluated as well
  obtain ⟨r', hr'⟩ : ∃ r', r' = runProgram ⟨64, 0⟩ p (m.withSink ⟨some 2, none⟩) := ⟨_, rfl⟩
  have hhalt' : halt? r' = some (.fault ⟨.stream .outputFull, 2⟩) := by
    rw [hr']
    decide +kernel
  have hinput : (stateLeft r').console.input = [50, 10, 51, 10] := by
    rw [hr']
    decide +kernel
  have hbroken : EndsWith 64 p (m.withSink ⟨some 2, none⟩) r' := ⟨⟨0, hr'.symm⟩, by simp [hhalt']⟩
  obtain rfl := hbroken.unique hstopped
  cases hhalt'
  exact ⟨_, h, rfl, Nat.zero_le 2, houtput, rounds, value, d, m', hstopped, hcut, hinput⟩

end Programs

end TinyProc.Run
