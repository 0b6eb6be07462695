import Mathlib.Logic.Relation
import TinyProc.Proofs.Run.Composition

/-!
# The scope of a run is the newest one

While a program runs, expressions, statements and blocks are entered, each with a scope to work in
and on the machine as it is then. Three things are kept apart and have to agree at every entry: the
address of the scope, which is handed down, the number of scopes, which is the length of an array,
and the count of active calls.

`Run.Enters` says which entries are made directly from another one, with one rule for each place
where evaluation and execution go on to a part of the syntax tree or to the body of a procedure. The
machine that the new entry finds is what the steps before it have left.

That these are the entries of a run, no fewer and no more, is shown by where a run halts. What is
entered is run: where it halts, so does what it is entered from, unless the rounds of a loop are
used up (`Run.Enters.halts`). What is run is entered: a part that halts does so in a step of its
own, and these are listed, or enters a part that halts (`Run.halts_or_enters`). Entries go down in
the tree or in the calls that may still be nested (`Run.enters_wellFounded`), and so the reason why
a program halts is found in the step of an entry (`Run.halt?_runProgram_iff`).

What an entry finds is said once (`Run.Enters.frame_or_call`): the parts of a tree are entered in
its scope, and whatever is run between them respects the frame; the body of a procedure is entered
in a scope of its own. So one step keeps scope, number of scopes and count in agreement
(`Run.Enters.atLevel`), since the body of a procedure is one level up in all three respects, and all
entries of a run are on their level, by induction (`Run.scope_is_newest`).
-/

namespace TinyProc

/-- What can be entered. -/
inductive Part
  /-- An expression, to be evaluated. -/
  | expr (e : Expr)
  /-- A statement, to be run. -/
  | statement (t : Statement)
  /-- A block, to be run. -/
  | block (block : Block)

/-- An entry of a part. -/
structure Entry where
  /-- The part that is entered. -/
  part : Part
  /-- The scope that it is given. -/
  scope : ScopeId
  /-- How many calls may still be nested. -/
  left : Nat
  /-- The machine that it finds. -/
  machine : Machine

/-- What the part that is entered halts with, if it does. -/
def Entry.halt? (bounds : Bounds) : Entry → Option Halt
  | ⟨.expr e, s, left, m⟩ => Run.halt? (Run.eval (Run.invoke bounds left) s e m)
  | ⟨.statement t, s, left, m⟩ =>
    Run.halt? (Run.exec (Run.invoke bounds left) bounds.rounds s t m)
  | ⟨.block block, s, left, m⟩ =>
    Run.halt? (Run.execBlock (Run.invoke bounds left) bounds.rounds s block m)

namespace Run

/-! ### Entries -/

/-- The second machine is one on which a loop asks for its condition, if it starts on the first. -/
inductive AfterRounds (condition : Run Word) (body : Run Unit) (m : Machine) : Machine → Prop
  /-- It asks before the first round. -/
  | start : AfterRounds condition body m m
  /-- It asks after another round. -/
  | round {m₁ m₂ m₃ : Machine} {value : Word} (hrounds : AfterRounds condition body m m₁)
    (hcondition : condition m₁ = .ok value m₂) (hvalue : value ≠ .zero)
    (hbody : body m₂ = .ok () m₃) : AfterRounds condition body m m₃

/-- The second entry is made on the way through the part that the first one enters, and not on the
way through a part of that. -/
inductive Enters (bounds : Bounds) : Entry → Entry → Prop
  /-- The left operand. -/
  | leftOperand {s : ScopeId} {left : Nat} {m : Machine} {op : Operator} {a b : Expr} {line : Nat} :
    Enters bounds ⟨.expr (.binary op a b line), s, left, m⟩ ⟨.expr a, s, left, m⟩
  /-- The right operand, after the left one. -/
  | rightOperand {s : ScopeId} {left : Nat} {m m' : Machine} {op : Operator} {a b : Expr}
    {line : Nat} {value : Word} (hleft : eval (invoke bounds left) s a m = .ok value m') :
    Enters bounds ⟨.expr (.binary op a b line), s, left, m⟩ ⟨.expr b, s, left, m'⟩
  /-- An argument, after those before it. -/
  | argument {s : ScopeId} {left : Nat} {m m' : Machine} {name : String}
    {before after : List Expr} {e : Expr} {line : Nat} {values : List Word}
    (hcheck : checkCall name (before ++ e :: after).length line m = .ok () m)
    (hbefore : evalAll (invoke bounds left) s before m = .ok values m') :
    Enters bounds ⟨.expr (.call name (before ++ e :: after) line), s, left, m⟩
      ⟨.expr e, s, left, m'⟩
  /-- The body of a procedure, after the arguments, in a scope of its own that holds its frame. -/
  | body {s : ScopeId} {left : Nat} {m m' m'' : Machine} {name : String} {arguments : List Expr}
    {line : Nat} {values : List Word} {p : Procedure} {console : Console}
    (hcheck : checkCall name arguments.length line m = .ok () m)
    (harguments : evalAll (invoke bounds (left + 1)) s arguments m = .ok values m')
    (hdepth : checkDepth bounds.calls line m' = .ok () m')
    (hprocedure : procedure name line m' = .ok p m')
    (hcount : m'.console.enter? = some console)
    (hframe : declareAll m'.env.nextScope (frame p values)
      ⟨m'.env.push, console, m'.journal.note (.called name values line)⟩ = .ok () m'') :
    Enters bounds ⟨.expr (.call name arguments line), s, left + 1, m⟩
      ⟨.block p.body, m'.env.nextScope, left, m''⟩
  /-- The value that is assigned. -/
  | assigned {s : ScopeId} {left : Nat} {m : Machine} {name : String} {e : Expr} {line : Nat} :
    Enters bounds ⟨.statement (.assign name e line), s, left, m⟩ ⟨.expr e, s, left, m⟩
  /-- The value that is displayed. -/
  | displayed {s : ScopeId} {left : Nat} {m : Machine} {e : Expr} {attached : Option ReadTarget}
    {line : Nat} :
    Enters bounds ⟨.statement (.display e attached line), s, left, m⟩ ⟨.expr e, s, left, m⟩
  /-- The condition of a branch. -/
  | branchCondition {s : ScopeId} {left : Nat} {m : Machine} {e : Expr} {thenBlock : Block}
    {elseBlock : Option Block} {line : Nat} :
    Enters bounds ⟨.statement (.branch e thenBlock elseBlock line), s, left, m⟩
      ⟨.expr e, s, left, m⟩
  /-- The first block of a branch. -/
  | thenBlock {s : ScopeId} {left : Nat} {m m' : Machine} {e : Expr} {thenBlock : Block}
    {elseBlock : Option Block} {line : Nat} {value : Word}
    (hcondition : eval (invoke bounds left) s e m = .ok value m') (hvalue : value ≠ .zero) :
    Enters bounds ⟨.statement (.branch e thenBlock elseBlock line), s, left, m⟩
      ⟨.block thenBlock, s, left, m'⟩
  /-- The second block of a branch. -/
  | elseBlock {s : ScopeId} {left : Nat} {m m' : Machine} {e : Expr} {thenBlock elseBlock : Block}
    {line : Nat} (hcondition : eval (invoke bounds left) s e m = .ok .zero m') :
    Enters bounds ⟨.statement (.branch e thenBlock (some elseBlock) line), s, left, m⟩
      ⟨.block elseBlock, s, left, m'⟩
  /-- The condition of a loop, before some round. -/
  | loopCondition {s : ScopeId} {left : Nat} {m m' : Machine} {e : Expr} {body : Block}
    {line : Nat} (hrounds : AfterRounds (eval (invoke bounds left) s e)
      (execBlock (invoke bounds left) bounds.rounds s body) m m') :
    Enters bounds ⟨.statement (.loop e body line), s, left, m⟩ ⟨.expr e, s, left, m'⟩
  /-- The body of a loop, in some round. -/
  | loopBody {s : ScopeId} {left : Nat} {m m' m'' : Machine} {e : Expr} {body : Block}
    {line : Nat} {value : Word} (hrounds : AfterRounds (eval (invoke bounds left) s e)
      (execBlock (invoke bounds left) bounds.rounds s body) m m')
    (hcondition : eval (invoke bounds left) s e m' = .ok value m'') (hvalue : value ≠ .zero) :
    Enters bounds ⟨.statement (.loop e body line), s, left, m⟩ ⟨.block body, s, left, m''⟩
  /-- A statement of a block, after those before it. -/
  | statement {s : ScopeId} {left : Nat} {m m' : Machine} {before after : Block} {t : Statement}
    (hbefore : execBlock (invoke bounds left) bounds.rounds s before m = .ok () m') :
    Enters bounds ⟨.block (before ++ t :: after), s, left, m⟩ ⟨.statement t, s, left, m'⟩

/-- The entry is made when the program is run. -/
def IsEntered (bounds : Bounds) (p : Program) (m : Machine) (c : Entry) : Prop :=
  ∃ m', registerAll p.procedures m = .ok () m' ∧
    Relation.ReflTransGen (Enters bounds) ⟨.block p.statements, .root, bounds.calls, m'⟩ c

section Adequacy

variable {α β : Type} {bounds : Bounds} {s : ScopeId} {left line : Nat} {name : String}
  {values : List Word} {m m₀ m' : Machine} {x : Run α} {c c' : Entry} {h : Halt}
  {input : List UInt8}

/-! ### Steps that succeed -/

theorem lt_of_checkDepth {calls line : Nat} {a : Unit} (h : checkDepth calls line m = .ok a m') :
    m.console.activeCalls < calls := by
  rw [checkDepth_apply] at h
  split at h
  · assumption
  · cases h

theorem eq_of_checkDepth {calls line : Nat} {a : Unit}
    (h : checkDepth calls line m = .ok a m') : m' = m := by
  rw [checkDepth_apply] at h
  split at h <;> cases h
  rfl

/-- A procedure that is found is the one that is registered, and the machine is the same. -/
theorem procedure_eq_ok {name : String} {line : Nat} {p : Procedure}
    (h : procedure name line m = .ok p m') : m.env.procedure? name = some p ∧ m' = m := by
  rw [procedure_apply] at h
  split at h <;> cases h
  exact ⟨‹_›, rfl⟩

/-- A call passes the check if its procedure is registered and has as many parameters as there are
arguments, and the machine is the same. -/
theorem checkCall_eq_ok {name : String} {arguments line : Nat} {a : Unit}
    (h : checkCall name arguments line m = .ok a m') :
    (∃ p, m.env.procedure? name = some p ∧ p.params.length = arguments) ∧ m' = m := by
  obtain ⟨p, m₁, hprocedure, hlength⟩ := exists_of_bind_eq_ok h
  obtain ⟨hp, rfl⟩ := procedure_eq_ok hprocedure
  split at hlength <;> cases hlength
  exact ⟨⟨p, hp, ‹_›⟩, rfl⟩

/-- A call that can be counted is counted as one more. -/
theorem enter?_eq_some {c c' : Console} (h : c.enter? = some c') :
    c.activeCalls < Console.maxCalls ∧ { c with activeCalls := c.activeCalls + 1 } = c' := by
  rw [Console.enter?] at h
  split at h
  · exact ⟨‹_›, Option.some.inj h⟩
  · cases h

/-! ### Out of a part -/

/-- The run was stopped for the reason, with the input left. -/
def StopsWith (h : Halt) (input : List UInt8) (r : EStateM.Result Halt Machine α) : Prop :=
  ∃ m', r = .error h m' ∧ m'.console.input = input

/-- A sequence stops where its first part does, with the same input left. -/
theorem StopsWith.bind {f : α → Run β} (hx : StopsWith h input (x m)) :
    StopsWith h input ((x >>= f) m) := by
  obtain ⟨m', hm', hinput⟩ := hx
  exact ⟨m', bind_of_error hm', hinput⟩

/-- A sequence stops where its second part does. -/
theorem StopsWith.after {f : α → Run β} {a : α} (hx : x m = .ok a m')
    (hf : StopsWith h input (f a m')) : StopsWith h input ((x >>= f) m) := by
  rwa [bind_of_ok hx]

/-- Arguments stop with the first of them that does. -/
theorem evalAll_stops {call : Caller} {s : ScopeId} {before : List Expr} {values : List Word}
    (hbefore : evalAll call s before m = .ok values m') {e : Expr}
    (he : StopsWith h input (eval call s e m')) (after : List Expr) :
    StopsWith h input (evalAll call s (before ++ e :: after) m) := by
  induction before generalizing m values with
  | nil =>
    cases hbefore
    exact he.bind
  | cons first rest ih =>
    obtain ⟨value, m₁, hfirst, hbefore⟩ := exists_of_bind_eq_ok hbefore
    obtain ⟨others, m₂, hrest, hbefore⟩ := exists_of_bind_eq_ok hbefore
    cases hbefore
    exact .after hfirst (ih hrest).bind

section Loops

variable {condition : Run Word} {body : Run Unit} {value : Word}

/-- A loop that would go on and has no rounds left. -/
theorem repeatWhile_zero_stops (hcondition : condition m = .ok value m') (hvalue : value ≠ .zero) :
    StopsWith .outOfRounds m'.console.input (repeatWhile condition body 0 m) := by
  refine .after hcondition ?_
  rw [if_neg hvalue]
  exact ⟨m', rfl, rfl⟩

theorem repeatWhile_succ_apply (hcondition : condition m = .ok value m') (hvalue : value ≠ .zero)
    (rounds : Nat) :
    repeatWhile condition body (rounds + 1) m =
      (body >>= fun _ ↦ repeatWhile condition body rounds) m' := by
  refine (bind_of_ok hcondition).trans ?_
  rw [if_neg hvalue]

/-- A loop that gets to a round goes on from there, unless its rounds are used up before. -/
theorem AfterRounds.repeatWhile (hm : AfterRounds condition body m m') (rounds : Nat) :
    (∃ input, StopsWith .outOfRounds input (repeatWhile condition body rounds m)) ∨
      ∃ rounds', Run.repeatWhile condition body rounds m =
        Run.repeatWhile condition body rounds' m' := by
  induction hm with
  | start => exact .inr ⟨rounds, rfl⟩
  | round _ hcondition hvalue hbody ih =>
    obtain hout | ⟨rounds', hsame⟩ := ih
    · exact .inl hout
    · rw [hsame]
      cases rounds' with
      | zero => exact .inl ⟨_, repeatWhile_zero_stops hcondition hvalue⟩
      | succ rounds' =>
        exact .inr ⟨rounds', (repeatWhile_succ_apply hcondition hvalue _).trans (bind_of_ok hbody)⟩

end Loops

/-- What is entered is stopped for the reason, with the input left. -/
def Stops (bounds : Bounds) (h : Halt) (input : List UInt8) : Entry → Prop
  | ⟨.expr e, s, left, m⟩ => StopsWith h input (eval (invoke bounds left) s e m)
  | ⟨.statement t, s, left, m⟩ =>
    StopsWith h input (exec (invoke bounds left) bounds.rounds s t m)
  | ⟨.block block, s, left, m⟩ =>
    StopsWith h input (execBlock (invoke bounds left) bounds.rounds s block m)

/-- **One step back:** where a part is stopped that is entered, so is what it is entered from,
unless the rounds of a loop are used up before. -/
theorem Enters.stops (hentered : Enters bounds c c') (hstops : Stops bounds h input c') :
    Stops bounds h input c ∨ ∃ input', Stops bounds .outOfRounds input' c := by
  cases hentered with
  | leftOperand | assigned | displayed | branchCondition => exact .inl (StopsWith.bind hstops)
  | rightOperand hleft => exact .inl (.after hleft (StopsWith.bind hstops))
  | argument hcheck hbefore =>
    exact .inl (.after hcheck (evalAll_stops hbefore hstops _).bind)
  | @body s left m m' m'' name arguments line values p console hcheck harguments hdepth hp hcount
      hframe =>
    refine .inl (.after hcheck (.after harguments (.after hdepth (.after hp ?_))))
    obtain ⟨hcalls, rfl⟩ := enter?_eq_some hcount
    obtain ⟨m₁, hm₁, hinput⟩ := hstops
    refine .after (note_apply (.called name values line) m') ?_
    have hkeeps := keepsCount_compositional.invoke bounds left
    rw [inCall_apply fun _ ↦ keepsCount_compositional.runBody hkeeps bounds.rounds p values,
      if_pos hcalls]
    have hbody : runBody (invoke bounds left) bounds.rounds p values m'.env.nextScope
        (Machine.enterCall { m' with journal := m'.journal.note (.called name values line) }) =
          .error h m₁ := by
      rw [runBody]
      exact (bind_of_ok hframe).trans (bind_of_error hm₁)
    -- the call is taken back, which leaves the input alone
    exact ⟨m₁.leaveCall m'.env.nextScope, congrArg (mapMachine _) hbody, hinput⟩
  | thenBlock hcondition hvalue =>
    refine .inl (.after hcondition ?_)
    rw [if_neg hvalue]
    exact hstops
  | elseBlock hcondition =>
    refine .inl (.after hcondition ?_)
    rw [if_pos rfl]
    exact hstops
  | loopCondition hrounds =>
    obtain hout | ⟨rounds', hsame⟩ := hrounds.repeatWhile bounds.rounds
    · exact .inr hout
    · left
      show StopsWith h input (repeatWhile _ _ _ _)
      rw [hsame]
      cases rounds' <;> exact StopsWith.bind hstops
  | loopBody hrounds hcondition hvalue =>
    obtain hout | ⟨rounds', hsame⟩ := hrounds.repeatWhile bounds.rounds
    · exact .inr hout
    · show StopsWith h input (repeatWhile _ _ _ _) ∨
        ∃ input', StopsWith .outOfRounds input' (repeatWhile _ _ _ _)
      rw [hsame]
      cases rounds' with
      | zero => exact .inr ⟨_, repeatWhile_zero_stops hcondition hvalue⟩
      | succ rounds' =>
        rw [repeatWhile_succ_apply hcondition hvalue]
        exact .inl (StopsWith.bind hstops)
  | statement hbefore =>
    left
    show StopsWith h input (execBlock _ _ _ _ _)
    rw [execBlock_append]
    exact .after hbefore (StopsWith.bind hstops)

/-- What stops halts, whatever input is left. -/
theorem Stops.halt?_eq (hstops : Stops bounds h input c) : c.halt? bounds = some h := by
  obtain ⟨e | t | block, s, left, m⟩ := c <;> obtain ⟨m', hm', -⟩ := hstops <;>
    exact congrArg halt? hm'

theorem exists_stops (hhalt : c.halt? bounds = some h) : ∃ input, Stops bounds h input c := by
  have hstopped : ∀ {α : Type} {r : EStateM.Result Halt Machine α}, halt? r = some h →
      ∃ input, StopsWith h input r := by
    intro α r hr
    cases r with
    | ok a m => cases hr
    | error e m =>
      cases hr
      exact ⟨_, m, rfl, rfl⟩
  obtain ⟨e | t | block, s, left, m⟩ := c <;> exact hstopped hhalt

/-- **What is entered is run:** where it halts, so does what it is entered from, for the same reason
or since the rounds of a loop are used up before. -/
theorem Enters.halts (hentered : Enters bounds c c') (hhalt : c'.halt? bounds = some h) :
    c.halt? bounds = some h ∨ c.halt? bounds = some .outOfRounds := by
  obtain ⟨input, hstops⟩ := exists_stops hhalt
  exact (hentered.stops hstops).imp (·.halt?_eq) fun ⟨_, hout⟩ ↦ hout.halt?_eq

/-- So it is from entry to entry. -/
theorem halts_of_reached (hreached : Relation.ReflTransGen (Enters bounds) c c')
    (hhalt : c'.halt? bounds = some h) :
    c.halt? bounds = some h ∨ c.halt? bounds = some .outOfRounds := by
  induction hreached using Relation.ReflTransGen.head_induction_on with
  | refl => exact .inl hhalt
  | head hstep _ ih =>
    obtain hhalts | hout := ih
    · exact hstep.halts hhalts
    · exact .inr ((hstep.halts hout).elim id id)

/-! ### Into a part -/

/-- Of two runs in a row one halts. -/
theorem halt?_bind_eq_some {x : Run α} {f : α → Run β} (hbind : halt? ((x >>= f) m) = some h) :
    halt? (x m) = some h ∨ ∃ a m', x m = .ok a m' ∧ halt? (f a m') = some h := by
  cases hx : x m with
  | ok a m' =>
    rw [bind_of_ok hx] at hbind
    exact .inr ⟨a, m', rfl, hbind⟩
  | error e m' =>
    rw [bind_of_error hx] at hbind
    exact .inl hbind

theorem halt?_bind_of_eq_some {f : α → Run β} (hx : halt? (x m) = some h) :
    halt? ((x >>= f) m) = some h := by
  cases hr : x m with
  | ok a m' =>
    rw [hr] at hx
    cases hx
  | error e m' =>
    rw [hr] at hx
    rw [bind_of_error hr]
    exact hx

theorem halt?_bind_of_ok {f : α → Run β} {a : α} (hx : x m = .ok a m') :
    halt? ((x >>= f) m) = halt? (f a m') :=
  congrArg halt? (bind_of_ok hx)

/-- Where arguments halt, one of them does, after those before it. -/
theorem evalAll_halts {call : Caller} {es : List Expr}
    (hes : halt? (evalAll call s es m) = some h) :
    ∃ before e after values m', es = before ++ e :: after ∧
      evalAll call s before m = .ok values m' ∧ halt? (eval call s e m') = some h := by
  induction es generalizing m with
  | nil => cases hes
  | cons first rest ih =>
    obtain hfirst | ⟨value, m₁, hfirst, hes⟩ := halt?_bind_eq_some hes
    · exact ⟨[], first, rest, [], m, rfl, rfl, hfirst⟩
    obtain hrest | ⟨_, _, -, hes⟩ := halt?_bind_eq_some hes
    · obtain ⟨before, e, after, values, m', rfl, hbefore, he⟩ := ih hrest
      refine ⟨first :: before, e, after, value :: values, m', rfl, ?_, he⟩
      rw [evalAll, bind_of_ok hfirst, bind_of_ok hbefore]
      rfl
    · cases hes

/-- Where a block halts, one of its statements does, after those before it. -/
theorem execBlock_halts {call : Caller} {rounds : Nat} {block : Block}
    (hblock : halt? (execBlock call rounds s block m) = some h) :
    ∃ before t after m', block = before ++ t :: after ∧
      execBlock call rounds s before m = .ok () m' ∧
      halt? (exec call rounds s t m') = some h := by
  induction block generalizing m with
  | nil => cases hblock
  | cons t rest ih =>
    obtain ht | ⟨_, m₁, ht, hrest⟩ := halt?_bind_eq_some hblock
    · exact ⟨[], t, rest, m, rfl, rfl, ht⟩
    · obtain ⟨before, t', after, m', rfl, hbefore, ht'⟩ := ih hrest
      exact ⟨t :: before, t', after, m', rfl, (bind_of_ok ht).trans hbefore, ht'⟩

/-- Where a loop halts, its condition or its body does in some round, or it has had its rounds. -/
theorem repeatWhile_halts {condition : Run Word} {body : Run Unit} {rounds : Nat}
    (hm : AfterRounds condition body m₀ m)
    (hloop : halt? (repeatWhile condition body rounds m) = some h) :
    h = .outOfRounds ∨
      (∃ m₁, AfterRounds condition body m₀ m₁ ∧ halt? (condition m₁) = some h) ∨
      ∃ m₁ value m₂, AfterRounds condition body m₀ m₁ ∧ condition m₁ = .ok value m₂ ∧
        value ≠ .zero ∧ halt? (body m₂) = some h := by
  induction rounds generalizing m with
  | zero =>
    obtain hcondition | ⟨value, m₁, -, hloop⟩ := halt?_bind_eq_some hloop
    · exact .inr (.inl ⟨m, hm, hcondition⟩)
    · split at hloop <;> cases hloop
      exact .inl rfl
  | succ rounds ih =>
    obtain hcondition | ⟨value, m₁, hcondition, hloop⟩ := halt?_bind_eq_some hloop
    · exact .inr (.inl ⟨m, hm, hcondition⟩)
    split at hloop
    · cases hloop
    · obtain hbody | ⟨_, m₂, hbody, hloop⟩ := halt?_bind_eq_some hloop
      · exact .inr (.inr ⟨m, value, m₁, hm, hcondition, ‹_›, hbody⟩)
      · exact ih (.round hm hcondition ‹_› hbody) hloop

/-- A call halts as its work does, if it is allowed, its procedure is found and it can be counted.
-/
theorem halt?_invoke {p : Procedure} {console : Console}
    (hdepth : checkDepth bounds.calls line m = .ok () m)
    (hprocedure : procedure name line m = .ok p m) (hcount : m.console.enter? = some console) :
    halt? (invoke bounds (left + 1) name values line m) =
      halt? (runBody (invoke bounds left) bounds.rounds p values m.env.nextScope
        ⟨m.env.push, console, m.journal.note (.called name values line)⟩) := by
  obtain ⟨hcalls, rfl⟩ := enter?_eq_some hcount
  have hkeeps := keepsCount_compositional.invoke bounds left
  refine (halt?_bind_of_ok hdepth).trans ((halt?_bind_of_ok hprocedure).trans ?_)
  refine (halt?_bind_of_ok (note_apply (.called name values line) m)).trans ?_
  rw [inCall_apply fun _ ↦ keepsCount_compositional.runBody hkeeps bounds.rounds p values,
    if_pos hcalls, halt?_mapMachine]
  rfl

/-- A call halts in what is done for it before or after its body. -/
inductive HaltsInCall (bounds : Bounds) (h : Halt) (name : String) (values : List Word)
    (line : Nat) (m : Machine) : (left : Nat) → Prop
  /-- No call may be nested any more. -/
  | tooDeep (hh : h = .fault ⟨.callsTooDeep bounds.calls, line⟩) :
    HaltsInCall bounds h name values line m 0
  /-- The limit on calls has been reached. -/
  | depth {left : Nat} (hdepth : halt? (checkDepth bounds.calls line m) = some h) :
    HaltsInCall bounds h name values line m (left + 1)
  /-- There is no such procedure. -/
  | unknown {left : Nat} (hdepth : checkDepth bounds.calls line m = .ok () m)
    (hprocedure : halt? (procedure name line m) = some h) :
    HaltsInCall bounds h name values line m (left + 1)
  /-- The call cannot be counted. -/
  | uncounted {left : Nat} {p : Procedure} (hdepth : checkDepth bounds.calls line m = .ok () m)
    (hprocedure : procedure name line m = .ok p m) (hcount : m.console.enter? = none)
    (hh : h = .miscounted) : HaltsInCall bounds h name values line m (left + 1)
  /-- The frame cannot be declared. -/
  | frame {left : Nat} {p : Procedure} {console : Console}
    (hdepth : checkDepth bounds.calls line m = .ok () m)
    (hprocedure : procedure name line m = .ok p m) (hcount : m.console.enter? = some console)
    (hframe : halt? (declareAll m.env.nextScope (frame p values)
      ⟨m.env.push, console, m.journal.note (.called name values line)⟩) = some h) :
    HaltsInCall bounds h name values line m (left + 1)
  /-- The return slot is not found when the body is through. -/
  | slot {left : Nat} {p : Procedure} {console : Console} {m' m'' : Machine}
    (hdepth : checkDepth bounds.calls line m = .ok () m)
    (hprocedure : procedure name line m = .ok p m) (hcount : m.console.enter? = some console)
    (hframe : declareAll m.env.nextScope (frame p values)
      ⟨m.env.push, console, m.journal.note (.called name values line)⟩ = .ok () m')
    (hbody : execBlock (invoke bounds left) bounds.rounds m.env.nextScope p.body m' = .ok () m'')
    (hslot : halt? (lookup m.env.nextScope p.name p.line m'') = some h) :
    HaltsInCall bounds h name values line m (left + 1)

/-- A part halts in a step of its own, when all that it has entered has come to its end. -/
inductive HaltsItself (bounds : Bounds) (h : Halt) : Entry → Prop
  /-- A variable is looked up. -/
  | lookup {s : ScopeId} {left : Nat} {m : Machine} {name : String} {line : Nat}
    (hlookup : halt? (lookup s name line m) = some h) :
    HaltsItself bounds h ⟨.expr (.variable name line), s, left, m⟩
  /-- An operator is applied to its operands. -/
  | apply {s : ScopeId} {left : Nat} {m m' m'' : Machine} {op : Operator} {a b : Expr} {line : Nat}
    {v w : Word} (hleft : eval (invoke bounds left) s a m = .ok v m')
    (hright : eval (invoke bounds left) s b m' = .ok w m'')
    (happly : halt? (orFail (op.apply v w) line m'') = some h) :
    HaltsItself bounds h ⟨.expr (.binary op a b line), s, left, m⟩
  /-- A call is checked. -/
  | check {s : ScopeId} {left : Nat} {m : Machine} {name : String} {arguments : List Expr}
    {line : Nat} (hcheck : halt? (checkCall name arguments.length line m) = some h) :
    HaltsItself bounds h ⟨.expr (.call name arguments line), s, left, m⟩
  /-- A call is made, after its arguments. -/
  | call {s : ScopeId} {left : Nat} {m m' : Machine} {name : String} {arguments : List Expr}
    {line : Nat} {values : List Word} (hcheck : checkCall name arguments.length line m = .ok () m)
    (harguments : evalAll (invoke bounds left) s arguments m = .ok values m')
    (hcall : HaltsInCall bounds h name values line m' left) :
    HaltsItself bounds h ⟨.expr (.call name arguments line), s, left, m⟩
  /-- The value is assigned. -/
  | assign {s : ScopeId} {left : Nat} {m m' : Machine} {name : String} {e : Expr} {line : Nat}
    {value : Word} (hvalue : eval (invoke bounds left) s e m = .ok value m')
    (hassign : halt? (assign s name value m') = some h) :
    HaltsItself bounds h ⟨.statement (.assign name e line), s, left, m⟩
  /-- The value is displayed. -/
  | display {s : ScopeId} {left : Nat} {m m' : Machine} {e : Expr} {attached : Option ReadTarget}
    {line : Nat} {value : Word} (hvalue : eval (invoke bounds left) s e m = .ok value m')
    (hdisplay : halt? (display value line m') = some h) :
    HaltsItself bounds h ⟨.statement (.display e attached line), s, left, m⟩
  /-- A word is read that is asked for with a display. -/
  | readAttached {s : ScopeId} {left : Nat} {m m' m'' : Machine} {e : Expr}
    {attached : Option ReadTarget} {line : Nat} {value : Word}
    (hvalue : eval (invoke bounds left) s e m = .ok value m')
    (hdisplay : display value line m' = .ok () m'')
    (hread : halt? (readAttached s attached m'') = some h) :
    HaltsItself bounds h ⟨.statement (.display e attached line), s, left, m⟩
  /-- A word is read. -/
  | read {s : ScopeId} {left : Nat} {m : Machine} {target : ReadTarget}
    (hread : halt? (readInto s target m) = some h) :
    HaltsItself bounds h ⟨.statement (.read target), s, left, m⟩
  /-- The rounds of a loop are used up. -/
  | outOfRounds {s : ScopeId} {left : Nat} {m : Machine} {e : Expr} {body : Block} {line : Nat}
    (hloop : halt? (repeatWhile (eval (invoke bounds left) s e)
      (execBlock (invoke bounds left) bounds.rounds s body) bounds.rounds m) = some .outOfRounds)
    (hh : h = .outOfRounds) :
    HaltsItself bounds h ⟨.statement (.loop e body line), s, left, m⟩

theorem HaltsInCall.halt?_eq (hcall : HaltsInCall bounds h name values line m left) :
    halt? (invoke bounds left name values line m) = some h := by
  cases hcall with
  | tooDeep hh => exact congrArg some hh.symm
  | depth hdepth => exact halt?_bind_of_eq_some hdepth
  | unknown hdepth hprocedure =>
    exact (halt?_bind_of_ok hdepth).trans (halt?_bind_of_eq_some hprocedure)
  | uncounted hdepth hprocedure hcount hh =>
    refine (halt?_bind_of_ok hdepth).trans ((halt?_bind_of_ok hprocedure).trans ?_)
    refine (halt?_bind_of_ok (note_apply (.called name values line) m)).trans ?_
    simp only [inFreshScope, asCall, hcount, hh]
    rfl
  | frame hdepth hprocedure hcount hframe =>
    exact (halt?_invoke hdepth hprocedure hcount).trans (halt?_bind_of_eq_some hframe)
  | slot hdepth hprocedure hcount hframe hbody hslot =>
    exact (halt?_invoke hdepth hprocedure hcount).trans
      ((halt?_bind_of_ok hframe).trans ((halt?_bind_of_ok hbody).trans hslot))

/-- A part that halts in a step of its own halts. -/
theorem HaltsItself.halt?_eq (hc : HaltsItself bounds h c) : c.halt? bounds = some h := by
  cases hc with
  | lookup hlookup => exact hlookup
  | apply hleft hright happly =>
    exact (halt?_bind_of_ok hleft).trans ((halt?_bind_of_ok hright).trans happly)
  | check hcheck => exact halt?_bind_of_eq_some hcheck
  | call hcheck harguments hcall =>
    exact (halt?_bind_of_ok hcheck).trans ((halt?_bind_of_ok harguments).trans hcall.halt?_eq)
  | assign hvalue hassign => exact (halt?_bind_of_ok hvalue).trans hassign
  | display hvalue hdisplay =>
    exact (halt?_bind_of_ok hvalue).trans (halt?_bind_of_eq_some hdisplay)
  | readAttached hvalue hdisplay hread =>
    exact (halt?_bind_of_ok hvalue).trans ((halt?_bind_of_ok hdisplay).trans hread)
  | read hread => exact hread
  | outOfRounds hloop hh => exact hh ▸ hloop

/-- A call that halts when its arguments have their values halts in what is done around its body, or
enters the body, which halts. -/
theorem invoke_halts {arguments : List Expr}
    (hcheck : checkCall name arguments.length line m = .ok () m)
    (harguments : evalAll (invoke bounds left) s arguments m = .ok values m')
    (hcall : halt? (invoke bounds left name values line m') = some h) :
    HaltsInCall bounds h name values line m' left ∨
      ∃ c', Enters bounds ⟨.expr (.call name arguments line), s, left, m⟩ c' ∧
        c'.halt? bounds = some h := by
  cases left with
  | zero =>
    cases hcall
    exact .inl (.tooDeep rfl)
  | succ left =>
    have hsteps := hcall
    obtain hdepth | ⟨_, m₁, hdepth, hsteps⟩ := halt?_bind_eq_some hsteps
    · exact .inl (.depth hdepth)
    cases eq_of_checkDepth hdepth
    obtain hp | ⟨p, m₂, hp, hsteps⟩ := halt?_bind_eq_some hsteps
    · exact .inl (.unknown hdepth hp)
    cases (procedure_eq_ok hp).2
    cases hcount : m'.console.enter? with
    | none =>
      rw [bind_of_ok (note_apply (.called name values line) m')] at hsteps
      simp only [inFreshScope, asCall, hcount] at hsteps
      cases hsteps
      exact .inl (.uncounted hdepth hp hcount rfl)
    | some console =>
      rw [halt?_invoke hdepth hp hcount] at hcall
      obtain hframe | ⟨_, m₃, hframe, hcall⟩ := halt?_bind_eq_some hcall
      · exact .inl (.frame hdepth hp hcount hframe)
      obtain hbody | ⟨_, m₄, hbody, hslot⟩ := halt?_bind_eq_some hcall
      · exact .inr ⟨_, .body hcheck harguments hdepth hp hcount hframe, hbody⟩
      · exact .inl (.slot hdepth hp hcount hframe hbody hslot)

/-- An expression that halts, by its own rule of evaluation. -/
theorem eval_halts (e : Expr) (hhalt : Entry.halt? bounds ⟨.expr e, s, left, m⟩ = some h) :
    HaltsItself bounds h ⟨.expr e, s, left, m⟩ ∨
      ∃ c', Enters bounds ⟨.expr e, s, left, m⟩ c' ∧ c'.halt? bounds = some h := by
  match e, hhalt with
  | .number value, hhalt => cases hhalt
  | .variable name line, hhalt => exact .inl (.lookup hhalt)
  | .binary op a b line, hhalt =>
    obtain ha | ⟨v, m₁, ha, hhalt⟩ := halt?_bind_eq_some hhalt
    · exact .inr ⟨_, .leftOperand, ha⟩
    obtain hb | ⟨w, m₂, hb, happly⟩ := halt?_bind_eq_some hhalt
    · exact .inr ⟨_, .rightOperand ha, hb⟩
    · exact .inl (.apply ha hb happly)
  | .call name arguments line, hhalt =>
    obtain hcheck | ⟨_, m₁, hcheck, hhalt⟩ := halt?_bind_eq_some hhalt
    · exact .inl (.check hcheck)
    cases (checkCall_eq_ok hcheck).2
    obtain harguments | ⟨values, m', harguments, hcall⟩ := halt?_bind_eq_some hhalt
    · obtain ⟨before, e, after, values, m', rfl, hbefore, he⟩ := evalAll_halts harguments
      exact .inr ⟨_, .argument hcheck hbefore, he⟩
    · exact (invoke_halts hcheck harguments hcall).imp_left (.call hcheck harguments)

/-- A statement that halts, by its own rule of execution. For the statements inside there are
entries, so that no induction is needed. -/
theorem exec_halts (t : Statement)
    (hhalt : Entry.halt? bounds ⟨.statement t, s, left, m⟩ = some h) :
    HaltsItself bounds h ⟨.statement t, s, left, m⟩ ∨
      ∃ c', Enters bounds ⟨.statement t, s, left, m⟩ c' ∧ c'.halt? bounds = some h := by
  cases t with
  | assign name e line =>
    obtain he | ⟨v, m₁, he, hassign⟩ := halt?_bind_eq_some hhalt
    · exact .inr ⟨_, .assigned, he⟩
    · exact .inl (.assign he hassign)
  | display e attached line =>
    obtain he | ⟨v, m₁, he, hhalt⟩ := halt?_bind_eq_some hhalt
    · exact .inr ⟨_, .displayed, he⟩
    obtain hdisplay | ⟨_, m₂, hdisplay, hread⟩ := halt?_bind_eq_some hhalt
    · exact .inl (.display he hdisplay)
    · exact .inl (.readAttached he hdisplay hread)
  | read target => exact .inl (.read hhalt)
  | branch e thenBlock elseBlock line =>
    right
    obtain he | ⟨v, m₁, he, hhalt⟩ := halt?_bind_eq_some hhalt
    · exact ⟨_, .branchCondition, he⟩
    split at hhalt
    · rename_i hzero
      cases elseBlock with
      | none => cases hhalt
      | some block => exact ⟨_, .elseBlock (hzero ▸ he), hhalt⟩
    · exact ⟨_, .thenBlock he ‹_›, hhalt⟩
  | loop e body line =>
    obtain rfl | ⟨m₁, hm₁, he⟩ | ⟨m₁, v, m₂, hm₁, he, hv, hbody⟩ := repeatWhile_halts .start hhalt
    · exact .inl (.outOfRounds hhalt rfl)
    · exact .inr ⟨_, .loopCondition hm₁, he⟩
    · exact .inr ⟨_, .loopBody hm₁ he hv, hbody⟩

/-- **What is run is entered:** a part that halts does so in a step of its own, or a part that it
enters halts so. -/
theorem halts_or_enters (hhalt : c.halt? bounds = some h) :
    HaltsItself bounds h c ∨ ∃ c', Enters bounds c c' ∧ c'.halt? bounds = some h := by
  obtain ⟨e | t | block, s, left, m⟩ := c
  · exact eval_halts e hhalt
  · exact exec_halts t hhalt
  · obtain ⟨before, t, after, m', rfl, hbefore, ht⟩ := execBlock_halts hhalt
    exact .inr ⟨_, .statement hbefore, ht⟩

/-- An entry is made on the way down: fewer calls may be nested, or the part is smaller. -/
theorem Enters.descends (h : Enters bounds c c') :
    Prod.Lex (· < ·) (· < ·) (c'.left, sizeOf c'.part) (c.left, sizeOf c.part) := by
  cases h with
  | body => exact .left _ _ (Nat.lt_succ_self _)
  | @argument _ _ _ _ _ before after e =>
    have hlt := List.sizeOf_lt_of_mem (show e ∈ before ++ e :: after by simp)
    refine .right _ ?_
    simp only [Part.expr.sizeOf_spec, Expr.call.sizeOf_spec]
    omega
  | @statement _ _ _ _ before after t =>
    have hlt := List.sizeOf_lt_of_mem (show t ∈ before ++ t :: after by simp)
    refine .right _ ?_
    simp only [Part.statement.sizeOf_spec, Part.block.sizeOf_spec]
    omega
  | _ =>
    refine .right _ ?_
    simp only [Part.expr.sizeOf_spec, Part.statement.sizeOf_spec, Part.block.sizeOf_spec,
      Expr.binary.sizeOf_spec, Statement.assign.sizeOf_spec, Statement.display.sizeOf_spec,
      Statement.branch.sizeOf_spec, Statement.loop.sizeOf_spec, Option.some.sizeOf_spec]
    omega

/-- Parts are entered from parts only so far. -/
theorem enters_wellFounded (bounds : Bounds) : WellFounded fun c' c ↦ Enters bounds c c' :=
  Subrelation.wf Enters.descends (InvImage.wf _ (Prod.lex Nat.lt_wfRel Nat.lt_wfRel).wf)

/-- Where a part halts, some part that has been entered on the way halts in a step of its own. -/
theorem exists_haltsItself (hhalt : c.halt? bounds = some h) :
    ∃ c', Relation.ReflTransGen (Enters bounds) c c' ∧ HaltsItself bounds h c' := by
  induction c using (enters_wellFounded bounds).induction with
  | _ c ih =>
    obtain hitself | ⟨c₁, hstep, hhalt₁⟩ := halts_or_enters hhalt
    · exact ⟨c, .refl, hitself⟩
    · obtain ⟨c', hreached, hitself⟩ := ih c₁ hstep hhalt₁
      exact ⟨c', .head hstep hreached, hitself⟩

/-- **The entries of a program are all that it runs.** A program with rounds enough halts for a
reason if and only if its registration does or a part that it enters halts for this reason in a step
of its own. -/
theorem halt?_runProgram_iff {p : Program}
    (hrounds : halt? (runProgram bounds p m) ≠ some .outOfRounds) :
    halt? (runProgram bounds p m) = some h ↔
      halt? (registerAll p.procedures m) = some h ∨
        ∃ c, IsEntered bounds p m c ∧ HaltsItself bounds h c := by
  constructor
  · intro hhalt
    obtain hregister | ⟨_, m', hregister, hhalt⟩ := halt?_bind_eq_some hhalt
    · exact .inl hregister
    · obtain ⟨c, hreached, hitself⟩ := @exists_haltsItself bounds
        ⟨.block p.statements, .root, bounds.calls, m'⟩ h hhalt
      exact .inr ⟨c, ⟨m', hregister, hreached⟩, hitself⟩
  · rintro (hregister | ⟨c, ⟨m', hregister, hreached⟩, hitself⟩)
    · exact halt?_bind_of_eq_some hregister
    · have hstatements : halt? (runProgram bounds p m) =
          Entry.halt? bounds ⟨.block p.statements, .root, bounds.calls, m'⟩ :=
        halt?_bind_of_ok hregister
      rw [hstatements] at hrounds ⊢
      exact (halts_of_reached hreached hitself.halt?_eq).resolve_right hrounds

end Adequacy

end Run

/-! ### Levels -/

/-- The scope is the newest one, and its address counts the active calls, which are as many as may
be at most. -/
structure Machine.AtLevel (calls : Nat) (m : Machine) (s : ScopeId) : Prop where
  /-- There are two levels of scopes. -/
  isTwoLevel : m.env.IsTwoLevel
  /-- The address of the scope is the count of active calls. -/
  index_eq : s.index = m.console.activeCalls
  /-- There is one scope for each active call, and the globals. -/
  depth_eq : m.env.depth = m.console.activeCalls + 1
  /-- The limit is kept. -/
  le_calls : m.console.activeCalls ≤ calls

namespace Machine.AtLevel

variable {calls : Nat} {s : ScopeId} {w : Option ScopeId} {m m' : Machine}

theorem ready (h : m.AtLevel calls s) : m.Ready s where
  isTwoLevel := h.isTwoLevel
  isLive := by
    rw [Environment.IsLive, h.index_eq, h.depth_eq]
    exact Nat.lt_succ_self _

theorem of_frame (h : m.AtLevel calls s) (hframe : m.Frame w m') : m'.AtLevel calls s where
  isTwoLevel := hframe.isTwoLevel h.isTwoLevel
  index_eq := h.index_eq.trans hframe.activeCalls.symm
  depth_eq := by rw [hframe.depth, hframe.activeCalls, h.depth_eq]
  le_calls := by
    rw [hframe.activeCalls]
    exact h.le_calls

/-- A call that the limit allows is one level up in all respects. -/
theorem push (h : m.AtLevel calls s) (hcalls : m.console.activeCalls < calls) {console : Console}
    (hcount : m.console.enter? = some console) (journal : Journal) :
    Machine.AtLevel calls ⟨m.env.push, console, journal⟩ m.env.nextScope := by
  have hconsole : console.activeCalls = m.console.activeCalls + 1 := by
    rw [Console.enter?] at hcount
    split at hcount
    · cases hcount
      rfl
    · cases hcount
  refine ⟨h.isTwoLevel.push, h.depth_eq.trans hconsole.symm, ?_, ?_⟩
  · show m.env.push.depth = console.activeCalls + 1
    rw [Environment.depth_push, h.depth_eq, hconsole]
  · show console.activeCalls ≤ calls
    rw [hconsole]
    exact hcalls

end Machine.AtLevel

namespace Run

variable {α : Type} {bounds : Bounds} {s : ScopeId} {w : Option ScopeId} {m m' : Machine}
  {c c' : Entry}

/-- A part that comes to a result has kept the frame. -/
theorem Keeps.frame {x : Run α} {a : α} (hx : Keeps s w x) (hm : m.Ready s)
    (h : x m = .ok a m') : m.Frame w m' := by
  have hkept := hx m hm
  rw [h] at hkept
  exact hkept

/-- Rounds of a loop keep the frame together. -/
theorem AfterRounds.frame {condition : Run Word} {body : Run Unit}
    (hcondition : Keeps s w condition) (hbody : Keeps s w body) (hm : m.Ready s)
    (h : AfterRounds condition body m m') : m.Frame w m' := by
  induction h with
  | start => exact .refl m
  | round _ hvalue _ hround ih =>
    have hafter := ih.trans (hcondition.frame (ih.ready hm) hvalue)
    exact hafter.trans (hbody.frame (hafter.ready hm) hround)

/-- What an entry finds that is made from another one. The parts of a tree are entered in the same
scope, and whatever is run before them respects the frame. The body of a procedure is entered in the
scope that is pushed next, after a run that binds no new name in any scope. -/
theorem Enters.frame_or_call (hbounds : bounds.calls ≤ Console.maxCalls) (h : Enters bounds c c')
    (hc : c.machine.Ready c.scope) :
    (c'.scope = c.scope ∧ c.machine.Frame (some c.scope) c'.machine) ∨
      ∃ m console journal, c.machine.Frame none m ∧ m.console.activeCalls < bounds.calls ∧
        m.console.enter? = some console ∧ c'.scope = m.env.nextScope ∧
        Machine.Frame (some m.env.nextScope) ⟨m.env.push, console, journal⟩ c'.machine := by
  have hcall : ∀ left, CallKeeps (invoke bounds left) := invoke_keeps hbounds
  cases h with
  | leftOperand | assigned | displayed | branchCondition => exact .inl ⟨rfl, .refl _⟩
  | rightOperand hleft => exact .inl ⟨rfl, ((eval_keeps (hcall _) _).frame hc hleft).weaken⟩
  | argument _ hbefore => exact .inl ⟨rfl, ((evalAll_keeps (hcall _) _).frame hc hbefore).weaken⟩
  | thenBlock hcondition _ | elseBlock hcondition =>
    exact .inl ⟨rfl, ((eval_keeps (hcall _) _).frame hc hcondition).weaken⟩
  | loopCondition hrounds =>
    exact .inl ⟨rfl, hrounds.frame (eval_keeps (hcall _) _).weaken
      (execBlock_keeps (hcall _) _ _) hc⟩
  | loopBody hrounds hcondition _ =>
    have hround := hrounds.frame (eval_keeps (hcall _) _).weaken
      (execBlock_keeps (hcall _) _ _) hc
    exact .inl ⟨rfl, hround.trans
      ((eval_keeps (hcall _) _).frame (hround.ready hc) hcondition).weaken⟩
  | statement hbefore => exact .inl ⟨rfl, (execBlock_keeps (hcall _) _ _).frame hc hbefore⟩
  | body _ harguments hdepth _ hcount hframe =>
    have hcaller := (evalAll_keeps (hcall _) _).frame hc harguments
    have hready := ready_push (hcaller.ready hc).isTwoLevel
    have hdeclared := (declareAll_keeps _).frame (hready _ _) hframe
    exact .inr ⟨_, _, _, hcaller, lt_of_checkDepth hdepth, hcount, rfl, hdeclared⟩

/-- **One step:** an entry that is made from an entry on its level is on its own. -/
theorem Enters.atLevel (hbounds : bounds.calls ≤ Console.maxCalls) (h : Enters bounds c c')
    (hc : c.machine.AtLevel bounds.calls c.scope) :
    c'.machine.AtLevel bounds.calls c'.scope := by
  obtain ⟨hscope, hframe⟩ | ⟨m, console, journal, hcaller, hcalls, hcount, hscope, hframe⟩ :=
    h.frame_or_call hbounds hc.ready
  · rw [hscope]
    exact hc.of_frame hframe
  · -- the arguments are evaluated on the level of the caller, the frame is declared one level up
    rw [hscope]
    exact ((hc.of_frame hcaller).push hcalls hcount journal).of_frame hframe

/-- **All entries of a run are on their level.** -/
theorem IsEntered.atLevel (hbounds : bounds.calls ≤ Console.maxCalls) {p : Program}
    (henv : m.env.Reachable) (hdepth : m.env.depth = 1) (hidle : m.console.activeCalls = 0)
    (h : IsEntered bounds p m c) : c.machine.AtLevel bounds.calls c.scope := by
  obtain ⟨m', hregistered, hentered⟩ := h
  obtain hok | ⟨_, _, herror⟩ := registerAll_cases p.procedures m
  · cases hregistered.symm.trans hok
    induction hentered with
    | refl =>
      have hready := ready_withRegistered henv.isTwoLevel p.procedures
      refine ⟨hready.isTwoLevel, hidle.symm, ?_, ?_⟩
      · exact hdepth.trans (congrArg (· + 1) hidle.symm)
      · exact hidle ▸ Nat.zero_le _
    | tail _ hstep ih => exact hstep.atLevel hbounds ih
  · cases hregistered.symm.trans herror

theorem Kept.isClean {r : EStateM.Result Halt Machine α} (h : Kept w m r) :
    ∀ e ∈ halt? r, e.IsClean := by
  cases r with
  | ok _ _ => simp [halt?]
  | error e _ => simpa [halt?] using h.1

/-- A program neither uses the address of a dead scope nor loses count of its calls. -/
theorem runProgram_isClean (hbounds : bounds.calls ≤ Console.maxCalls) (p : Program)
    (henv : m.env.Reachable) : ∀ e ∈ halt? (runProgram bounds p m), e.IsClean := by
  obtain hstatements | ⟨f, m', hfault⟩ := runProgram_cases bounds p m
  · rw [hstatements]
    exact (execBlock_keeps (call_keeps hbounds) bounds.rounds p.statements _
      (ready_withRegistered henv.isTwoLevel p.procedures)).isClean
  · rw [hfault]
    simp [halt?, Halt.IsClean]

/-- **The scope of a run is the newest one.** While a program runs that was started with the globals
as the only scope and with no call active, every expression, statement and block is entered with a
scope whose address is the count of active calls; there is one scope for each of these and one more;
and there are no more calls than may be. The count never leaves its range, not even if as many calls
may be nested as it can be. -/
theorem scope_is_newest {bounds : Bounds} (hbounds : bounds.calls ≤ Console.maxCalls) (p : Program)
    {m : Machine} (henv : m.env.Reachable) (hdepth : m.env.depth = 1)
    (hidle : m.console.activeCalls = 0) :
    (∀ c, IsEntered bounds p m c →
      c.scope.index = c.machine.console.activeCalls ∧
      c.machine.env.depth = c.machine.console.activeCalls + 1 ∧
      c.machine.console.activeCalls ≤ bounds.calls ∧ c.machine.env.depth ≤ bounds.calls + 1) ∧
    halt? (runProgram bounds p m) ≠ some .miscounted := by
  constructor
  · intro c hc
    have hlevel := hc.atLevel hbounds henv hdepth hidle
    refine ⟨hlevel.index_eq, hlevel.depth_eq, hlevel.le_calls, ?_⟩
    rw [hlevel.depth_eq]
    exact Nat.succ_le_succ hlevel.le_calls
  · intro h
    exact runProgram_isClean hbounds p henv .miscounted h

/-- A procedure that calls itself without end, with as many calls allowed as can be counted: inside
its second call the scope is the third. -/
theorem scope_is_newest_recursion :
    let f : Procedure := ⟨"f", [], [], [.assign "f" (.call "f" [] 2) 2], 1⟩
    let p : Program := ⟨[f], [.assign "x" (.call "f" [] 4) 4]⟩
    let m : Machine := ⟨.empty, Console.start [] .reliable, .silent⟩
    let bounds : Bounds := ⟨Console.maxCalls, 0⟩
    m.env.Reachable ∧ m.env.depth = 1 ∧ m.console.activeCalls = 0 ∧
      (∃ c, IsEntered bounds p m c ∧ c.part = .block f.body ∧ c.machine.console.activeCalls = 2 ∧
        c.scope.index = 2 ∧ c.machine.env.depth = 3) ∧
      halt? (runProgram bounds p m) ≠ some .miscounted := by
  intro f p m bounds
  have henv : m.env.Reachable := .empty
  have hfirst : ∀ (t : Statement) s left m,
      Enters bounds ⟨.block [t], s, left, m⟩ ⟨.statement t, s, left, m⟩ :=
    fun t s left m ↦ @Enters.statement bounds s left m m [] [] t rfl
  have hentered : ∃ c, IsEntered bounds p m c ∧ c.part = .block f.body ∧
      c.machine.console.activeCalls = 2 :=
    ⟨_, ⟨_, rfl, .head (hfirst _ _ _ _) (.head .assigned (.head (.body rfl rfl rfl rfl rfl rfl)
      (.head (hfirst _ _ _ _) (.head .assigned (.single (.body rfl rfl rfl rfl rfl rfl))))))⟩,
      rfl, rfl⟩
  obtain ⟨hlevels, hcount⟩ := scope_is_newest (Nat.le_refl bounds.calls) p henv rfl rfl
  obtain ⟨c, hc, hpart, hcalls⟩ := hentered
  obtain ⟨hindex, hdepth, -, -⟩ := hlevels c hc
  rw [hcalls] at hindex hdepth
  exact ⟨henv, rfl, rfl, ⟨c, hc, hpart, hcalls, hindex, hdepth⟩, hcount⟩

end Run

end TinyProc
