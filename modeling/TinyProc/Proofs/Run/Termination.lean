import TinyProc.Proofs.Run.CallLimit

/-!
# Only loops can go on for ever

A program without loops comes to an end, however its procedures call themselves and each other: with
the limit on calls it makes only so many of them inside one another, and between two calls it goes
down a syntax tree. In terms of the bounds on a run, it needs no rounds, and it needs no more calls
than the limit allows.

That no rounds are needed is `Run.invoke_settles`, by induction on the number of calls that may
still be nested and, within it, on the syntax. It takes for granted what runs leave alone: the
procedures found by a call are those that were there in the beginning. That the number of calls
makes no difference from the limit on is an instance of the comparison of two runs within wider
bounds, both of them with the same limit.
-/

namespace TinyProc

/-! ### Syntax without loops -/

mutual

/-- Whether there is no loop in a statement. -/
def Statement.isLoopFree : Statement → Bool
  | .assign .. | .display .. | .read _ => true
  | .branch _ thenBlock elseBlock _ =>
    Statement.allLoopFree thenBlock && Statement.elseLoopFree elseBlock
  | .loop .. => false

/-- Whether there is no loop in a block. -/
def Statement.allLoopFree : List Statement → Bool
  | [] => true
  | t :: rest => t.isLoopFree && Statement.allLoopFree rest

/-- Whether there is no loop in a block that may be missing. -/
def Statement.elseLoopFree : Option (List Statement) → Bool
  | none => true
  | some block => Statement.allLoopFree block

end

/-- There is no loop in the body of a procedure. -/
def Procedure.IsLoopFree (p : Procedure) : Prop :=
  Statement.allLoopFree p.body = true

instance (p : Procedure) : Decidable p.IsLoopFree :=
  inferInstanceAs (Decidable (_ = true))

/-- There is no loop in a program, neither among its statements nor in a procedure. -/
structure Program.IsLoopFree (p : Program) : Prop where
  /-- There is none in a procedure. -/
  procedures : ∀ d ∈ p.procedures, d.IsLoopFree
  /-- There is none among the statements. -/
  statements : Statement.allLoopFree p.statements = true

/-- No procedure of an environment has a loop in its body. -/
def Environment.IsLoopFree (env : Environment) : Prop :=
  ∀ d ∈ env.procedures, d.IsLoopFree

instance (env : Environment) : Decidable env.IsLoopFree :=
  inferInstanceAs (Decidable (∀ d ∈ env.procedures, d.IsLoopFree))

namespace Run

variable {α β : Type} {m : Machine} {s : ScopeId} {w : Option ScopeId}

/-! ### Runs that need no rounds -/

theorem halt?_ok_ne {a : α} {h : Halt} : halt? (.ok a m) ≠ some h :=
  (Option.some_ne_none h).symm

theorem halt?_fault_ne {f : Fault} :
    halt? (.error (.fault f) m : EStateM.Result Halt Machine α) ≠ some .outOfRounds := by
  simp [halt?]

/-- The run does not use up its rounds where no procedure has a loop. -/
def Settles (s : ScopeId) (x : Run α) : Prop :=
  ∀ m : Machine, m.Ready s → m.env.IsLoopFree → halt? (x m) ≠ some .outOfRounds

theorem Settles.pure (a : α) : Settles s (pure a : Run α) :=
  fun _ _ _ ↦ halt?_ok_ne

/-- Faults are not for lack of rounds. -/
theorem fail_settles (cause : FaultCause) (line : Nat) : Settles s (fail cause line : Run α) :=
  fun _ _ _ ↦ halt?_fault_ne

/-- The second step finds the procedures that the first has found. -/
theorem Settles.bind {x : Run α} {f : α → Run β} (hx : Settles s x) (hkeeps : Keeps s w x)
    (hf : ∀ a, Settles s (f a)) : Settles s (x >>= f) := by
  intro m hm hfree
  have hsettled := hx m hm hfree
  have hkept := hkeeps m hm
  cases h : x m with
  | ok a m' =>
    rw [h] at hkept
    rw [bind_of_ok h]
    have hfree' : m'.env.IsLoopFree := by
      rw [Environment.IsLoopFree, hkept.procedures]
      exact hfree
    exact hf a m' (hkept.ready hm) hfree'
  | error e m' =>
    rw [h] at hsettled
    rw [bind_of_error h]
    exact hsettled

theorem Settles.ite {p : Prop} [Decidable p] {x y : Run α} (hx : Settles s x) (hy : Settles s y) :
    Settles s (if p then x else y) := by
  split
  · exact hx
  · exact hy

/-! ### Single steps -/

theorem orFail_settles (result : Except FaultCause α) (line : Nat) :
    Settles s (orFail result line) := by
  cases result with
  | ok a => exact .pure a
  | error cause => exact fail_settles cause line

/-- A lookup ends, with a value or a fault. -/
theorem lookup_settles (name : String) (line : Nat) : Settles s (lookup s name line) := by
  intro m hm _
  rw [lookup, liveEnv_bind_apply hm]
  cases m.env.get? s name with
  | some value => exact halt?_ok_ne
  | none => exact halt?_fault_ne

/-- An assignment ends. -/
theorem assign_settles (name : String) (value : Word) : Settles s (assign s name value) := by
  intro m hm _
  rw [assign_apply hm]
  exact halt?_ok_ne

/-- There are only so many names to declare. -/
theorem declareAll_settles (entries : List (String × Word)) :
    Settles s (declareAll s entries) := by
  induction entries with
  | nil => exact .pure ()
  | cons entry rest ih =>
    have hdeclare : Settles s (declare s entry.1 entry.2) := by
      intro m hm _
      rw [declare, liveEnv_bind_apply hm]
      exact halt?_ok_ne
    exact hdeclare.bind (declare_keeps entry.1 entry.2) fun _ ↦ ih

/-- A display ends, also if the sink has failed. -/
theorem display_settles (value : Word) (line : Nat) : Settles s (display value line) := by
  intro m _ _
  rw [display_apply]
  cases (m.console.display value).1 with
  | none => exact halt?_ok_ne
  | some failure => exact halt?_fault_ne

/-- A read takes what there is: it does not wait. -/
theorem readWord_settles (target : ReadTarget) : Settles s (readWord target) := by
  intro m _ _
  show halt? (orFail (m.console.read target.name).1 target.line
    { m with console := (m.console.read target.name).2 }) ≠ _
  cases (m.console.read target.name).1 with
  | ok value => exact halt?_ok_ne
  | error cause => exact halt?_fault_ne

/-- A line that is read is assigned. -/
theorem readInto_settles (target : ReadTarget) : Settles s (readInto s target) := by
  have hnote : ∀ e, Settles s (note e) := fun _ _ _ _ ↦ halt?_ok_ne
  exact (readWord_settles target).bind (readWord_keeps (w := none) target) fun _ ↦
    (hnote _).bind (note_keeps (w := none) _) fun _ ↦ assign_settles target.name _

/-- A display may have a read behind it, or not. -/
theorem readAttached_settles (attached : Option ReadTarget) :
    Settles s (readAttached s attached) := by
  cases attached with
  | none => exact .pure ()
  | some target => exact readInto_settles target

/-- The check of a call ends, with or without a fault. -/
theorem checkCall_settles (name : String) (arguments line : Nat) :
    Settles s (checkCall name arguments line) := by
  have hprocedure : Settles s (procedure name line) := by
    intro m _ _
    rw [procedure_apply]
    cases m.env.procedure? name with
    | some p => exact halt?_ok_ne
    | none => exact halt?_fault_ne
  exact hprocedure.bind (procedure_keeps (w := none) name line) fun _ ↦
    .ite (.pure ()) (fail_settles _ line)

/-! ### Expressions and statements -/

/-- A way to carry out calls that leaves alone what a call has to leave alone and needs no rounds.
-/
structure CallSettles (call : Caller) : Prop where
  /-- It leaves no trace in the scopes. -/
  keeps : CallKeeps call
  /-- It needs no rounds. -/
  settles : ∀ (s : ScopeId) (name : String) (values : List Word) (line : Nat),
    Settles s (call name values line)

section Syntax

variable {call : Caller}

/-- What is settled by one step is settled by the next as long as the procedures are the same, so
that the two properties go together. -/
theorem settles_evalCongruence (s : ScopeId) :
    EvalCongruence Eq s fun _ _ x ↦ Keeps s none x ∧ Settles s x where
  pure a := ⟨.pure a, .pure a⟩
  bind hx hf := ⟨.bind hx.1 fun a ↦ (hf a).1, hx.2.bind hx.1 fun a ↦ (hf a).2⟩
  apply _ _ _ _ line _ := ⟨orFail_keeps _ line, orFail_settles _ line⟩
  lookup name _ line _ := ⟨lookup_keeps name line, lookup_settles name line⟩
  checkCall name arguments _ line _ :=
    ⟨checkCall_keeps name arguments line, checkCall_settles name arguments line⟩

/-- An expression needs no rounds if the calls in it need none. -/
theorem eval_settles (hcall : CallSettles call) (e : Expr) : Settles s (eval call s e) :=
  have hcalls : CallersRelated Eq (fun _ _ x ↦ Keeps s none x ∧ Settles s x) call call :=
    callersRelated_eq fun name values line ↦
      ⟨hcall.keeps s name values line, hcall.settles s name values line⟩
  ((settles_evalCongruence s).eval hcalls e (.refl e)).2

mutual

/-- A statement without loops ends, if the calls in it do. There is no case for loops, which are
excluded here. -/
theorem exec_settles (hcall : CallSettles call) (rounds : Nat) :
    (t : Statement) → t.isLoopFree = true → Settles s (exec call rounds s t)
  | .assign name value _, _ =>
    (eval_settles hcall value).bind (eval_keeps hcall.keeps value) fun v ↦ assign_settles name v
  | .display value attached line, _ =>
    (eval_settles hcall value).bind (eval_keeps hcall.keeps value) fun v ↦
      (display_settles v line).bind (display_keeps (w := none) v line) fun _ ↦
        readAttached_settles attached
  | .read target, _ => readInto_settles target
  | .branch condition thenBlock elseBlock _, h => by
    obtain ⟨hthen, helse⟩ := Bool.and_eq_true_iff.1 h
    exact (eval_settles hcall condition).bind (eval_keeps hcall.keeps condition) fun _ ↦
      .ite (execElse_settles hcall rounds elseBlock helse)
        (execBlock_settles hcall rounds thenBlock hthen)

/-- The statements of a block, one after the other. -/
theorem execBlock_settles (hcall : CallSettles call) (rounds : Nat) :
    (block : List Statement) → Statement.allLoopFree block = true →
      Settles s (execBlock call rounds s block)
  | [], _ => .pure ()
  | t :: rest, h => by
    obtain ⟨ht, hrest⟩ := Bool.and_eq_true_iff.1 h
    exact (exec_settles hcall rounds t ht).bind (exec_keeps hcall.keeps rounds t) fun _ ↦
      execBlock_settles hcall rounds rest hrest

/-- A second block that may be missing. -/
theorem execElse_settles (hcall : CallSettles call) (rounds : Nat) :
    (block? : Option (List Statement)) → Statement.elseLoopFree block? = true →
      Settles s (execElse call rounds s block?)
  | none, _ => .pure ()
  | some block, h => execBlock_settles hcall rounds block h

end

/-- The body of a procedure that has no loops. -/
theorem runBody_settles (hcall : CallSettles call) (rounds : Nat) {p : Procedure}
    (hp : p.IsLoopFree) (values : List Word) : Settles s (runBody call rounds p values s) :=
  (declareAll_settles _).bind (declareAll_keeps _) fun _ ↦
    (execBlock_settles hcall rounds p.body hp).bind (execBlock_keeps hcall.keeps rounds p.body)
      fun _ ↦ lookup_settles p.name p.line

end Syntax

/-! ### Calls -/

/-- The work of a call ends on the machine that it is started on, which is again one with two levels
and with procedures that have no loops. -/
theorem inFreshScope_asCall_settles {work : ScopeId → Run α} (hm : m.env.IsTwoLevel)
    (hfree : m.env.IsLoopFree) (hcalls : m.console.activeCalls < Console.maxCalls)
    (hkeeps : ∀ t, Keeps t (some t) (work t)) (hwork : ∀ t, Settles t (work t)) :
    halt? (inFreshScope (fun t ↦ asCall (work t)) m) ≠ some .outOfRounds := by
  have hready := enterCall_ready hm
  have hkept := hkeeps _ _ hready
  have hsettled := hwork _ m.enterCall hready hfree
  rw [inFreshScope_asCall_apply hcalls]
  cases h : work m.env.nextScope m.enterCall with
  | ok a m₂ =>
    rw [h] at hkept
    rw [release_uncount_ok (activeCalls_pos hkept)]
    exact halt?_ok_ne
  | error e m₂ =>
    rw [h] at hkept hsettled
    rw [release_uncount_error (activeCalls_pos hkept.2)]
    exact hsettled

/-- **Calls need no rounds** where no procedure has a loop. -/
theorem invoke_settles {bounds : Bounds} (hbounds : bounds.calls ≤ Console.maxCalls) (left : Nat) :
    CallSettles (invoke bounds left) := by
  refine ⟨invoke_keeps hbounds left, ?_⟩
  induction left with
  | zero => exact fun s name values line ↦ fail_settles _ line
  | succ left ih =>
    intro s name values line m hm hfree
    rw [invoke_succ_apply]
    split
    · rename_i hcalls
      cases hfound : m.env.procedure? name with
      | none => exact halt?_fault_ne
      | some p =>
        -- the body is no part of the tree that calls it, but it is among the procedures
        have hp : p.IsLoopFree := hfree p (List.mem_of_find?_eq_some hfound)
        have hcall : CallSettles (invoke bounds left) := ⟨invoke_keeps hbounds left, ih⟩
        exact inFreshScope_asCall_settles hm.isTwoLevel hfree (Nat.lt_of_lt_of_le hcalls hbounds)
          (fun _ ↦ runBody_keeps hcall.keeps bounds.rounds p values)
          (fun _ ↦ runBody_settles hcall bounds.rounds hp values)
    · exact halt?_fault_ne

/-! ### Programs -/

/-- Runs a program where so many calls may still be nested, whatever the limit on calls. -/
def runNesting (bounds : Bounds) (left : Nat) (p : Program) : Run Unit := do
  registerAll p.procedures
  execBlock (invoke bounds left) bounds.rounds .root p.statements

theorem runProgram_eq_runNesting (bounds : Bounds) (p : Program) :
    runProgram bounds p = runNesting bounds bounds.calls p := rfl

/-- Two runs with room for as many calls as their limits allow. How much more room there is makes no
difference. -/
theorem runNesting_outruns {b b' : Bounds} {n left left' : Nat} (hb : b.Within b')
    (hleft : b.calls ≤ n + left) (hleft' : b'.calls ≤ n + left') (p : Program) :
    Outruns b b' n (runNesting b left p) (runNesting b' left' p) :=
  .bind (registerAll_outruns p.procedures) fun _ ↦
    execBlock_outruns (invoke_outruns hb hleft hleft') hb.rounds p.statements

/-- A run has come to its end, or has stopped with a fault of the program. -/
def IsEnd (r : EStateM.Result Halt Machine α) : Prop :=
  (∃ a m, r = .ok a m) ∨ ∃ f m, r = .error (.fault f) m

/-- What has not run out of rounds has come to a proper end, since the frame excludes the other
halts. -/
theorem isEnd_of_kept {r : EStateM.Result Halt Machine α} (h : Kept w m r)
    (hrounds : halt? r ≠ some .outOfRounds) : IsEnd r := by
  cases r with
  | ok a m' => exact .inl ⟨a, m', rfl⟩
  | error e m' =>
    cases e with
    | fault f => exact .inr ⟨f, m', rfl⟩
    | outOfRounds => exact absurd rfl hrounds
    | staleScope => exact h.1.elim
    | miscounted => exact h.1.elim

/-- A program without loops ends within any bounds. -/
theorem runProgram_isEnd {bounds : Bounds} (hbounds : bounds.calls ≤ Console.maxCalls)
    {p : Program} (hp : p.IsLoopFree) (henv : m.env.Reachable) (hfree : m.env.IsLoopFree) :
    IsEnd (runProgram bounds p m) := by
  obtain hstatements | ⟨f, m', hfault⟩ := runProgram_cases bounds p m
  · rw [hstatements]
    have hcall := invoke_settles hbounds bounds.calls
    have hready := ready_withRegistered henv.isTwoLevel p.procedures
    refine isEnd_of_kept (execBlock_keeps hcall.keeps bounds.rounds p.statements _ hready) ?_
    refine execBlock_settles hcall bounds.rounds p.statements hp.statements _ hready ?_
    exact List.forall_mem_append.2 ⟨hfree, hp.procedures⟩
  · exact .inr ⟨f, m', hfault⟩

/-- **Only loops can go on for ever.** A program without loops, started where no procedure that is
registered has a loop either, ends with its result or with a fault, on every console, with every
journal and with every limit on calls. How it ends depends neither on the rounds nor on the number
of calls that may still be nested, from as many on as the limit leaves. -/
theorem loop_free_program_ends {calls : Nat} (hcalls : calls ≤ Console.maxCalls) {p : Program}
    (hp : p.IsLoopFree) {m : Machine} (henv : m.env.Reachable) (hfree : m.env.IsLoopFree) :
    ∃ r, IsEnd r ∧ (∀ rounds, runProgram ⟨calls, rounds⟩ p m = r) ∧
      ∀ rounds left, calls ≤ m.console.activeCalls + left →
        runNesting ⟨calls, rounds⟩ left p m = r := by
  have hend : IsEnd (runProgram ⟨calls, 0⟩ p m) := runProgram_isEnd hcalls hp henv hfree
  have hrounds : halt? (runProgram ⟨calls, 0⟩ p m) ≠ some .outOfRounds := by
    obtain ⟨_, _, hok⟩ | ⟨_, _, herror⟩ := hend
    · rw [hok]
      exact halt?_ok_ne
    · rw [herror]
      exact halt?_fault_ne
  -- what ends without rounds ends in the same way with them
  have hsame : ∀ rounds left, calls ≤ m.console.activeCalls + left →
      runNesting ⟨calls, rounds⟩ left p m = runProgram ⟨calls, 0⟩ p m := by
    intro rounds left hleft
    have hwithin : (Bounds.mk calls 0).Within ⟨calls, rounds⟩ := ⟨Nat.le_refl _, Nat.zero_le _⟩
    have houtruns := runNesting_outruns hwithin (Nat.le_add_left calls _) hleft p
    exact (houtruns.outlasts m rfl).eq hrounds (.inl rfl)
  refine ⟨_, hend, fun rounds ↦ ?_, hsame⟩
  rw [runProgram_eq_runNesting]
  exact hsame rounds calls (Nat.le_add_left calls _)

/-- Two procedures that call each other, once to an end and once without, and a third one that was
registered before and is called in an argument. The limit stops them. -/
theorem loop_free_program_ends_recursion :
    let f : Procedure := ⟨"f", ["n"], [], [.assign "f" (.call "g" [.variable "n" 2] 2) 2], 1⟩
    let g : Procedure := ⟨"g", ["n"], [],
      [.branch (.variable "n" 5) [.assign "g" (.call "f" [.call "h" [] 6] 6) 6] none 5], 4⟩
    let h : Procedure := ⟨"h", [], [], [.assign "h" (.number .one) 9], 8⟩
    let p : Program := ⟨[f, g], [.assign "x" (.call "f" [.number .zero] 11) 11,
      .assign "x" (.call "f" [.number .one] 12) 12]⟩
    let env : Environment := { Environment.empty with procedures := [h] }
    let m : Machine := ⟨env, Console.start [] .reliable, .silent⟩
    p.IsLoopFree ∧ env.Reachable ∧ env.IsLoopFree ∧
      halt? (runProgram ⟨7, 0⟩ p m) = some (.fault ⟨.callsTooDeep 7, 2⟩) ∧
      ∃ r, IsEnd r ∧ (∀ rounds, runProgram ⟨7, rounds⟩ p m = r) ∧
        ∀ rounds left, 7 ≤ left → runNesting ⟨7, rounds⟩ left p m = r := by
  intro f g h p env m
  have hp : p.IsLoopFree := ⟨by decide, by decide⟩
  have henv : env.Reachable := .register .empty rfl
  have hfree : env.IsLoopFree := by decide
  have hcalls : 7 ≤ Console.maxCalls := by decide
  obtain ⟨r, hend, hrun, hnesting⟩ := loop_free_program_ends hcalls hp (m := m) henv hfree
  exact ⟨hp, henv, hfree, by decide +kernel, r, hend, hrun,
    fun rounds left hle ↦ hnesting rounds left (Nat.le_trans hle (Nat.le_add_left _ _))⟩

end Run

end TinyProc
