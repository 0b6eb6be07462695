import TinyProc.Proofs.Run.CallLimit

/-!
# What runs are put together from

Evaluation and execution take a dozen steps and put them together in two ways: one after the other,
and as the work of a call, in a scope of its own and with one more call counted. A property of runs
that the steps have and that follows these two ways is `Run.Compositional`, and every run of an
expression, a statement, a block or a call has it (`Compositional.evaluate`,
`Compositional.runStatement`, `Compositional.runBlock`). The part of it that is about syntax asks
less: there the way in which calls are carried out is given, and for a property that it has, it is
enough that it is `Run.Sequential`.

Such a property is a relation between runs that does not look at the first of the two, and as a
relation it is a congruence (`Sequential.execCongruence`, `Compositional.callCongruence`). The
inductions over syntax and over the calls that may still be nested are those that are made for
congruences.

The first such property is that a run leaves as many calls active as it has found (`KeepsCount`).
It is handed to all the others: where the work of a call is taken off the count, the call is still
on it, and so `inCall_apply` can say in one equation what a call does to the machine.
-/

namespace TinyProc

/-- A fault of the input or the output, and not of what is computed. -/
def FaultCause.IsOfConsole : FaultCause → Prop
  | inputFormat _ | inputExhausted _ | stream _ => True
  | _ => False

/-- The machine with its procedures changed. -/
def Machine.mapProcedures (f : List Procedure → List Procedure) (m : Machine) : Machine :=
  m.withProcedures (f m.env.procedures)

/-- The scope of a call is the same whatever the procedures, and so is what is left when it is gone.
-/
theorem Machine.leaveCall_mapProcedures (f : List Procedure → List Procedure) (m : Machine)
    (t : ScopeId) : (m.mapProcedures f).leaveCall t = (m.leaveCall t).mapProcedures f := by
  have henv : (m.mapProcedures f).env.pop t =
      (m.env.pop t).withProcedures (f (m.env.pop t).procedures) := by
    rw [m.env.procedures_pop]
    exact m.env.pop_withProcedures ..
  simp only [leaveCall, henv]
  rfl

namespace Run

variable {α β : Type} {m : Machine} {s : ScopeId}

/-! ### Endings on another machine -/

/-- The ending with the machine changed that has been left. -/
def mapMachine (f : Machine → Machine) :
    EStateM.Result Halt Machine α → EStateM.Result Halt Machine α
  | .ok a m => .ok a (f m)
  | .error h m => .error h (f m)

@[simp] theorem mapMachine_ok (f : Machine → Machine) (a : α) (m : Machine) :
    mapMachine f (.ok a m) = .ok a (f m) := rfl

@[simp] theorem mapMachine_error (f : Machine → Machine) (h : Halt) (m : Machine) :
    mapMachine f (.error h m : EStateM.Result Halt Machine α) = .error h (f m) := rfl

/-- The machine that is left is changed, however the run has ended. -/
@[simp] theorem stateLeft_mapMachine (f : Machine → Machine)
    (r : EStateM.Result Halt Machine α) : stateLeft (mapMachine f r) = f (stateLeft r) := by
  cases r <;> rfl

/-- How a run has ended does not depend on what becomes of the machine afterwards. -/
@[simp] theorem halt?_mapMachine (f : Machine → Machine) (r : EStateM.Result Halt Machine α) :
    halt? (mapMachine f r) = halt? r := by
  cases r <;> rfl

/-- What holds between a machine and the one that a run leaves holds for one run after another, if
it can be chained. -/
theorem stateLeft_bind {R : Machine → Machine → Prop}
    (htrans : ∀ {m₁ m₂ m₃}, R m₁ m₂ → R m₂ m₃ → R m₁ m₃) {x : Run α} {f : α → Run β}
    (hx : ∀ m, R m (stateLeft (x m))) (hf : ∀ a m, R m (stateLeft (f a m))) (m : Machine) :
    R m (stateLeft ((x >>= f) m)) := by
  have hstep := hx m
  rcases h : x m with ⟨a, m'⟩ | ⟨e, m'⟩
  · rw [h] at hstep
    rw [bind_of_ok h]
    exact htrans hstep (hf a m')
  · rw [h] at hstep
    rw [bind_of_error h]
    exact hstep

/-! ### Steps on any machine -/

/-- Every step in a scope asks first whether the scope is live. -/
theorem liveEnv_bind_eq (f : Environment → Run α) (m : Machine) :
    (liveEnv s >>= f) m = if m.env.IsLive s then f m.env m else .error .staleScope m := by
  have hlive := liveEnv_apply s m
  split
  · rename_i h
    rw [if_pos h] at hlive
    exact bind_of_ok hlive
  · rename_i h
    rw [if_neg h] at hlive
    exact bind_of_error hlive

/-- A variable that is looked up changes nothing, also if there is none. -/
theorem lookup_eq (s : ScopeId) (name : String) (line : Nat) (m : Machine) :
    lookup s name line m =
      if m.env.IsLive s then
        match m.env.get? s name with
        | some value => .ok value m
        | none => .error (.fault ⟨.undefinedVariable name, line⟩) m
      else .error .staleScope m := by
  rw [lookup, liveEnv_bind_eq]
  cases m.env.get? s name <;> rfl

/-- An assignment notes the scope that the name is resolved to, as it was before. -/
theorem assign_eq (s : ScopeId) (name : String) (value : Word) (m : Machine) :
    assign s name value m =
      if m.env.IsLive s then
        .ok () { m with
          env := m.env.set s name value
          journal := m.journal.note (.assigned name value (m.env.target s name).index) }
      else .error .staleScope m := by
  rw [assign, liveEnv_bind_eq]
  rfl

theorem declare_eq (s : ScopeId) (name : String) (value : Word) (m : Machine) :
    declare s name value m =
      if m.env.IsLive s then .ok () { m with env := m.env.declare s name value }
      else .error .staleScope m := by
  rw [declare, liveEnv_bind_eq]
  rfl

/-- A read that fails has consumed its line all the same. -/
theorem readInto_eq (s : ScopeId) (target : ReadTarget) (m : Machine) :
    readInto s target m =
      match (m.console.read target.name).1 with
      | .ok value =>
        assign s target.name value { m with
          console := (m.console.read target.name).2
          journal := m.journal.note (.read target.name value target.line) }
      | .error cause =>
        .error (.fault ⟨cause, target.line⟩)
          { m with console := (m.console.read target.name).2 } := by
  have hword : readWord target m = orFail (m.console.read target.name).1 target.line
      { m with console := (m.console.read target.name).2 } := rfl
  rw [readInto]
  cases hread : (m.console.read target.name).1 with
  | ok value =>
    rw [hread] at hword
    rw [bind_of_ok hword]
    rfl
  | error cause =>
    rw [hread] at hword
    exact bind_of_error hword

/-- A block that is written in two parts is run in two parts. -/
theorem execBlock_append (call : Caller) (rounds : Nat) (s : ScopeId) (a b : Block) :
    execBlock call rounds s (a ++ b) =
      execBlock call rounds s a >>= fun _ ↦ execBlock call rounds s b := by
  induction a with
  | nil => rfl
  | cons t rest ih => rw [List.cons_append, execBlock, execBlock, ih, bind_assoc]

/-! ### The count of active calls -/

/-- A run that leaves as many calls active as it has found. -/
def KeepsCount (α : Type) (x : Run α) : Prop :=
  ∀ m : Machine, (stateLeft (x m)).console.activeCalls = m.console.activeCalls

/-- **A call, from the outside.** Its work starts with one more scope and one more call counted, and
both are taken back however it ends. -/
theorem inCall_apply {work : ScopeId → Run α} (hwork : ∀ t, KeepsCount α (work t)) (m : Machine) :
    inFreshScope (fun t ↦ asCall (work t)) m =
      if m.console.activeCalls < Console.maxCalls then
        mapMachine (·.leaveCall m.env.nextScope) (work m.env.nextScope m.enterCall)
      else .error .miscounted { m with env := m.env.push.pop m.env.nextScope } := by
  split
  · rename_i hcalls
    -- the count is not zero when the work is over, so that there is a call to take off
    have hpos : 0 < (stateLeft (work m.env.nextScope m.enterCall)).console.activeCalls := by
      rw [hwork]
      exact Nat.succ_pos _
    rw [inFreshScope_asCall_apply hcalls]
    cases hr : work m.env.nextScope m.enterCall with
    | ok a m' =>
      rw [hr] at hpos
      exact release_uncount_ok hpos
    | error e m' =>
      rw [hr] at hpos
      exact release_uncount_error hpos
  · rename_i hcalls
    exact inFreshScope_asCall_miscounted hcalls

/-! ### Composition -/

/-- What goes wrong with an operator is in the numbers, not in the console. -/
theorem apply_not_isOfConsole {op : Operator} {left right : Word} {cause : FaultCause}
    (h : op.apply left right = .error cause) : ¬ cause.IsOfConsole := by
  obtain rfl | rfl := Operator.apply_eq_error h <;> nofun

/-- A property of runs that the steps between calls have, and that one run after another has. -/
structure Sequential (P : (α : Type) → Run α → Prop) : Prop where
  /-- Nothing is done. -/
  pure {α : Type} (a : α) : P α (pure a)
  /-- One run after another. -/
  bind {α β : Type} {x : Run α} {f : α → Run β} (hx : P α x) (hf : ∀ a, P β (f a)) :
    P β (x >>= f)
  /-- A fault, if it is not the console that has failed. -/
  fail {α : Type} {cause : FaultCause} (hcause : ¬ cause.IsOfConsole) (line : Nat) :
    P α (fail cause line)
  /-- A loop has used up its rounds. -/
  outOfRounds : P Unit (throw .outOfRounds)
  /-- A variable is looked up. -/
  lookup (s : ScopeId) (name : String) (line : Nat) : P Word (lookup s name line)
  /-- A variable is assigned to. -/
  assign (s : ScopeId) (name : String) (value : Word) : P Unit (assign s name value)
  /-- A variable is declared. -/
  declare (s : ScopeId) (name : String) (value : Word) : P Unit (declare s name value)
  /-- A word is displayed. -/
  display (value : Word) (line : Nat) : P Unit (display value line)
  /-- A word is read into a variable. -/
  readInto (s : ScopeId) (target : ReadTarget) : P Unit (readInto s target)
  /-- It is made sure that there is a procedure for a call. -/
  checkCall (name : String) (arguments line : Nat) : P Unit (checkCall name arguments line)

namespace Compositional

variable {P : (α : Type) → Run α → Prop}

theorem ite {x y : Run α} (hx : P α x) (hy : P α y) {p : Prop} [Decidable p] :
    P α (if p then x else y) := by
  split
  · exact hx
  · exact hy

end Compositional

/-- A property of runs that the steps of evaluation and execution have, and that follows the ways in
which they are put together. -/
structure Compositional (P : (α : Type) → Run α → Prop) : Prop extends Sequential P where
  /-- A procedure is found. -/
  procedure (name : String) (line : Nat) : P Procedure (procedure name line)
  /-- The limit on calls is asked. -/
  checkDepth (calls line : Nat) : P Unit (checkDepth calls line)
  /-- A call is noted. -/
  noteCall (name : String) (values : List Word) (line : Nat) :
    P Unit (note (.called name values line))
  /-- The work of a call. -/
  inCall {α : Type} {work : ScopeId → Run α} (hcount : ∀ t, KeepsCount α (work t))
    (hwork : ∀ t, P α (work t)) : P α (inFreshScope fun t ↦ asCall (work t))
  checkCall name _ line :=
    bind (procedure name line) fun _ ↦ Compositional.ite (pure ()) (fail (by nofun) line)

namespace Sequential

variable {P : (α : Type) → Run α → Prop} {call : Caller}

open Compositional (ite)

/-- An operator is applied, or fails. -/
theorem apply (h : Sequential P) (op : Operator) (left right : Word) (line : Nat) :
    P Word (orFail (op.apply left right) line) := by
  cases hresult : op.apply left right with
  | ok value => exact h.pure value
  | error cause => exact h.fail (apply_not_isOfConsole hresult) line

/-- Two properties at once. -/
theorem and {Q : (α : Type) → Run α → Prop} (h : Sequential P) (h' : Sequential Q) :
    Sequential fun α x ↦ P α x ∧ Q α x where
  pure a := ⟨h.pure a, h'.pure a⟩
  bind hx hf := ⟨h.bind hx.1 fun a ↦ (hf a).1, h'.bind hx.2 fun a ↦ (hf a).2⟩
  fail hcause line := ⟨h.fail hcause line, h'.fail hcause line⟩
  outOfRounds := ⟨h.outOfRounds, h'.outOfRounds⟩
  lookup s name line := ⟨h.lookup s name line, h'.lookup s name line⟩
  assign s name value := ⟨h.assign s name value, h'.assign s name value⟩
  declare s name value := ⟨h.declare s name value, h'.declare s name value⟩
  display value line := ⟨h.display value line, h'.display value line⟩
  readInto s target := ⟨h.readInto s target, h'.readInto s target⟩
  checkCall name arguments line :=
    ⟨h.checkCall name arguments line, h'.checkCall name arguments line⟩

/-- A property of one run is a relation that holds whatever the other run is. -/
theorem stepCongruence (h : Sequential P) (s : ScopeId) :
    StepCongruence Eq s fun α _ x ↦ P α x where
  pure := h.pure
  bind := h.bind
  apply op left right _ line _ := h.apply op left right line
  lookup name _ line _ := h.lookup s name line
  checkCall name arguments _ line _ := h.checkCall name arguments line
  assign := h.assign s
  declare := h.declare s
  display value _ line _ := h.display value line
  readInto _ := h.readInto s _

/-- For loops, one of the rules is enough: a property does not depend on the rounds. -/
theorem execCongruence (h : Sequential P) (s : ScopeId) (rounds : Nat) :
    ExecCongruence Eq s rounds rounds fun α _ x ↦ P α x :=
  (h.stepCongruence s).withRounds h.outOfRounds rounds

/-- The parameters and the local variables of a call, one after the other. -/
theorem declareAll (h : Sequential P) (s : ScopeId) (entries : List (String × Word)) :
    P Unit (declareAll s entries) :=
  (h.execCongruence s 0).declareAll entries

theorem readAttached (h : Sequential P) (s : ScopeId) (attached : Option ReadTarget) :
    P Unit (readAttached s attached) :=
  (h.execCongruence s 0).readAttached (ReadTarget.Moved.refl_attached attached)

/-- A loop of what has the property, whatever the rounds. -/
theorem repeatWhile (h : Sequential P) {condition : Run Word} {body : Run Unit}
    (hcondition : P Word condition) (hbody : P Unit body) (rounds : Nat) :
    P Unit (repeatWhile condition body rounds) :=
  @ExecCongruence.loop _ _ _ _ _ (h.execCongruence .root rounds) condition condition body body
    hcondition hbody

/-! ### Expressions and statements -/

section Syntax

variable (h : Sequential P) (hcall : ∀ name values line, P Word (call name values line))
include h hcall

/-- Every expression has the property. -/
theorem eval (e : Expr) : P Word (eval call s e) :=
  (h.execCongruence s 0).eval (callersRelated_self hcall) e (.refl e)

theorem evalAll (es : List Expr) : P (List Word) (evalAll call s es) :=
  (h.execCongruence s 0).evalAll (callersRelated_self hcall) es (Expr.Moved.refl_all es)

/-- Every statement has the property. -/
theorem exec (rounds : Nat) (t : Statement) : P Unit (exec call rounds s t) :=
  (h.execCongruence s rounds).exec (callersRelated_self hcall) t (.refl t)

theorem execBlock (rounds : Nat) (block : List Statement) :
    P Unit (execBlock call rounds s block) :=
  (h.execCongruence s rounds).execBlock (callersRelated_self hcall) block (Block.Moved.refl block)

theorem execElse (rounds : Nat) (block? : Option (List Statement)) :
    P Unit (execElse call rounds s block?) :=
  (h.execCongruence s rounds).execElse (callersRelated_self hcall) block?
    (Block.Moved.refl_else block?)

/-- The body of a procedure has the property, with the declarations in front of it and the lookup
behind. -/
theorem runBody (rounds : Nat) (p : Procedure) (values : List Word) :
    P Word (runBody call rounds p values s) :=
  (h.execCongruence s rounds).runBody (callersRelated_self hcall) (.refl p) values

end Syntax

end Sequential

/-! ### Runs that leave the console alone -/

/-- A run that neither looks at the console nor changes it. -/
def Detached (α : Type) (x : Run α) : Prop :=
  ∀ (m : Machine) (console : Console),
    x { m with console := console } = mapMachine (fun m' ↦ { m' with console := console }) (x m)

/-- The console that is left is the one that has been found. -/
theorem Detached.console_eq {x : Run α} (hx : Detached α x) (m : Machine) :
    (stateLeft (x m)).console = m.console := by
  have hsame := congrArg (fun r ↦ (stateLeft r).console) (hx m m.console)
  rwa [stateLeft_mapMachine] at hsame

/-- Where a part of the console is changed, it is found so in the end. -/
theorem Detached.mapConsole {x : Run α} (hx : Detached α x) (f : Console → Console)
    (m : Machine) :
    x { m with console := f m.console } =
      mapMachine (fun m' ↦ { m' with console := f m'.console }) (x m) := by
  have hconsole := hx.console_eq m
  rw [hx]
  cases h : x m with
  | ok a m' =>
    rw [h] at hconsole
    rw [mapMachine_ok, mapMachine_ok, ← hconsole]
    rfl
  | error e m' =>
    rw [h] at hconsole
    rw [mapMachine_error, mapMachine_error, ← hconsole]
    rfl

theorem Detached.pure (a : α) : Detached α (pure a) :=
  fun _ _ ↦ rfl

/-- If neither part looks at the console, it can be exchanged for both at once. -/
theorem Detached.bind {x : Run α} {f : α → Run β} (hx : Detached α x)
    (hf : ∀ a, Detached β (f a)) : Detached β (x >>= f) := by
  intro m console
  have hsame := hx m console
  rcases h : x m with ⟨a, m'⟩ | ⟨e, m'⟩
  · rw [h] at hsame
    rw [bind_of_ok h, bind_of_ok hsame]
    exact hf a m' console
  · rw [h] at hsame
    rw [bind_of_error h, bind_of_error hsame]
    rfl

theorem fail_detached (cause : FaultCause) (line : Nat) : Detached α (fail cause line) :=
  fun _ _ ↦ rfl

theorem orFail_detached (result : Except FaultCause α) (line : Nat) :
    Detached α (orFail result line) := by
  rcases result with cause | a
  · exact fail_detached cause line
  · exact .pure a

theorem lookup_detached (s : ScopeId) (name : String) (line : Nat) :
    Detached Word (lookup s name line) := by
  intro m console
  rw [lookup_eq, lookup_eq]
  dsimp only
  split
  · cases m.env.get? s name <;> rfl
  · rfl

/-- Assignments are noted in the journal, which is not a part of the console. -/
theorem assign_detached (s : ScopeId) (name : String) (value : Word) :
    Detached Unit (assign s name value) := by
  intro m console
  rw [assign_eq, assign_eq]
  dsimp only
  split <;> rfl

theorem declare_detached (s : ScopeId) (name : String) (value : Word) :
    Detached Unit (declare s name value) := by
  intro m console
  rw [declare_eq, declare_eq]
  dsimp only
  split <;> rfl

theorem procedure_detached (name : String) (line : Nat) :
    Detached Procedure (procedure name line) := by
  intro m console
  rw [procedure_apply, procedure_apply]
  dsimp only
  cases m.env.procedure? name <;> rfl

/-- Whether a procedure can be registered is a matter of the environment. -/
theorem register_detached (p : Procedure) : Detached Unit (register p) := by
  intro m console
  rw [register_eq, register_eq]
  dsimp only
  rcases m.env.register? p with _ | env <;> rfl

theorem checkCall_detached (name : String) (arguments line : Nat) :
    Detached Unit (checkCall name arguments line) := by
  refine (procedure_detached name line).bind fun p ↦ ?_
  split
  · exact .pure ()
  · exact fail_detached _ line

theorem declareAll_detached (s : ScopeId) (entries : List (String × Word)) :
    Detached Unit (declareAll s entries) := by
  induction entries with
  | nil => exact .pure ()
  | cons entry rest ih => exact (declare_detached s entry.1 entry.2).bind fun _ ↦ ih

theorem registerAll_detached (procedures : List Procedure) :
    Detached Unit (registerAll procedures) := by
  induction procedures with
  | nil => exact .pure ()
  | cons p rest ih => exact (register_detached p).bind fun _ ↦ ih

/-- A property that is only about the console: what leaves it alone has it. -/
theorem compositional_of_detached {P : (α : Type) → Run α → Prop}
    (hdetached : ∀ {α : Type} {x : Run α}, Detached α x → P α x)
    (hbind : ∀ {α β : Type} {x : Run α} {f : α → Run β}, P α x → (∀ a, P β (f a)) → P β (x >>= f))
    (hdisplay : ∀ value line, P Unit (display value line))
    (hreadInto : ∀ s target, P Unit (readInto s target))
    (hcheckDepth : ∀ calls line, P Unit (checkDepth calls line))
    (hinCall : ∀ {α : Type} {work : ScopeId → Run α}, (∀ t, KeepsCount α (work t)) →
      (∀ t, P α (work t)) → P α (inFreshScope fun t ↦ asCall (work t))) : Compositional P where
  pure a := hdetached (.pure a)
  bind := hbind
  fail _ line := hdetached (fail_detached _ line)
  outOfRounds := hdetached fun _ _ ↦ rfl
  lookup s name line := hdetached (lookup_detached s name line)
  assign s name value := hdetached (assign_detached s name value)
  declare s name value := hdetached (declare_detached s name value)
  display := hdisplay
  readInto := hreadInto
  procedure name line := hdetached (procedure_detached name line)
  checkDepth := hcheckDepth
  noteCall _ _ _ := hdetached fun _ _ ↦ rfl
  inCall := hinCall

/-! ### Runs that leave the procedures alone -/

/-- A run that neither looks at the procedures nor changes them. -/
def Oblivious (α : Type) (x : Run α) : Prop :=
  ∀ (m : Machine) (procedures : List Procedure),
    x (m.withProcedures procedures) = mapMachine (·.withProcedures procedures) (x m)

/-- The procedures that are left are the ones that have been found. -/
theorem Oblivious.procedures_eq {x : Run α} (hx : Oblivious α x) (m : Machine) :
    (stateLeft (x m)).env.procedures = m.env.procedures := by
  have hsame := congrArg (fun r ↦ (stateLeft r).env.procedures) (hx m m.env.procedures)
  rwa [stateLeft_mapMachine] at hsame

/-- Where the procedures are changed, they are found so in the end. -/
theorem Oblivious.mapProcedures {x : Run α} (hx : Oblivious α x)
    (f : List Procedure → List Procedure) (m : Machine) :
    x (m.mapProcedures f) = mapMachine (·.mapProcedures f) (x m) := by
  have hkept := hx.procedures_eq m
  refine (hx m (f m.env.procedures)).trans ?_
  cases h : x m with
  | ok a m' =>
    rw [h] at hkept
    rw [← hkept]
    rfl
  | error e m' =>
    rw [h] at hkept
    rw [← hkept]
    rfl

theorem Oblivious.pure (a : α) : Oblivious α (pure a) :=
  fun _ _ ↦ rfl

theorem fail_oblivious (cause : FaultCause) (line : Nat) : Oblivious α (fail cause line) :=
  fun _ _ ↦ rfl

/-- Variables are looked up in scopes, where no procedure plays a part. -/
theorem lookup_oblivious (s : ScopeId) (name : String) (line : Nat) :
    Oblivious Word (lookup s name line) := by
  intro m procedures
  have hget : (m.withProcedures procedures).env.get? s name = m.env.get? s name :=
    m.env.get?_withProcedures ..
  have hlive : (m.withProcedures procedures).env.IsLive s ↔ m.env.IsLive s := .rfl
  rw [lookup_eq, lookup_eq, hget]
  simp only [hlive]
  split
  · cases m.env.get? s name <;> rfl
  · rfl

/-- Neither where an assignment goes nor what it does depends on the procedures. -/
theorem assign_oblivious (s : ScopeId) (name : String) (value : Word) :
    Oblivious Unit (assign s name value) := by
  intro m procedures
  have hset : (m.withProcedures procedures).env.set s name value =
      (m.env.set s name value).withProcedures procedures :=
    m.env.set_withProcedures ..
  have htarget : (m.withProcedures procedures).env.target s name = m.env.target s name :=
    congrArg (·.getD s) (m.env.resolve_withProcedures ..)
  have hlive : (m.withProcedures procedures).env.IsLive s ↔ m.env.IsLive s := .rfl
  rw [assign_eq, assign_eq, hset, htarget]
  simp only [hlive]
  split <;> rfl

theorem declare_oblivious (s : ScopeId) (name : String) (value : Word) :
    Oblivious Unit (declare s name value) := by
  intro m procedures
  have hlive : (m.withProcedures procedures).env.IsLive s ↔ m.env.IsLive s := .rfl
  rw [declare_eq, declare_eq]
  simp only [hlive]
  split <;> rfl

/-- What is displayed goes to the console. -/
theorem display_oblivious (value : Word) (line : Nat) : Oblivious Unit (display value line) := by
  intro m procedures
  have hconsole : (m.withProcedures procedures).console = m.console := rfl
  rw [display_apply, display_apply, hconsole]
  cases (m.console.display value).1 <;> rfl

/-- A line is taken off the console, and the rest of a read is an assignment. -/
theorem readInto_oblivious (s : ScopeId) (target : ReadTarget) :
    Oblivious Unit (readInto s target) := by
  intro m procedures
  have hconsole : (m.withProcedures procedures).console = m.console := rfl
  rw [readInto_eq, readInto_eq, hconsole]
  cases (m.console.read target.name).1 with
  | ok value =>
    exact assign_oblivious s target.name value ⟨m.env, (m.console.read target.name).2,
      m.journal.note (.read target.name value target.line)⟩ procedures
  | error cause => rfl

/-- The limit is compared with the count on the console. -/
theorem checkDepth_oblivious (calls line : Nat) : Oblivious Unit (checkDepth calls line) := by
  intro m procedures
  have hconsole : (m.withProcedures procedures).console = m.console := rfl
  rw [checkDepth_apply, checkDepth_apply, hconsole]
  split <;> rfl

/-- A call changes the procedures as little as its work does. -/
theorem inCall_mapProcedures {work : ScopeId → Run α} (hcount : ∀ t, KeepsCount α (work t))
    (f : List Procedure → List Procedure) (m : Machine)
    (hwork : m.console.activeCalls < Console.maxCalls →
      work m.env.nextScope (m.enterCall.mapProcedures f) =
        mapMachine (·.mapProcedures f) (work m.env.nextScope m.enterCall)) :
    inFreshScope (fun t ↦ asCall (work t)) (m.mapProcedures f) =
      mapMachine (·.mapProcedures f) (inFreshScope (fun t ↦ asCall (work t)) m) := by
  have hconsole : (m.mapProcedures f).console = m.console := rfl
  rw [inCall_apply hcount, inCall_apply hcount, hconsole]
  split
  · rename_i hcalls
    refine (congrArg (mapMachine (·.leaveCall m.env.nextScope)) (hwork hcalls)).trans ?_
    cases work m.env.nextScope m.enterCall with
    | ok a m' => exact congrArg (EStateM.Result.ok a) (m'.leaveCall_mapProcedures ..)
    | error e m' => exact congrArg (EStateM.Result.error e) (m'.leaveCall_mapProcedures ..)
  · have hpop := m.env.push.pop_withProcedures (f m.env.procedures) m.env.nextScope
    refine (congrArg (fun env ↦ EStateM.Result.error Halt.miscounted { m with env := env })
      hpop).trans ?_
    simp only [mapMachine_error, Machine.mapProcedures, Environment.procedures_pop]
    rfl

/-! ### Calls -/

/-- The count is looked at, and it is another step that raises it. -/
theorem checkDepth_keepsCount (calls line : Nat) : KeepsCount Unit (checkDepth calls line) := by
  intro m
  rw [checkDepth_apply]
  split <;> rfl

/-- A display may fail, but calls are counted elsewhere on the console. -/
theorem display_keepsCount (value : Word) (line : Nat) : KeepsCount Unit (display value line) := by
  intro m
  have hcalls := (m.console.display_frame value).1
  rw [display_apply]
  cases (m.console.display value).1 <;> exact hcalls

/-- A read takes a line off the console and leaves the count. -/
theorem readInto_keepsCount (s : ScopeId) (target : ReadTarget) :
    KeepsCount Unit (readInto s target) := by
  intro m
  rw [readInto_eq]
  cases (m.console.read target.name).1 with
  | ok value =>
    dsimp only
    rw [(assign_detached s target.name value).console_eq]
    rfl
  | error cause => rfl

/-- The work of a call is counted while it is done, and no longer. -/
theorem inCall_keepsCount {work : ScopeId → Run α} (hwork : ∀ t, KeepsCount α (work t)) :
    KeepsCount α (inFreshScope fun t ↦ asCall (work t)) := by
  intro m
  rw [inCall_apply hwork]
  split
  · rw [stateLeft_mapMachine]
    show (stateLeft (work m.env.nextScope m.enterCall)).console.activeCalls - 1 = _
    rw [hwork]
    exact Nat.add_sub_cancel ..
  · rfl

/-- **Every run leaves as many calls active as it has found.** The only steps that could do
otherwise are those that touch the console. -/
theorem keepsCount_compositional : Compositional KeepsCount :=
  compositional_of_detached
    (fun hx m ↦ congrArg Console.activeCalls (hx.console_eq m))
    (stateLeft_bind (R := fun m m' ↦ m'.console.activeCalls = m.console.activeCalls)
      fun h h' ↦ h'.trans h)
    display_keepsCount readInto_keepsCount checkDepth_keepsCount
    (fun hcount _ ↦ inCall_keepsCount hcount)

namespace Compositional

variable {P : (α : Type) → Run α → Prop}

/-- A property of one run, together with the count that it leaves: the work of a call has to keep it
for the property to be asked of it. -/
theorem callCongruence (h : Compositional P) (bounds : Bounds) :
    CallCongruence Eq bounds fun α _ x ↦ KeepsCount α x ∧ P α x where
  exec s := (keepsCount_compositional.and h.toSequential).execCongruence s bounds.rounds
  tooDeep _ := ⟨keepsCount_compositional.fail (by nofun) _, h.fail (by nofun) _⟩
  checkDepth _ := ⟨checkDepth_keepsCount bounds.calls _, h.checkDepth bounds.calls _⟩
  procedure name _ line _ hf :=
    have hfound (p : Procedure) := hf p p (.refl p)
    ⟨keepsCount_compositional.bind (keepsCount_compositional.procedure name line)
      fun p ↦ (hfound p).1, h.bind (h.procedure name line) fun p ↦ (hfound p).2⟩
  noteCall name values _ line _ :=
    ⟨keepsCount_compositional.noteCall name values line, h.noteCall name values line⟩
  inCall hwork :=
    ⟨inCall_keepsCount fun t ↦ (hwork t).1, h.inCall (fun t ↦ (hwork t).1) fun t ↦ (hwork t).2⟩

/-- Every call has the property. -/
theorem invoke (h : Compositional P) (bounds : Bounds) (left : Nat) (name : String)
    (values : List Word) (line : Nat) : P Word (invoke bounds left name values line) :=
  ((h.callCongruence bounds).invoke left name values rfl).2

/-! ### The three ways to run something -/

/-- Every call has it, from the outside. -/
theorem call (h : Compositional P) (bounds : Bounds) (name : String) (values : List Word)
    (line : Nat) : P Word (Run.call bounds name values line) :=
  h.invoke bounds bounds.calls name values line

/-- Every evaluation has the property. -/
theorem evaluate (h : Compositional P) (bounds : Bounds) (s : ScopeId) (e : Expr) :
    P Word (evaluate bounds s e) :=
  h.eval (h.call bounds) e

/-- Every run of a statement has the property. -/
theorem runStatement (h : Compositional P) (bounds : Bounds) (s : ScopeId) (t : Statement) :
    P Unit (runStatement bounds s t) :=
  h.exec (h.call bounds) bounds.rounds t

/-- Every run of a block has the property. -/
theorem runBlock (h : Compositional P) (bounds : Bounds) (s : ScopeId) (block : Block) :
    P Unit (runBlock bounds s block) :=
  h.execBlock (h.call bounds) bounds.rounds block

/-- A program, if registering has the property too. -/
theorem runProgram (h : Compositional P) (hregister : ∀ p, P Unit (register p)) (bounds : Bounds)
    (p : Program) : P Unit (runProgram bounds p) := by
  have hregisterAll : ∀ procedures, P Unit (registerAll procedures) := by
    intro procedures
    induction procedures with
    | nil => exact h.pure ()
    | cons q rest ih => exact h.bind (hregister q) fun _ ↦ ih
  exact h.bind (hregisterAll p.procedures) fun _ ↦ h.runBlock bounds .root p.statements

end Compositional

end Run

end TinyProc
