import TinyProc.Proofs.Lines.Parsing
import TinyProc.Proofs.Run.CallLimit

/-!
# Running with lines moved

A program is run beside the same program with its lines moved. Lines are read in two places: a
fault is reported on one, and the journal notes them. No step depends on one, so that the two runs
do the same with the same variables, input and output, and where they stop they stop for the same
cause, on a line that is moved (`runProgram_parallel`). That is shown of the steps one by one, and
of what they are put together to since `Run.Parallel` is a congruence
(`Run.parallel_callCongruence`).

Two machines are `Machine.Moved` if they differ at most in the lines of the procedures and in what
has been noted. Of the variables nothing is moved: the scopes are equal, so that whatever looks only
at scopes is equal too.
-/

namespace TinyProc

variable {R : Nat → Nat → Prop}

/-! ### Machines -/

/-- A machine, and another one that differs in the lines of its procedures and in its journal. -/
inductive Machine.Moved (R : Nat → Nat → Prop) : Machine → Machine → Prop
  | intro (env : Environment) (procedures : List Procedure) (console : Console)
    (journal journal' : Journal) :
    List.Forall₂ (Procedure.Moved R) env.procedures procedures →
      Moved R ⟨env, console, journal⟩ ⟨env.withProcedures procedures, console, journal'⟩

/-- A name is that of a procedure in both lists or in neither, and what is found first is the same
procedure with its lines moved. -/
theorem find?_moved {procedures procedures' : List Procedure}
    (h : List.Forall₂ (Procedure.Moved R) procedures procedures') (name : String) :
    Option.Rel (Procedure.Moved R) (procedures.find? (·.name = name))
      (procedures'.find? (·.name = name)) := by
  induction h with
  | nil => exact .none
  | cons hp _ ih =>
    rw [List.find?_cons, List.find?_cons, hp.name_eq]
    split
    · exact .some hp
    · exact ih

namespace Machine.Moved

variable {m m' : Machine}

/-- Input and output are the same. -/
theorem console_eq (hm : m.Moved R m') : m'.console = m.console := by
  obtain ⟨env, procedures, console, journal, journal', h⟩ := hm
  rfl

/-- So the consoles may be replaced on both sides by the same one. -/
theorem withConsole (hm : m.Moved R m') (console : Console) :
    Machine.Moved R { m with console := console } { m' with console := console } := by
  obtain ⟨env, procedures, _, journal, journal', h⟩ := hm
  exact .intro env procedures console journal journal' h

/-- A procedure is found on both sides or on neither. -/
theorem procedure? (hm : m.Moved R m') (name : String) :
    Option.Rel (Procedure.Moved R) (m.env.procedure? name) (m'.env.procedure? name) := by
  obtain ⟨env, procedures, console, journal, journal', h⟩ := hm
  exact find?_moved h name

/-- Scopes are released together, since they are the same scopes. -/
theorem pop (hm : m.Moved R m') (scope : ScopeId) :
    Machine.Moved R { m with env := m.env.pop scope } { m' with env := m'.env.pop scope } := by
  obtain ⟨env, procedures, console, journal, journal', h⟩ := hm
  rw [← env.procedures_pop scope] at h
  dsimp only
  rw [env.pop_withProcedures]
  exact .intro _ procedures console journal journal' h

end Machine.Moved

/-- The same halt; if it is a fault, its line is moved. -/
inductive Halt.Moved (R : Nat → Nat → Prop) : Halt → Halt → Prop
  | fault (cause : FaultCause) {line line' : Nat} :
    R line line' → Moved R (.fault ⟨cause, line⟩) (.fault ⟨cause, line'⟩)
  | staleScope : Moved R .staleScope .staleScope
  | miscounted : Moved R .miscounted .miscounted
  | outOfRounds : Moved R .outOfRounds .outOfRounds

namespace Run

variable {α β : Type} {V : α → α → Prop} {W : β → β → Prop} {line line' : Nat}

/-! ### Runs side by side -/

/-- How two runs have ended, where `V` relates their results. -/
inductive EndMoved (R : Nat → Nat → Prop) (V : α → α → Prop) :
    EStateM.Result Halt Machine α → EStateM.Result Halt Machine α → Prop
  | ok {a a' : α} {m m' : Machine} (ha : V a a') (hm : m.Moved R m') :
    EndMoved R V (.ok a m) (.ok a' m')
  | error {h h' : Halt} {m m' : Machine} (hh : h.Moved R h') (hm : m.Moved R m') :
    EndMoved R V (.error h m) (.error h' m')

/-- From machines that differ in lines, two runs end alike. -/
def Parallel (R : Nat → Nat → Prop) (V : α → α → Prop) (x x' : Run α) : Prop :=
  ∀ m m' : Machine, m.Moved R m' → EndMoved R V (x m) (x' m')

section Combinators

variable {x x' y y' : Run α} {f f' : α → Run β}

theorem Parallel.pure {a a' : α} (h : V a a') : Parallel R V (pure a) (pure a') :=
  fun _ _ hm ↦ .ok h hm

/-- Two halts end two runs alike if they differ at most in the line. -/
theorem Parallel.throw {h h' : Halt} (hh : h.Moved R h') :
    Parallel R V (throw h : Run α) (throw h') :=
  fun _ _ hm ↦ .error hh hm

/-- Two sequences run side by side if the first parts do and, wherever their results are related,
the second parts do too. -/
theorem Parallel.bind (hx : Parallel R V x x')
    (hf : ∀ a a', V a a' → Parallel R W (f a) (f' a')) :
    Parallel R W (x >>= f) (x' >>= f') := by
  intro m m' hm
  have h := hx m m' hm
  generalize hr : x m = r, hr' : x' m' = r' at h
  cases h with
  | ok ha hm₁ =>
    -- the second parts start on machines that are related again
    rw [bind_of_ok hr, bind_of_ok hr']
    exact hf _ _ ha _ _ hm₁
  | error hh hm₁ =>
    rw [bind_of_error hr, bind_of_error hr']
    exact .error hh hm₁

theorem Parallel.ite {p : Prop} [Decidable p] (h : Parallel R V x x') (h' : Parallel R V y y') :
    Parallel R V (if p then x else y) (if p then x' else y') := by
  split
  · exact h
  · exact h'

end Combinators

/-! ### Single steps -/

/-- A fault is reported with the same cause, on a line that is moved. -/
theorem fail_parallel (cause : FaultCause) (hline : R line line') :
    Parallel R V (fail cause line : Run α) (fail cause line') :=
  .throw (.fault cause hline)

/-- A result that does not depend on lines is delivered on both sides, or a fault for the same
cause. -/
theorem orFail_parallel (result : Except FaultCause α) (hline : R line line') :
    Parallel R Eq (orFail result line) (orFail result line') := by
  cases result with
  | ok a => exact .pure rfl
  | error cause => exact fail_parallel cause hline

/-- What is noted makes no difference: the journals may be any two. -/
theorem note_parallel (e e' : Event) : Parallel R Eq (note e) (note e') := by
  rintro _ _ ⟨env, procedures, console, journal, journal', h⟩
  exact .ok rfl (.intro env procedures console _ _ h)

/-- A step on a live scope, where the environments differ in their procedures. -/
theorem liveEnv_parallel (scope : ScopeId) {f f' : Environment → Run α}
    (hf : ∀ env procedures, Parallel R V (f env) (f' (env.withProcedures procedures))) :
    Parallel R V (liveEnv scope >>= f) (liveEnv scope >>= f') := by
  -- as many scopes are there on both sides, so that the scope is live on both or on neither
  have hsame : Parallel R (fun env env' ↦ ∃ procedures, env' = env.withProcedures procedures)
      (liveEnv scope) (liveEnv scope) := by
    rintro _ _ ⟨env, procedures, console, journal, journal', h⟩
    rw [liveEnv_apply, liveEnv_apply]
    by_cases hlive : env.IsLive scope
    · have hlive' : (env.withProcedures procedures).IsLive scope := hlive
      rw [if_pos hlive, if_pos hlive']
      exact .ok ⟨_, rfl⟩ (.intro env procedures console journal journal' h)
    · have hlive' : ¬ (env.withProcedures procedures).IsLive scope := hlive
      rw [if_neg hlive, if_neg hlive']
      exact .error .staleScope (.intro env procedures console journal journal' h)
  refine hsame.bind ?_
  rintro env _ ⟨procedures, rfl⟩
  exact hf env procedures

/-- A variable is looked up in the same scopes, and if it is undefined, it is so on both sides. -/
theorem lookup_parallel (scope : ScopeId) (name : String) (hline : R line line') :
    Parallel R Eq (lookup scope name line) (lookup scope name line') := by
  refine liveEnv_parallel scope fun env procedures ↦ ?_
  rw [env.get?_withProcedures]
  cases env.get? scope name with
  | some value => exact .pure rfl
  | none => exact fail_parallel _ hline

/-- A change of the environment that leaves the procedures alone and does not look at them. -/
theorem modifyEnv_parallel {f : Environment → Environment}
    (hf : ∀ env procedures, f (env.withProcedures procedures) = (f env).withProcedures procedures)
    (hprocedures : ∀ env, (f env).procedures = env.procedures) :
    Parallel R Eq (modifyEnv f) (modifyEnv f) := by
  rintro _ _ ⟨env, procedures, console, journal, journal', h⟩
  rw [modifyEnv_apply, modifyEnv_apply]
  dsimp only
  rw [hf]
  rw [← hprocedures] at h
  exact .ok rfl (.intro (f env) procedures console journal journal' h)

/-- What is noted of an assignment may differ, the assignment does not. -/
theorem assign_parallel (scope : ScopeId) (name : String) (value : Word) :
    Parallel R Eq (assign scope name value) (assign scope name value) :=
  liveEnv_parallel scope fun _ _ ↦ (note_parallel _ _).bind fun _ _ _ ↦
    modifyEnv_parallel (fun env procedures ↦ env.set_withProcedures procedures scope name value)
      fun _ ↦ rfl

theorem declare_parallel (scope : ScopeId) (name : String) (value : Word) :
    Parallel R Eq (declare scope name value) (declare scope name value) :=
  liveEnv_parallel scope fun _ _ ↦ modifyEnv_parallel (fun _ _ ↦ rfl) fun _ ↦ rfl

/-- The sink takes the line on both sides, or fails on both for the same cause. -/
theorem display_parallel (value : Word) (hline : R line line') :
    Parallel R Eq (display value line) (display value line') := by
  intro m m' hm
  rw [display_apply, display_apply, hm.console_eq]
  cases (m.console.display value).1 with
  | none => exact .ok rfl (hm.withConsole _)
  | some failure => exact .error (.fault _ hline) (hm.withConsole _)

/-- The same line of input is taken on both sides. -/
theorem readWord_parallel {target target' : ReadTarget} (h : target.Moved R target') :
    Parallel R Eq (readWord target) (readWord target') := by
  obtain ⟨name, hline⟩ := h
  rintro _ _ ⟨env, procedures, console, journal, journal', h⟩
  exact orFail_parallel (console.read name).1 hline _ _
    (.intro env procedures (console.read name).2 journal journal' h)

/-- A word is read and assigned; the variable is the same, and only the line on which it stands is
moved. -/
theorem readInto_parallel (scope : ScopeId) {target target' : ReadTarget}
    (h : target.Moved R target') :
    Parallel R Eq (readInto scope target) (readInto scope target') := by
  refine (readWord_parallel h).bind fun value _ hvalue ↦ (note_parallel _ _).bind fun _ _ _ ↦ ?_
  obtain ⟨name, hline⟩ := h
  subst hvalue
  exact assign_parallel scope name value

/-! ### Procedures -/

/-- The procedures that are found differ, though only in lines, so that this is no case of equal
results. -/
theorem procedure_parallel (name : String) (hline : R line line') :
    Parallel R (Procedure.Moved R) (procedure name line) (procedure name line') := by
  intro m m' hm
  have hfound := hm.procedure? name
  rw [procedure_apply, procedure_apply]
  revert hfound
  generalize m.env.procedure? name = found, m'.env.procedure? name = found'
  intro hfound
  cases hfound with
  | none => exact .error (.fault _ hline) hm
  | some hp => exact .ok hp hm

/-- Lines are no part of what a call is checked against. -/
theorem checkCall_parallel (name : String) (arguments : Nat) (hline : R line line') :
    Parallel R Eq (checkCall name arguments line) (checkCall name arguments line') := by
  refine (procedure_parallel name hline).bind fun p p' hp ↦ ?_
  obtain ⟨name', params, locals, hbody, -⟩ := hp
  exact .ite (.pure rfl) (fail_parallel _ hline)

/-- A procedure is registered on both sides, or its name is taken on both sides and the fault is on
the line of the procedure. -/
theorem register_parallel {p p' : Procedure} (hp : p.Moved R p') :
    Parallel R Eq (register p) (register p') := by
  intro m m' hm
  have hfound := hm.procedure? p.name
  rw [register_eq, register_eq, Environment.register?, Environment.register?, hp.name_eq]
  revert hfound
  generalize m.env.procedure? p.name = found, m'.env.procedure? p.name = found'
  intro hfound
  cases hfound with
  | some _ => exact .error (.fault _ hp.line) hm
  | none =>
    -- the name is taken in neither of the two, and both get the procedure as their last
    obtain ⟨env, procedures, console, journal, journal', h⟩ := hm
    have hadded := List.rel_append h (.cons hp .nil)
    exact .ok rfl (.intro { env with procedures := env.procedures ++ [p] } _ console _ _ hadded)

/-- Procedures are registered one after the other, up to the same one. -/
theorem registerAll_parallel {procedures procedures' : List Procedure}
    (h : List.Forall₂ (Procedure.Moved R) procedures procedures') :
    Parallel R Eq (registerAll procedures) (registerAll procedures') := by
  induction h with
  | nil => exact .pure rfl
  | cons hp _ ih => exact (register_parallel hp).bind fun _ _ _ ↦ ih

/-! ### Calls -/

/-- However two runs have ended, the scope is released on both sides. -/
theorem EndMoved.release {r r' : EStateM.Result Halt Machine α} (h : EndMoved R V r r')
    (scope : ScopeId) : EndMoved R V (release scope r) (Run.release scope r') := by
  cases h with
  | ok ha hm => exact .ok ha (hm.pop scope)
  | error hh hm => exact .error hh (hm.pop scope)

/-- A call is taken off the count on both sides, or off neither where the count has none. -/
theorem EndMoved.uncount {r r' : EStateM.Result Halt Machine α} (h : EndMoved R V r r') :
    EndMoved R V (uncount r) (Run.uncount r') := by
  cases h with
  | @ok _ _ m _ ha hm =>
    simp only [Run.uncount, hm.console_eq]
    cases m.console.leave? with
    | some console => exact .ok ha (hm.withConsole console)
    | none => exact .error .miscounted hm
  | @error _ _ m _ hh hm =>
    simp only [Run.uncount, hm.console_eq]
    cases m.console.leave? with
    | some console => exact .error hh (hm.withConsole console)
    | none => exact .error .miscounted hm

/-- The count of active calls is the same on both sides before the work, and so it can be raised on
both or on neither. -/
theorem asCall_parallel {work work' : Run α} (h : Parallel R V work work') :
    Parallel R V (asCall work) (asCall work') := by
  intro m m' hm
  simp only [asCall, hm.console_eq]
  cases m.console.enter? with
  | some console => exact (h _ _ (hm.withConsole console)).uncount
  | none => exact .error .miscounted hm

/-- The work is done in a scope of the same address, since as many scopes are there on both sides.
-/
theorem inFreshScope_parallel {work work' : ScopeId → Run α}
    (h : ∀ scope, Parallel R V (work scope) (work' scope)) :
    Parallel R V (inFreshScope work) (inFreshScope work') := by
  rintro _ _ ⟨env, procedures, console, journal, journal', hprocedures⟩
  -- a scope is pushed beside the procedures, which are what they were
  have hm := Machine.Moved.intro env.push procedures console journal journal' hprocedures
  exact (h env.nextScope _ _ hm).release env.nextScope

/-- The limit is reached on both sides or on neither. -/
theorem checkDepth_parallel (calls : Nat) (hline : R line line') :
    Parallel R Eq (checkDepth calls line) (checkDepth calls line') := by
  intro m m' hm
  rw [checkDepth_apply, checkDepth_apply, hm.console_eq]
  split
  · exact .ok rfl hm
  · exact .error (.fault _ hline) hm

/-! ### Programs -/

/-- Where the results are equal, the runs after them start from the same value. -/
theorem Parallel.bind_eq {x x' : Run α} {f f' : α → Run β} (hx : Parallel R Eq x x')
    (hf : ∀ a, Parallel R W (f a) (f' a)) : Parallel R W (x >>= f) (x' >>= f') :=
  hx.bind fun a _ ha ↦ ha ▸ hf a

/-- Lines have no influence on a step, so that they have none on expressions. -/
theorem parallel_evalCongruence (scope : ScopeId) :
    EvalCongruence R scope fun _ x x' ↦ Parallel R Eq x x' where
  pure _ := .pure rfl
  bind := Parallel.bind_eq
  apply op a b _ _ hline := orFail_parallel (op.apply a b) hline
  lookup name _ _ hline := lookup_parallel scope name hline
  checkCall name arguments _ _ hline := checkCall_parallel name arguments hline

/-- Nor have they any on statements. -/
theorem parallel_stepCongruence (scope : ScopeId) :
    StepCongruence R scope fun _ x x' ↦ Parallel R Eq x x' where
  toEvalCongruence := parallel_evalCongruence scope
  assign name value := assign_parallel scope name value
  declare name value := declare_parallel scope name value
  display value _ _ hline := display_parallel value hline
  readInto htarget := readInto_parallel scope htarget

/-- Nor on calls. The scopes are the same on both sides, and so is the address of the next one. -/
theorem parallel_callCongruence (bounds : Bounds) :
    CallCongruence R bounds fun _ x x' ↦ Parallel R Eq x x' where
  exec scope := (parallel_stepCongruence scope).withRounds (.throw .outOfRounds) bounds.rounds
  tooDeep hline := fail_parallel _ hline
  checkDepth hline := checkDepth_parallel bounds.calls hline
  procedure name _ _ hline hf := (procedure_parallel name hline).bind hf
  noteCall _ _ _ _ _ := note_parallel _ _
  inCall hwork := inFreshScope_parallel fun t ↦ asCall_parallel (hwork t)

/-! ### Programs -/

/-- **Programs run alike** with their lines moved. -/
theorem runProgram_parallel (bounds : Bounds) {p p' : Program} (h : p.Moved R p') :
    Parallel R Eq (runProgram bounds p) (runProgram bounds p') := by
  refine (registerAll_parallel h.procedures).bind fun _ _ _ ↦ ?_
  have hrules := parallel_callCongruence (R := R) bounds
  exact (hrules.exec .root).execBlock (hrules.invoke bounds.calls) p.statements h.statements

end Run

end TinyProc
