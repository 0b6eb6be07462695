import TinyProc.Proofs.Run.Reference
import TinyProc.Proofs.Syntax.Renaming

/-!
# Runs in lockstep

Two runs of the reference interpreter that do the same under different names. The state of the
second run is that of the first with another frame, and what the frames have to do with each other
is a `Translation`: what a name is called in the second run, which frame the second run has for a
frame of the first, and which frames occur in the first. Globals, input and output are the same.

Two computations are in `Lockstep` if, from every state of the first and its translation, they end
alike: with the same value in states that are translations again, or with halts that belong
together. Which halts do is left open (`R`).

What has to be known of a translation is said of one name at a time (`Translation.Translates`), and
a tree may use the names that are translated. At a call the translation changes to that of the
procedure called, which `Translation.Carries` its body, and changes back afterwards; the two frames
of the callers play no part in between. Procedures can therefore be translated each in its own way
(`invoke_lockstep`).
-/

namespace TinyProc.Reference

/-! ### Translations -/

/-- How a run is to be seen as a run under other names. -/
structure Translation where
  /-- What a name is called in the other run. -/
  name : String → String
  /-- The frame that the other run has. -/
  frame : Option Bindings → Option Bindings
  /-- The frames that occur. -/
  Occurs : Option Bindings → Prop

namespace Translation

/-- The state that the other run has. -/
def state (τ : Translation) (σ : State) : State :=
  σ.withFrame (τ.frame σ.frame)

/-- The other run does under the other name what the run does under a name. A name that is changed
is always bound, so that no fault can name it. -/
structure Translates (τ : Translation) (name : String) : Prop where
  /-- The variable has the same value. -/
  value : ∀ σ : State, τ.Occurs σ.frame → (τ.state σ).value? (τ.name name) = σ.value? name
  /-- Its value is found if it is called otherwise. -/
  bound : ∀ σ : State, τ.Occurs σ.frame → σ.value? name = none → τ.name name = name
  /-- It is assigned to in the same place. -/
  assign : ∀ (σ : State) (value : Word), τ.Occurs σ.frame →
    (τ.state σ).assign (τ.name name) value = τ.state (σ.assign name value)
  /-- What is assigned to still occurs. -/
  occurs : ∀ (σ : State) (value : Word), τ.Occurs σ.frame →
    τ.Occurs (σ.assign name value).frame

end Translation

/-! ### Computations -/

/-- Halts because there is no input left to read into a variable. -/
def exhausted (target : ReadTarget) : Halt :=
  .fault ⟨.inputExhausted target.name, target.line⟩

/-- Two endings that belong together. -/
inductive Ends {α : Type} (τ : Translation) (R : Halt → Halt → Prop) :
    EStateM.Result Halt State α → EStateM.Result Halt State α → Prop
  | ok {a : α} {σ : State} (hσ : τ.Occurs σ.frame) : Ends τ R (.ok a σ) (.ok a (τ.state σ))
  | error {h h' : Halt} {σ : State} (hR : R h h') :
    Ends τ R (.error h σ) (.error h' (τ.state σ))

/-- Two computations that end alike wherever they start alike. -/
def Lockstep {α : Type} (τ : Translation) (R : Halt → Halt → Prop) (x x' : Action α) : Prop :=
  ∀ σ, τ.Occurs σ.frame → Ends τ R (x σ) (x' (τ.state σ))

variable {α β : Type} {τ : Translation} {R : Halt → Halt → Prop}

namespace Lockstep

theorem pure (a : α) : Lockstep τ R (pure a) (pure a) :=
  fun _ hσ ↦ .ok hσ

/-- Two halts that belong together, thrown from states that are translations. -/
theorem throw {h h' : Halt} (hR : R h h') : Lockstep τ R (throw h : Action α) (throw h') :=
  fun _ _ ↦ .error hR

/-- A sequence. Of the value that is handed on it may be used that the first step has returned it.
-/
theorem bind {x x' : Action α} {f f' : α → Action β} (hx : Lockstep τ R x x')
    (hf : ∀ a, (∃ σ σ', x σ = .ok a σ') → Lockstep τ R (f a) (f' a)) :
    Lockstep τ R (x >>= f) (x' >>= f') := by
  intro σ hσ
  have hends := hx σ hσ
  generalize hr : x σ = r at hends
  generalize hr' : x' (τ.state σ) = r' at hends
  cases hends with
  | @ok a σ₁ hσ₁ =>
    rw [bind_of_ok hr, bind_of_ok hr']
    exact hf a ⟨σ, σ₁, hr⟩ σ₁ hσ₁
  | error hR =>
    rw [bind_of_error hr, bind_of_error hr']
    exact .error hR

theorem ite {p : Prop} [Decidable p] {x x' y y' : Action α} (h : Lockstep τ R x x')
    (h' : Lockstep τ R y y') :
    Lockstep τ R (if p then x else y) (if p then x' else y') := by
  split
  · exact h
  · exact h'

end Lockstep

/-- Halts belong to themselves, unless they are about input for a variable. -/
def Reflects (R : Halt → Halt → Prop) : Prop :=
  ∀ h, (∀ target, h ≠ exhausted target) → R h h

/-! ### Single steps -/

/-- Faults name no variable, so they are their own counterparts. The one that does is excluded here.
-/
theorem fail_lockstep (hR : Reflects R) {cause : FaultCause}
    (hcause : ∀ name, cause ≠ .inputExhausted name) (line : Nat) :
    Lockstep τ R (fail cause line : Action α) (fail cause line) := by
  refine .throw (hR _ fun target h ↦ ?_)
  cases h
  exact hcause _ rfl

theorem orFail_lockstep (hR : Reflects R) {result : Except FaultCause α}
    (hresult : ∀ name, result ≠ .error (.inputExhausted name)) (line : Nat) :
    Lockstep τ R (orFail result line) (orFail result line) := by
  cases result with
  | ok a => exact .pure a
  | error cause =>
    exact fail_lockstep hR (fun name h ↦ hresult name (congrArg Except.error h)) line

/-- No operation fails for lack of input. -/
theorem apply_ne_inputExhausted (op : Operator) (left right : Word) (name : String) :
    op.apply left right ≠ .error (.inputExhausted name) := by
  intro h
  obtain hcause | hcause := Operator.apply_eq_error h <;> cases hcause

/-- A fault for a variable without a value names the variable. It is the same fault, since a name
without a value is not changed. -/
theorem lookup_lockstep (hR : Reflects R) {name : String} (hname : τ.Translates name)
    (line : Nat) : Lockstep τ R (lookup name line) (lookup (τ.name name) line) := by
  intro σ hσ
  rw [lookup_apply, lookup_apply, hname.value σ hσ]
  cases hvalue : σ.value? name with
  | some value => exact .ok hσ
  | none =>
    rw [hname.bound σ hσ hvalue]
    exact fail_lockstep hR (by simp) line σ hσ

/-- An assignment leads to states that are translations again, and the frame of the first still
occurs. -/
theorem assign_lockstep {name : String} (hname : τ.Translates name) (value : Word) :
    Lockstep τ R (assign name value) (assign (τ.name name) value) := by
  intro σ hσ
  show Ends τ R (.ok () _) (.ok () ((τ.state σ).assign (τ.name name) value))
  rw [hname.assign σ value hσ]
  exact .ok (hname.occurs σ value hσ)

/-- What is displayed is the same value, on the same console. -/
theorem display_lockstep (hR : Reflects R) (value : Word) (line : Nat) :
    Lockstep τ R (display value line) (display value line) := by
  intro σ hσ
  rw [display_apply, display_apply]
  have hconsole : (τ.state σ).console = σ.console := rfl
  rw [hconsole]
  cases (σ.console.display value).1 with
  | none => exact .ok hσ
  | some failure => exact .error (hR _ fun _ h ↦ nomatch h)

/-- For which variable a line of input is read makes no difference but to the fault that there is
none. -/
theorem readLine_cases (name name' : String) (line : List UInt8) :
    (Console.readLine name line = .error (.inputExhausted name) ∧
      Console.readLine name' line = .error (.inputExhausted name')) ∨
    Console.readLine name line = Console.readLine name' line ∧
      ∀ other, Console.readLine name line ≠ .error (.inputExhausted other) := by
  unfold Console.readLine
  split
  · exact .inl ⟨rfl, rfl⟩
  · refine .inr ⟨rfl, fun other ↦ ?_⟩
    split
    · nofun
    · dsimp only
      split <;> nofun

/-- Reads consume the same line. Only if there is none do the runs halt in different ways, each with
its own name for the variable. -/
theorem readInto_lockstep (hR : Reflects R) {target : ReadTarget}
    (hname : τ.Translates target.name)
    (htarget : R (exhausted target) (exhausted (target.rename τ.name))) :
    Lockstep τ R (readInto target) (readInto (target.rename τ.name)) := by
  intro σ hσ
  -- the line is taken off the console first, whatever it is for; then the runs differ in a name
  have hread : ∀ (target : ReadTarget) (σ : State), readInto target σ =
      (orFail (Console.readLine target.name (Console.splitLine σ.console.input).1) target.line >>=
        fun value ↦ assign target.name value)
        { σ with console :=
            { σ.console with input := (Console.splitLine σ.console.input).2 } } :=
    fun _ _ ↦ rfl
  obtain ⟨σ', hσ'⟩ : ∃ σ' : State, σ' = { σ with console :=
      { σ.console with input := (Console.splitLine σ.console.input).2 } } := ⟨_, rfl⟩
  have hread' : readInto (target.rename τ.name) (τ.state σ) =
      (orFail (Console.readLine (τ.name target.name) (Console.splitLine σ.console.input).1)
        target.line >>= fun value ↦ assign (τ.name target.name) value) (τ.state σ') :=
    hσ' ▸ hread _ _
  rw [hread', hread, ← hσ']
  have hoccurs : τ.Occurs σ'.frame := hσ' ▸ hσ
  obtain ⟨hnone, hnone'⟩ | ⟨hsame, hsome⟩ := readLine_cases target.name (τ.name target.name)
    (Console.splitLine σ.console.input).1
  · rw [hnone, hnone']
    exact .error htarget
  · rw [← hsame]
    exact (orFail_lockstep hR hsome target.line).bind (fun value _ ↦ assign_lockstep hname value)
      σ' hoccurs

/-! ### Expressions and statements -/

/-- The procedure that is declared under a name. -/
def found (procedures : List Procedure) (name : String) : Option Procedure :=
  procedures.find? (·.name = name)

theorem procedure_eq (procedures : List Procedure) (name : String) (line : Nat) :
    procedure procedures name line =
      match found procedures name with
      | some p => pure p
      | none => fail (.unknownProcedure name) line :=
  rfl

/-- Calls have to go to procedures with the same number of parameters. -/
def SameArities (procedures procedures' : List Procedure) : Prop :=
  ∀ name, (found procedures name).map (·.params.length) =
    (found procedures' name).map (·.params.length)

/-- Calls that are carried out alike, if they have as many arguments as there are parameters. -/
def CallsLockstep (τ : Translation) (R : Halt → Halt → Prop) (procedures : List Procedure)
    (call call' : Caller) : Prop :=
  ∀ (p : Procedure) (name : String) (values : List Word) (line : Nat),
    found procedures name = some p → p.params.length = values.length →
      Lockstep τ R (call name values line) (call' name values line)

/-- The check of a call needs to know of the procedure only how many parameters it has. -/
theorem checkCall_eq (procedures : List Procedure) (name : String) (arguments line : Nat) :
    checkCall procedures name arguments line =
      match (found procedures name).map (·.params.length) with
      | none => fail (.unknownProcedure name) line
      | some parameters =>
        if parameters = arguments then pure ()
        else fail (.arityMismatch name parameters arguments) line := by
  rw [checkCall, procedure_eq]
  cases found procedures name <;> rfl

/-- There are as many values as arguments. This is what a call relies on, which the check in front
of it has compared with the parameters. -/
theorem length_of_evalAll {procedures : List Procedure} {call : Caller} {es : List Expr}
    {values : List Word} {σ σ' : State}
    (h : evalAll procedures call es σ = .ok values σ') : values.length = es.length := by
  induction es generalizing values σ with
  | nil =>
    cases h
    rfl
  | cons e es ih =>
    obtain ⟨value, σ₁, -, h⟩ := exists_of_bind_eq_ok h
    obtain ⟨others, σ₂, hes, h⟩ := exists_of_bind_eq_ok h
    cases h
    exact congrArg Nat.succ (ih hes)

section Syntax

variable {procedures procedures' : List Procedure} {call call' : Caller}

mutual

/-- An expression and the one with other names. The check of a call comes out alike by the arities,
before any argument is evaluated. -/
theorem eval_lockstep (hR : Reflects R) (harities : SameArities procedures procedures')
    (hcall : CallsLockstep τ R procedures call call') :
    (e : Expr) → (∀ name ∈ e.variables, τ.Translates name) →
      Lockstep τ R (eval procedures call e) (eval procedures' call' (e.rename τ.name))
  | .number value, _ => .pure value
  | .variable name line, h => lookup_lockstep hR (h name (List.mem_singleton_self _)) line
  | .binary op left right line, h => by
    rw [Expr.variables, List.forall_mem_append] at h
    refine .bind (eval_lockstep hR harities hcall left h.1) fun a _ ↦ ?_
    refine .bind (eval_lockstep hR harities hcall right h.2) fun b _ ↦ ?_
    exact orFail_lockstep hR (apply_ne_inputExhausted op a b) line
  | .call name arguments line, h => by
    rw [eval, Expr.rename, eval, checkCall_eq, checkCall_eq, ← harities name,
      Expr.length_renameAll]
    cases hfound : found procedures name with
    | none => exact .bind (fail_lockstep hR (by simp) line) fun _ ⟨_, _, h⟩ ↦ nomatch h
    | some p =>
      rw [Option.map_some]
      by_cases harity : p.params.length = arguments.length
      case neg =>
        simp only [harity, if_false]
        exact .bind (fail_lockstep hR (by simp) line) fun _ ⟨_, _, h⟩ ↦ nomatch h
      simp only [harity, if_true]
      refine .bind (.pure ()) fun _ _ ↦ ?_
      refine .bind (evalAll_lockstep hR harities hcall arguments h) fun values hvalues ↦ ?_
      obtain ⟨σ, σ', hvalues⟩ := hvalues
      exact hcall p name values line hfound (harity.trans (length_of_evalAll hvalues).symm)

/-- Arguments, from left to right. -/
theorem evalAll_lockstep (hR : Reflects R) (harities : SameArities procedures procedures')
    (hcall : CallsLockstep τ R procedures call call') :
    (es : List Expr) → (∀ name ∈ Expr.variablesAll es, τ.Translates name) →
      Lockstep τ R (evalAll procedures call es)
        (evalAll procedures' call' (Expr.renameAll τ.name es))
  | [], _ => .pure []
  | e :: rest, h => by
    rw [Expr.variablesAll, List.forall_mem_append] at h
    refine .bind (eval_lockstep hR harities hcall e h.1) fun _ _ ↦ ?_
    exact .bind (evalAll_lockstep hR harities hcall rest h.2) fun _ _ ↦ .pure _

end

/-- Loops go as many rounds, and if they run out of them they do so together. -/
theorem repeatWhile_lockstep (hR : Reflects R) {condition condition' : Action Word}
    {body body' : Action Unit} (hcondition : Lockstep τ R condition condition')
    (hbody : Lockstep τ R body body') (rounds : Nat) :
    Lockstep τ R (repeatWhile condition body rounds) (repeatWhile condition' body' rounds) := by
  induction rounds with
  | zero => exact .bind hcondition fun _ _ ↦ .ite (.pure ()) (.throw (hR _ (by simp [exhausted])))
  | succ rounds ih =>
    exact .bind hcondition fun _ _ ↦ .ite (.pure ()) (.bind hbody fun _ _ ↦ ih)

/-- The halts for lack of input belong together for each of the reads. -/
def RelatesReads (τ : Translation) (R : Halt → Halt → Prop) (reads : List ReadTarget) : Prop :=
  ∀ target ∈ reads, R (exhausted target) (exhausted (target.rename τ.name))

mutual

/-- A statement and the one with other names. Besides its variables, its reads are asked for: the
halts that differ come from them. -/
theorem exec_lockstep (hR : Reflects R) (harities : SameArities procedures procedures')
    (hcall : CallsLockstep τ R procedures call call') (rounds : Nat) :
    (s : Statement) → (∀ name ∈ s.variables, τ.Translates name) → RelatesReads τ R s.reads →
      Lockstep τ R (exec procedures call rounds s)
        (exec procedures' call' rounds (s.rename τ.name))
  | .assign name value _, h, _ => by
    rw [Statement.variables, List.forall_mem_cons] at h
    refine .bind (eval_lockstep hR harities hcall value h.2) fun v _ ↦ ?_
    exact assign_lockstep h.1 v
  | .display value attached line, h, hreads => by
    rw [Statement.variables, List.forall_mem_append] at h
    refine .bind (eval_lockstep hR harities hcall value h.1) fun v _ ↦ ?_
    refine .bind (display_lockstep hR v line) fun _ _ ↦ ?_
    cases attached with
    | none => exact .pure ()
    | some target =>
      exact readInto_lockstep hR (h.2 target.name (List.mem_singleton_self _))
        (hreads target (List.mem_singleton_self _))
  | .read target, h, hreads =>
    readInto_lockstep hR (h target.name (List.mem_singleton_self _))
      (hreads target (List.mem_singleton_self _))
  | .branch condition thenBlock elseBlock _, h, hreads => by
    rw [Statement.variables, List.forall_mem_append, List.forall_mem_append] at h
    rw [RelatesReads, Statement.reads, List.forall_mem_append] at hreads
    refine .bind (eval_lockstep hR harities hcall condition h.1) fun v _ ↦ ?_
    exact .ite (execElse_lockstep hR harities hcall rounds elseBlock h.2.2 hreads.2)
      (execBlock_lockstep hR harities hcall rounds thenBlock h.2.1 hreads.1)
  | .loop condition body _, h, hreads => by
    rw [Statement.variables, List.forall_mem_append] at h
    exact repeatWhile_lockstep hR (eval_lockstep hR harities hcall condition h.1)
      (execBlock_lockstep hR harities hcall rounds body h.2 hreads) rounds

theorem execBlock_lockstep (hR : Reflects R) (harities : SameArities procedures procedures')
    (hcall : CallsLockstep τ R procedures call call') (rounds : Nat) :
    (block : List Statement) → (∀ name ∈ Statement.variablesAll block, τ.Translates name) →
      RelatesReads τ R (Statement.readsAll block) →
        Lockstep τ R (execBlock procedures call rounds block)
          (execBlock procedures' call' rounds (Statement.renameAll τ.name block))
  | [], _, _ => .pure ()
  | s :: rest, h, hreads => by
    rw [Statement.variablesAll, List.forall_mem_append] at h
    rw [RelatesReads, Statement.readsAll, List.forall_mem_append] at hreads
    refine .bind (exec_lockstep hR harities hcall rounds s h.1 hreads.1) fun _ _ ↦ ?_
    exact execBlock_lockstep hR harities hcall rounds rest h.2 hreads.2

/-- The second block, which both have or neither. -/
theorem execElse_lockstep (hR : Reflects R) (harities : SameArities procedures procedures')
    (hcall : CallsLockstep τ R procedures call call') (rounds : Nat) :
    (block? : Option (List Statement)) →
      (∀ name ∈ Statement.variablesElse block?, τ.Translates name) →
        RelatesReads τ R (Statement.readsElse block?) →
          Lockstep τ R (execElse procedures call rounds block?)
            (execElse procedures' call' rounds (Statement.renameElse τ.name block?))
  | none, _, _ => .pure ()
  | some block, h, hreads => execBlock_lockstep hR harities hcall rounds block h hreads

end

end Syntax

/-! ### Calls -/

/-- A procedure and another one that does the same under the names of a translation. -/
structure Translation.Carries (τ : Translation) (R : Halt → Halt → Prop) (p p' : Procedure) :
    Prop where
  /-- The name is the same. -/
  name : p'.name = p.name
  /-- The line is the same. -/
  line : p'.line = p.line
  /-- There are as many parameters. -/
  params : p'.params.length = p.params.length
  /-- The body is the same under the other names. -/
  body : p'.body = Statement.renameAll τ.name p.body
  /-- The variables in the body are translated. -/
  names : ∀ name ∈ Statement.variablesAll p.body, τ.Translates name
  /-- The halts for lack of input in the body belong together. -/
  reads : RelatesReads τ R (Statement.readsAll p.body)
  /-- A frame to start with occurs. -/
  occurs : ∀ values, p.params.length = values.length → τ.Occurs (some (newFrame p values))
  /-- It is the frame that the other procedure starts with. -/
  frame : ∀ values, τ.frame (some (newFrame p values)) = some (newFrame p' values)
  /-- The return slot has the same value. -/
  slot : ∀ frame, τ.Occurs frame →
    (τ.frame frame).bind (·.get? p.name) = frame.bind (·.get? p.name)

/-- Under every name there is no procedure in either list, or there are two that do the same. Each
pair may have a translation of its own. -/
def Corresponds (R : Halt → Halt → Prop) (procedures procedures' : List Procedure) : Prop :=
  ∀ name, (found procedures name = none ∧ found procedures' name = none) ∨
    ∃ (τ : Translation) (p p' : Procedure),
      found procedures name = some p ∧ found procedures' name = some p' ∧ τ.Carries R p p'

section Calls

variable {procedures procedures' : List Procedure} {p p' : Procedure}

/-- Procedures that do the same have as many parameters. -/
theorem Corresponds.sameArities (h : Corresponds R procedures procedures') :
    SameArities procedures procedures' := by
  intro name
  obtain ⟨hnone, hnone'⟩ | ⟨τ, p, p', hfound, hfound', hcarries⟩ := h name
  · rw [hnone, hnone']
  · rw [hfound, hfound', Option.map_some, Option.map_some, hcarries.params]

theorem returned_apply (p : Procedure) (σ : State) :
    returned p σ = (match σ.frame.bind (·.get? p.name) with
      | some value => pure value
      | none => fail (.undefinedVariable p.name) p.line : Action Word) σ := rfl

/-- The return slot is read in the frame alone, never among the globals. -/
theorem returned_lockstep (hR : Reflects R) (h : τ.Carries R p p') :
    Lockstep τ R (returned p) (returned p') := by
  intro σ hσ
  have hslot : (τ.state σ).frame.bind (·.get? p.name) = σ.frame.bind (·.get? p.name) :=
    h.slot σ.frame hσ
  rw [returned_apply, returned_apply, h.name, h.line, hslot]
  cases σ.frame.bind (·.get? p.name) with
  | some value => exact .ok hσ
  | none => exact fail_lockstep hR (by simp) p.line σ hσ

/-- Work in frames of its own. The frames of the callers are put back, and it makes no difference
how they are translated. -/
theorem inFrame_lockstep {ρ : Translation} {frame frame' : Bindings} {work work' : Action α}
    (hoccurs : τ.Occurs (some frame)) (hframe : τ.frame (some frame) = some frame')
    (hwork : Lockstep τ R work work') :
    Lockstep ρ R (inFrame frame work) (inFrame frame' work') := by
  intro σ hσ
  have hends := hwork (σ.withFrame (some frame)) hoccurs
  have hstate : τ.state (σ.withFrame (some frame)) = (ρ.state σ).withFrame (some frame') := by
    show σ.withFrame (τ.frame (some frame)) = σ.withFrame (some frame')
    rw [hframe]
  rw [hstate] at hends
  rw [inFrame, inFrame]
  generalize work (σ.withFrame (some frame)) = r at hends
  generalize work' ((ρ.state σ).withFrame (some frame')) = r' at hends
  cases hends with
  | ok _ => exact .ok hσ
  | error hR => exact .error hR

/-- **Calls are in lockstep** wherever they are made from, if the procedures correspond. -/
theorem invoke_lockstep (hR : Reflects R) (h : Corresponds R procedures procedures')
    (bounds : Bounds) (left : Nat) (ρ : Translation) :
    CallsLockstep ρ R procedures (invoke procedures bounds left)
      (invoke procedures' bounds left) := by
  induction left generalizing ρ with
  | zero =>
    intro _ name values line _ _
    exact fail_lockstep hR (by simp) line
  | succ left ih =>
    intro q name values line hfound harity
    obtain ⟨hnone, -⟩ | ⟨τ, p, p', hp, hp', hcarries⟩ := h name
    · cases hfound.symm.trans hnone
    · obtain rfl : q = p := Option.some.inj (hfound.symm.trans hp)
      rw [invoke, invoke, procedure_eq, procedure_eq, hp, hp']
      -- in the body the translation is that of the procedure, and calls are made from there
      refine inFrame_lockstep (hcarries.occurs values harity) (hcarries.frame values) ?_
      rw [hcarries.body]
      refine .bind ?_ fun _ _ ↦ returned_lockstep hR hcarries
      exact execBlock_lockstep hR h.sameArities (ih τ) bounds.rounds q.body hcarries.names
        hcarries.reads

end Calls

end TinyProc.Reference
