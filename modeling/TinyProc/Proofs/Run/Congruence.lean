import TinyProc.Proofs.Lines.Trees
import TinyProc.Run.Evaluation

/-!
# Congruences of runs

Two runs of the interpreter on the same program, or on two programs that differ in their lines, take
the same steps and put them together in the same way. A relation between runs that the steps respect
and that follows the ways in which they are put together is a congruence, and it relates the two
runs. Three things may differ between them: the lines (`R`), the way in which calls are carried out,
and the rounds that a loop is given.

There is one structure of closure rules for each part of the interpreter: `EvalCongruence` for
expressions, `StepCongruence` for the other steps and `ExecCongruence` for statements and the bodies
of procedures, `CallCongruence` for calls. The induction along the syntax is made here once
(`EvalCongruence.eval`, `ExecCongruence.exec`), and so is the one along the calls that may still be
nested (`CallCongruence.invoke`). A property of single runs is a relation that does not look at the
first of the two, so that it needs no induction of its own either.

The rule for loops is about whole loops, since two runs with different rounds do not stop in the
same place. Where the rounds are the same it follows from the other rules
(`StepCongruence.withRounds`).
-/

namespace TinyProc.Run

/-! ### Rules -/

/-- A relation between runs that evaluation in a scope respects. -/
structure EvalCongruence (R : Nat → Nat → Prop) (s : ScopeId)
    (P : (α : Type) → Run α → Run α → Prop) : Prop where
  /-- Nothing is done. -/
  pure {α : Type} (a : α) : P α (pure a) (pure a)
  /-- One run after another. -/
  bind {α β : Type} {x x' : Run α} {f f' : α → Run β} (hx : P α x x')
    (hf : ∀ a, P β (f a) (f' a)) : P β (x >>= f) (x' >>= f')
  /-- An operator is applied. -/
  apply (op : Operator) (a b : Word) {line line' : Nat} (hline : R line line') :
    P Word (orFail (op.apply a b) line) (orFail (op.apply a b) line')
  /-- A variable is looked up. -/
  lookup (name : String) {line line' : Nat} (hline : R line line') :
    P Word (lookup s name line) (lookup s name line')
  /-- It is made sure that there is a procedure for a call. -/
  checkCall (name : String) (arguments : Nat) {line line' : Nat} (hline : R line line') :
    P Unit (checkCall name arguments line) (checkCall name arguments line')

/-- A relation between runs that every step of execution in a scope respects. -/
structure StepCongruence (R : Nat → Nat → Prop) (s : ScopeId)
    (P : (α : Type) → Run α → Run α → Prop) : Prop extends EvalCongruence R s P where
  /-- A variable is assigned to. -/
  assign (name : String) (value : Word) : P Unit (assign s name value) (assign s name value)
  /-- A variable is declared. -/
  declare (name : String) (value : Word) : P Unit (declare s name value) (declare s name value)
  /-- A word is displayed. -/
  display (value : Word) {line line' : Nat} (hline : R line line') :
    P Unit (display value line) (display value line')
  /-- A word is read into a variable. -/
  readInto {target target' : ReadTarget} (htarget : target.Moved R target') :
    P Unit (readInto s target) (readInto s target')

/-- A relation between runs that execution in a scope respects, where loops are given so many rounds
in the first run and in the second. -/
structure ExecCongruence (R : Nat → Nat → Prop) (s : ScopeId) (rounds rounds' : Nat)
    (P : (α : Type) → Run α → Run α → Prop) : Prop extends StepCongruence R s P where
  /-- A loop. -/
  loop {condition condition' : Run Word} {body body' : Run Unit}
    (hcondition : P Word condition condition') (hbody : P Unit body body') :
    P Unit (repeatWhile condition body rounds) (repeatWhile condition' body' rounds')

/-- A relation between runs that calls respect, wherever they are made. -/
structure CallCongruence (R : Nat → Nat → Prop) (bounds : Bounds)
    (P : (α : Type) → Run α → Run α → Prop) : Prop where
  /-- Execution, in every scope. -/
  exec (s : ScopeId) : ExecCongruence R s bounds.rounds bounds.rounds P
  /-- No call may be nested any more. -/
  tooDeep {line line' : Nat} (hline : R line line') :
    P Word (fail (.callsTooDeep bounds.calls) line) (fail (.callsTooDeep bounds.calls) line')
  /-- The limit on calls is asked. -/
  checkDepth {line line' : Nat} (hline : R line line') :
    P Unit (checkDepth bounds.calls line) (checkDepth bounds.calls line')
  /-- A procedure is found, and is the same up to lines. -/
  procedure {α : Type} {f f' : Procedure → Run α} (name : String) {line line' : Nat}
    (hline : R line line') (hf : ∀ p p', p.Moved R p' → P α (f p) (f' p')) :
    P α (procedure name line >>= f) (procedure name line' >>= f')
  /-- A call is noted. -/
  noteCall (name : String) (values : List Word) {line line' : Nat} (hline : R line line') :
    P Unit (note (.called name values line)) (note (.called name values line'))
  /-- The work of a call. -/
  inCall {α : Type} {work work' : ScopeId → Run α} (hwork : ∀ t, P α (work t) (work' t)) :
    P α (inFreshScope fun t ↦ asCall (work t)) (inFreshScope fun t ↦ asCall (work' t))

/-- Two ways to carry out calls that are related wherever the lines of the calls are. -/
def CallersRelated (R : Nat → Nat → Prop) (P : (α : Type) → Run α → Run α → Prop)
    (call call' : Caller) : Prop :=
  ∀ (name : String) (values : List Word) {line line' : Nat}, R line line' →
    P Word (call name values line) (call' name values line')

variable {R : Nat → Nat → Prop} {s : ScopeId} {P : (α : Type) → Run α → Run α → Prop}
  {call call' : Caller}

/-- Where no line is moved, calls are compared line by line. -/
theorem callersRelated_eq
    (h : ∀ name values line, P Word (call name values line) (call' name values line)) :
    CallersRelated Eq P call call' := by
  rintro name values line _ rfl
  exact h name values line

/-- Calls that have a property are related by it, whatever they are compared with. -/
theorem callersRelated_self {P : (α : Type) → Run α → Prop}
    (h : ∀ name values line, P Word (call name values line)) :
    CallersRelated Eq (fun α _ x ↦ P α x) call call :=
  callersRelated_eq h

/-! ### Expressions -/

namespace EvalCongruence

/-- Two ways to go on, of which the same one is taken. -/
theorem ite {α : Type} {x x' y y' : Run α} (hx : P α x x') (hy : P α y y') {p : Prop}
    [Decidable p] : P α (if p then x else y) (if p then x' else y') := by
  split
  · exact hx
  · exact hy

mutual

/-- **Evaluation respects every congruence.** -/
theorem eval (h : EvalCongruence R s P) (hcall : CallersRelated R P call call') :
    (e : Expr) → {e' : Expr} → e.Moved R e' → P Word (eval call s e) (eval call' s e')
  | .number value, _, .number _ => h.pure value
  | .variable _ _, _, .variable name hline => h.lookup name hline
  | .binary _ left right _, _, .binary op hleft hright hline =>
    h.bind (h.eval hcall left hleft) fun a ↦
      h.bind (h.eval hcall right hright) fun b ↦ h.apply op a b hline
  | .call _ arguments _, _, .call name harguments hline => by
    -- the check compares numbers of arguments, which are the same
    rw [Run.eval, Run.eval, harguments.length_eq]
    exact h.bind (h.checkCall name _ hline) fun _ ↦
      h.bind (h.evalAll hcall arguments harguments) fun values ↦ hcall name values hline

/-- Arguments are evaluated from left to right on both sides. -/
theorem evalAll (h : EvalCongruence R s P) (hcall : CallersRelated R P call call') :
    (es : List Expr) → {es' : List Expr} → List.Forall₂ (Expr.Moved R) es es' →
      P (List Word) (evalAll call s es) (evalAll call' s es')
  | [], _, .nil => h.pure []
  | e :: rest, _, .cons he hrest =>
    h.bind (h.eval hcall e he) fun _ ↦ h.bind (h.evalAll hcall rest hrest) fun _ ↦ h.pure _

end

end EvalCongruence

/-! ### Statements -/

open EvalCongruence (ite)

/-- Loops with the same rounds need no rule of their own: they run out of them together. -/
theorem StepCongruence.withRounds (h : StepCongruence R s P)
    (hout : P Unit (throw .outOfRounds) (throw .outOfRounds)) (rounds : Nat) :
    ExecCongruence R s rounds rounds P where
  toStepCongruence := h
  loop hcondition hbody := by
    induction rounds with
    | zero => exact h.bind hcondition fun _ ↦ ite (h.pure ()) hout
    | succ rounds ih => exact h.bind hcondition fun _ ↦ ite (h.pure ()) (h.bind hbody fun _ ↦ ih)

namespace ExecCongruence

variable {rounds rounds' : Nat}

/-- A read that may be missing is missing on both sides or on neither. -/
theorem readAttached (h : ExecCongruence R s rounds rounds' P)
    {attached attached' : Option ReadTarget}
    (hattached : Option.Rel (ReadTarget.Moved R) attached attached') :
    P Unit (readAttached s attached) (readAttached s attached') := by
  cases hattached with
  | none => exact h.pure ()
  | some htarget => exact h.readInto htarget

theorem declareAll (h : ExecCongruence R s rounds rounds' P) (entries : List (String × Word)) :
    P Unit (declareAll s entries) (declareAll s entries) := by
  induction entries with
  | nil => exact h.pure ()
  | cons entry rest ih => exact h.bind (h.declare entry.1 entry.2) fun _ ↦ ih

mutual

/-- **Execution respects every congruence.** -/
theorem exec (h : ExecCongruence R s rounds rounds' P) (hcall : CallersRelated R P call call') :
    (t : Statement) → {t' : Statement} → t.Moved R t' →
      P Unit (exec call rounds s t) (exec call' rounds' s t')
  | .assign _ value _, _, .assign name hvalue _ =>
    h.bind (h.eval hcall value hvalue) fun v ↦ h.assign name v
  | .display value _ _, _, .display hvalue hattached hline =>
    h.bind (h.eval hcall value hvalue) fun v ↦
      h.bind (h.display v hline) fun _ ↦ h.readAttached hattached
  | .read _, _, .read htarget => h.readInto htarget
  | .branch condition thenBlock elseBlock _, _, .branch hcondition hthen helse _ =>
    h.bind (h.eval hcall condition hcondition) fun _ ↦
      ite (h.execElse hcall elseBlock helse) (h.execBlock hcall thenBlock hthen)
  | .loop condition body _, _, .loop hcondition hbody _ =>
    h.loop (h.eval hcall condition hcondition) (h.execBlock hcall body hbody)

theorem execBlock (h : ExecCongruence R s rounds rounds' P)
    (hcall : CallersRelated R P call call') :
    (block : List Statement) → {block' : List Statement} → Block.Moved R block block' →
      P Unit (execBlock call rounds s block) (execBlock call' rounds' s block')
  | [], _, .nil => h.pure ()
  | t :: rest, _, .cons ht hrest =>
    h.bind (h.exec hcall t ht) fun _ ↦ h.execBlock hcall rest hrest

theorem execElse (h : ExecCongruence R s rounds rounds' P)
    (hcall : CallersRelated R P call call') :
    (block? : Option (List Statement)) → {block?' : Option (List Statement)} →
      Option.Rel (Block.Moved R) block? block?' →
        P Unit (execElse call rounds s block?) (execElse call' rounds' s block?')
  | none, _, .none => h.pure ()
  | some block, _, .some hblock => h.execBlock hcall block hblock

end

/-- The body of a procedure, from the declarations to the return slot. -/
theorem runBody (h : ExecCongruence R s rounds rounds' P) (hcall : CallersRelated R P call call')
    {p p' : Procedure} (hp : p.Moved R p') (values : List Word) :
    P Word (runBody call rounds p values s) (runBody call' rounds' p' values s) := by
  obtain ⟨name, params, locals, hbody, hline⟩ := hp
  exact h.bind (h.declareAll _) fun _ ↦
    h.bind (h.execBlock hcall _ hbody) fun _ ↦ h.lookup name hline

end ExecCongruence

/-! ### Calls -/

/-- **Calls respect every congruence**, by induction on the number of calls that may still be
nested. -/
theorem CallCongruence.invoke {bounds : Bounds} (h : CallCongruence R bounds P) (left : Nat) :
    CallersRelated R P (invoke bounds left) (invoke bounds left) := by
  induction left with
  | zero => exact fun _ _ _ _ hline ↦ h.tooDeep hline
  | succ left ih =>
    intro name values line line' hline
    have hrules := h.exec .root
    refine hrules.bind (h.checkDepth hline) fun _ ↦ h.procedure name hline fun p p' hp ↦ ?_
    refine hrules.bind (h.noteCall name values hline) fun _ ↦ ?_
    exact h.inCall fun t ↦ (h.exec t).runBody ih hp values

end TinyProc.Run
