import TinyProc.Proofs.Run.Composition

/-!
# What expressions leave alone

Evaluating an expression creates no variable and destroys none, even where the procedures it calls
assign to names that nothing binds. Such a name is bound in the scope of the call, and that scope is
gone when the expression has its value. What may be left of a call is another value of a global that
was there before (`Environment.SameVariables`).

An expression without calls leaves nothing at all. It looks variables up and applies operators, and
the machine is the same afterwards, whether there is a value or a fault (`eval_leavesMachine`).
-/

namespace TinyProc

/-- Whether there is no call in an expression. -/
def Expr.isCallFree : Expr → Bool
  | .number _ | .variable _ _ => true
  | .binary _ left right _ => left.isCallFree && right.isCallFree
  | .call _ _ _ => false

/-- Two environments with the same scopes and the same variables in them, where only the globals may
have other values. -/
structure Environment.SameVariables (env env' : Environment) : Prop where
  /-- There are as many scopes. -/
  depth : env'.depth = env.depth
  /-- Every scope but the globals holds the same variables with the same values. -/
  locals : ∀ t : ScopeId, t ≠ .root → env'.bindings t = env.bindings t
  /-- The globals have the same names. -/
  globals : ∀ n : String, env'.Binds .root n ↔ env.Binds .root n

/-- Where no scope may get new names, the variables are the same. -/
theorem Machine.Frame.sameVariables {m m' : Machine} (h : m.Frame none m') :
    m.env.SameVariables m'.env where
  depth := h.depth
  locals t ht := h.others t ht nofun
  globals n := ⟨h.names .root n nofun, h.bound .root n⟩

namespace Run

variable {α β : Type} {s : ScopeId} {call : Caller}

/-! ### Runs that change nothing -/

/-- A run that leaves the machine as it has found it. -/
def LeavesMachine (x : Run α) : Prop :=
  ∀ m : Machine, stateLeft (x m) = m

theorem LeavesMachine.bind {x : Run α} {f : α → Run β} (hx : LeavesMachine x)
    (hf : ∀ a, LeavesMachine (f a)) : LeavesMachine (x >>= f) :=
  stateLeft_bind (R := fun m m' ↦ m' = m) (fun h h' ↦ h'.trans h) hx hf

theorem orFail_leavesMachine (result : Except FaultCause α) (line : Nat) :
    LeavesMachine (orFail result line) := by
  intro m
  cases result <;> rfl

theorem lookup_leavesMachine (name : String) (line : Nat) :
    LeavesMachine (lookup s name line) := by
  intro m
  rw [lookup_eq]
  split
  · cases m.env.get? s name <;> rfl
  · rfl

/-- Without calls there are only variables to look up and operators to apply. -/
theorem eval_leavesMachine : (e : Expr) → e.isCallFree = true → LeavesMachine (eval call s e)
  | .number _, _ => fun _ ↦ rfl
  | .variable name line, _ => lookup_leavesMachine name line
  | .binary op left right line, h => by
    obtain ⟨hleft, hright⟩ := Bool.and_eq_true_iff.1 h
    exact (eval_leavesMachine left hleft).bind fun a ↦
      (eval_leavesMachine right hright).bind fun b ↦ orFail_leavesMachine (op.apply a b) line

/-! ### Expressions -/

/-- **Evaluation creates and destroys no variable.** In every environment that its operations lead
to and from every live scope: however an expression ends, there are the same scopes with the same
variables, and only globals may have other values. If there is no call in it, the environment, the
input and the output are the same. -/
theorem evaluation_keeps_variables {bounds : Bounds} (hbounds : bounds.calls ≤ Console.maxCalls)
    {m : Machine} (henv : m.env.Reachable) {s : ScopeId} (hs : m.env.IsLive s) (e : Expr) :
    m.env.SameVariables (stateLeft (evaluate bounds s e m)).env ∧
      (e.isCallFree = true → stateLeft (evaluate bounds s e m) = m) := by
  have hkept : Kept none m (evaluate bounds s e m) :=
    eval_keeps (call_keeps hbounds) e m ⟨henv.isTwoLevel, hs⟩
  exact ⟨(frame_of_kept hkept).sameVariables, fun hfree ↦ eval_leavesMachine e hfree m⟩

/-- A call, made above the globals, that assigns to a new name, reads into a global and fails on the
second round of its loop. The global has another value then. -/
theorem evaluation_keeps_variables_failing_call :
    let p : Procedure := ⟨"p", ["a"], [],
      [.assign "b" (.variable "a" 2) 2, .loop (.variable "b" 3) [.read ⟨"g", 4⟩] 3], 1⟩
    let env : Environment :=
      { (Environment.empty.declare .root "g" .zero).push with procedures := [p] }
    let m : Machine := ⟨env, .start "7\nx\n".toUTF8.toList .reliable, .silent⟩
    let e : Expr := .binary .add (.call "p" [.number .one] 5) (.variable "g" 5) 5
    let m' := stateLeft (evaluate ⟨64, 10⟩ ⟨1⟩ e m)
    env.Reachable ∧ env.IsLive ⟨1⟩ ∧ env.SameVariables m'.env ∧
      m'.env.global? "g" = some ⟨7, by decide⟩ ∧
      ((Expr.variable "g" 5).isCallFree = true ∧
        stateLeft (evaluate ⟨64, 10⟩ ⟨1⟩ (.variable "g" 5) m) = m) := by
  intro p env m e m'
  have henv : env.Reachable := by
    refine .register (.push (.declare "g" .zero .empty ?_)) rfl
    decide
  have hs : env.IsLive ⟨1⟩ := by decide
  have hbounds : (⟨64, 10⟩ : Bounds).calls ≤ Console.maxCalls := by decide
  exact ⟨henv, hs, (evaluation_keeps_variables (m := m) hbounds henv hs e).1, by decide +kernel,
    rfl, (evaluation_keeps_variables hbounds henv hs (.variable "g" 5)).2 rfl⟩

end Run

end TinyProc
