import TinyProc.Run.Basic

/-!
# Running programs

Expressions are evaluated from left to right, statements one after the other. What can go on without
end is bounded from outside, in two ways:

* calls nest at most `Bounds.calls` deep. This limit is part of the language: the call beyond it is
  a fault, and the count of active calls at the console decides which that is;
* a loop goes at most `Bounds.rounds` times through its body. This limit is not part of the
  language: a loop that uses it up halts as `Halt.outOfRounds`, and with more rounds the run goes
  further.

Evaluation and execution are written over the way a call is carried out (`Caller`), and recurse on
the syntax tree. The knot is tied by `invoke`, which recurses on a number of calls that may still be
nested. That number only has to be large enough: every call adds one to the count and takes one from
the number, so that, from `Bounds.calls` on, the count reaches the limit no later than the number
reaches zero.
-/

namespace TinyProc

/-- The bounds on a run. -/
structure Bounds where
  /-- How deep calls may be nested. -/
  calls : Nat
  /-- How often a loop may go through its body. -/
  rounds : Nat

/-- How deep calls may be nested unless told otherwise. -/
def defaultCalls : Nat := 64

/-- How a call is carried out, given the name of the procedure, the values of the arguments and the
line of the call. -/
abbrev Caller := String → List Word → Nat → Run Word

namespace Run

/-! ### Expressions -/

mutual

/-- The value of an expression in a scope. -/
def eval (call : Caller) (scope : ScopeId) : Expr → Run Word
  | .number value => pure value
  | .variable name line => lookup scope name line
  | .binary op left right line => do
    let a ← eval call scope left
    let b ← eval call scope right
    orFail (op.apply a b) line
  | .call name arguments line => do
    checkCall name arguments.length line
    let values ← evalAll call scope arguments
    call name values line

/-- The values of expressions, from left to right. -/
def evalAll (call : Caller) (scope : ScopeId) : List Expr → Run (List Word)
  | [] => pure []
  | e :: rest => do
    let value ← eval call scope e
    let values ← evalAll call scope rest
    pure (value :: values)

end

/-! ### Statements -/

/-- Goes through a body as long as a condition is not zero, and not more than so many times. -/
def repeatWhile (condition : Run Word) (body : Run Unit) : (rounds : Nat) → Run Unit
  | 0 => do
    let value ← condition
    if value = .zero then pure () else throw .outOfRounds
  | rounds + 1 => do
    let value ← condition
    if value = .zero then pure ()
    else
      body
      repeatWhile condition body rounds

mutual

/-- Runs a statement in a scope. -/
def exec (call : Caller) (rounds : Nat) (scope : ScopeId) : Statement → Run Unit
  | .assign name value _ => do
    let v ← eval call scope value
    assign scope name v
  | .display value attached line => do
    let v ← eval call scope value
    display v line
    readAttached scope attached
  | .read target => readInto scope target
  | .branch condition thenBlock elseBlock _ => do
    let v ← eval call scope condition
    if v = .zero then execElse call rounds scope elseBlock
    else execBlock call rounds scope thenBlock
  | .loop condition body _ =>
    repeatWhile (eval call scope condition) (execBlock call rounds scope body) rounds

/-- Runs the statements of a block in a scope. -/
def execBlock (call : Caller) (rounds : Nat) (scope : ScopeId) : List Statement → Run Unit
  | [] => pure ()
  | s :: rest => do
    exec call rounds scope s
    execBlock call rounds scope rest

/-- Runs a block that may be missing. -/
def execElse (call : Caller) (rounds : Nat) (scope : ScopeId) :
    Option (List Statement) → Run Unit
  | none => pure ()
  | some block => execBlock call rounds scope block

end

/-! ### Calls -/

/-- What a call binds in its scope: the return slot and the locals to zero, the parameters to the
values of the arguments. -/
def frame (p : Procedure) (values : List Word) : List (String × Word) :=
  (p.name, .zero) :: (p.params.zip values ++ p.locals.map fun name ↦ (name, .zero))

/-- The names of a frame are those that the procedure binds, if there are as many values as
parameters. -/
theorem map_fst_frame {p : Procedure} {values : List Word} (h : values.length = p.params.length) :
    (frame p values).map Prod.fst = p.boundNames := by
  simp only [frame, List.map_cons, List.map_append, List.map_map, Procedure.boundNames]
  rw [List.map_fst_zip (Nat.le_of_eq h.symm)]
  simp [Function.comp_def]

/-- Runs the body of a procedure in a scope that holds its frame, and returns what is left in the
return slot. -/
def runBody (call : Caller) (rounds : Nat) (p : Procedure) (values : List Word)
    (scope : ScopeId) : Run Word := do
  declareAll scope (frame p values)
  execBlock call rounds scope p.body
  lookup scope p.name p.line

/-- Carries out a call where so many calls may still be nested. -/
def invoke (bounds : Bounds) : (left : Nat) → Caller
  | 0, _, _, line => fail (.callsTooDeep bounds.calls) line
  | left + 1, name, values, line => do
    checkDepth bounds.calls line
    let p ← procedure name line
    note (.called name values line)
    inFreshScope fun scope ↦
      asCall (runBody (invoke bounds left) bounds.rounds p values scope)

/-- Carries out a call. -/
def call (bounds : Bounds) : Caller :=
  invoke bounds bounds.calls

/-! ### Programs -/

/-- The value of an expression in a scope. -/
def evaluate (bounds : Bounds) (scope : ScopeId) (e : Expr) : Run Word :=
  eval (call bounds) scope e

/-- Runs a statement in a scope. -/
def runStatement (bounds : Bounds) (scope : ScopeId) (s : Statement) : Run Unit :=
  exec (call bounds) bounds.rounds scope s

/-- Runs a block in a scope. -/
def runBlock (bounds : Bounds) (scope : ScopeId) (block : Block) : Run Unit :=
  execBlock (call bounds) bounds.rounds scope block

/-- Runs a program: registers its procedures, then runs its statements on the globals. -/
def runProgram (bounds : Bounds) (p : Program) : Run Unit := do
  registerAll p.procedures
  runBlock bounds .root p.statements

end Run

end TinyProc
