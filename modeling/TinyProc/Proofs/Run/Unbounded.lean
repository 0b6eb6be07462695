import TinyProc.Proofs.Sequencing
import TinyProc.Run.Evaluation

/-!
# An interpreter with unbounded numbers

The interpreter of `TinyProc.Run` once more, with integers of any size in place of words. Sums,
differences and products are exact, quotients are cut off toward zero, and there is no overflow.
Literals are words as they are there, and so is what can be read from the input.

All else is the same, rule by rule: the array of scopes and the way names are resolved in it, the
order of evaluation, the bounds on loops and calls, the sink of the output, and every other fault.
The journal is left out, since nothing depends on it. In its place the machine remembers the
operations that have been carried out between two values, with their results and with what had been
displayed until then (`Machine.performed`). The first of them whose result is no word is what
`firstExcess?` picks out.
-/

namespace TinyProc.Unbounded

/-! ### Operations -/

/-- What an operator computes of two integers. -/
def apply (op : Operator) (left right : Int) : Except FaultCause Int :=
  match op with
  | .add => .ok (left + right)
  | .sub => .ok (left - right)
  | .mul => .ok (left * right)
  | .div => if right = 0 then .error .divisionByZero else .ok (left.tdiv right)
  | .equal => .ok (if left = right then 1 else 0)
  | .notEqual => .ok (if left ≠ right then 1 else 0)
  | .less => .ok (if left < right then 1 else 0)
  | .greater => .ok (if left > right then 1 else 0)
  | .lessEqual => .ok (if left ≤ right then 1 else 0)
  | .greaterEqual => .ok (if left ≥ right then 1 else 0)

/-- There is no overflow. -/
theorem apply_ne_overflow (op : Operator) (left right : Int) :
    apply op left right ≠ .error .overflow := by
  cases op with
  | div =>
    rw [apply]
    split <;> simp
  | _ => simp [apply]

/-- An operation that has been carried out. -/
structure Operation where
  /-- The line of its operator. -/
  line : Nat
  /-- Its exact result. -/
  result : Int
  /-- What had been displayed before it. -/
  output : List Int
deriving DecidableEq

/-- The first operation of a list whose exact result is no word. -/
def firstExcess? (performed : List Operation) : Option Operation :=
  performed.find? fun o ↦ ¬ InRange o.result

/-! ### Environments -/

/-- A scope. -/
structure Scope where
  /-- The variables it binds. -/
  entries : List (String × Int)
  /-- Where a name is looked for that it does not bind. -/
  parent : Option ScopeId

/-- The value of a name in a list of entries. -/
def valueIn? (name : String) : List (String × Int) → Option Int
  | [] => none
  | entry :: rest => if name = entry.1 then some entry.2 else valueIn? name rest

/-- Gives a name a value in a list of entries: in its place if it is bound there, else at the end.
-/
def insertEntry (name : String) (value : Int) : List (String × Int) → List (String × Int)
  | [] => [(name, value)]
  | entry :: rest =>
    if name = entry.1 then (name, value) :: rest else entry :: insertEntry name value rest

/-- The scopes and the procedures. -/
structure Environment where
  /-- The scopes, the globals first. -/
  scopes : Array Scope
  /-- The procedures, in order of registration. -/
  procedures : List Procedure

namespace Environment

/-- Adds an empty scope whose parent is the globals. -/
def push (env : Environment) : Environment :=
  { env with scopes := env.scopes.push ⟨[], some .root⟩ }

/-- Removes a scope and all that were pushed after it. The globals stay. -/
def pop (env : Environment) (scope : ScopeId) : Environment :=
  if scope = .root then env else { env with scopes := env.scopes.take scope.index }

/-- The nearest scope that binds a name, in at most so many steps up through the parents. -/
def climb (env : Environment) (name : String) : (steps : Nat) → ScopeId → Option ScopeId
  | 0, _ => none
  | steps + 1, id =>
    match env.scopes[id.index]? with
    | none => none
    | some scope =>
      if (valueIn? name scope.entries).isSome then some id
      else
        match scope.parent with
        | none => none
        | some parent => env.climb name steps parent

/-- The nearest scope that binds a name. -/
def resolve (env : Environment) (scope : ScopeId) (name : String) : Option ScopeId :=
  env.climb name env.scopes.size scope

/-- The value of a name in one scope, its parents left out. -/
def localValue? (env : Environment) (scope : ScopeId) (name : String) : Option Int :=
  (env.scopes[scope.index]?).bind fun s ↦ valueIn? name s.entries

/-- The value of a name as seen from a scope. -/
def get? (env : Environment) (scope : ScopeId) (name : String) : Option Int :=
  (env.resolve scope name).bind (env.localValue? · name)

/-- Binds a name in the scope itself. -/
def declare (env : Environment) (scope : ScopeId) (name : String) (value : Int) : Environment :=
  { env with
    scopes := env.scopes.modify scope.index fun s ↦
      { s with entries := insertEntry name value s.entries } }

/-- Assigns a value to a name as seen from a scope. -/
def set (env : Environment) (scope : ScopeId) (name : String) (value : Int) : Environment :=
  env.declare ((env.resolve scope name).getD scope) name value

/-- The procedure registered under a name. -/
def procedure? (env : Environment) (name : String) : Option Procedure :=
  env.procedures.find? (·.name = name)

end Environment

/-! ### Machines -/

/-- What a run works on. -/
structure Machine where
  /-- The variables and procedures. -/
  env : Environment
  /-- The bytes not yet read. -/
  input : List UInt8
  /-- The numbers displayed, in order. -/
  output : List Int
  /-- What the output is written to. -/
  sink : Sink
  /-- How many calls are active. -/
  activeCalls : Nat
  /-- The operations carried out, the oldest first. -/
  performed : List Operation

/-- A run with unbounded numbers. -/
abbrev Action := EStateM Halt Machine

/-- Stops with a fault on a line. -/
def fail {α : Type} (cause : FaultCause) (line : Nat) : Action α :=
  throw (.fault ⟨cause, line⟩)

/-- The value, or its fault on a line. -/
def orFail {α : Type} (result : Except FaultCause α) (line : Nat) : Action α :=
  match result with
  | .ok a => pure a
  | .error cause => fail cause line

/-- Carries out an operation and remembers it. -/
def operate (op : Operator) (a b : Int) (line : Nat) : Action Int := do
  let result ← orFail (apply op a b) line
  modify fun m ↦ { m with performed := m.performed ++ [⟨line, result, m.output⟩] }
  pure result

/-! ### Variables -/

/-- Makes sure that a scope is live. -/
def checkLive (scope : ScopeId) : Action Unit := do
  if scope.index < (← get).env.scopes.size then pure () else throw .staleScope

/-- An address is live if it is one of the array of scopes, as it is for words. -/
theorem checkLive_apply (scope : ScopeId) (m : Machine) :
    checkLive scope m =
      if scope.index < m.env.scopes.size then .ok () m else .error .staleScope m := by
  show (if scope.index < m.env.scopes.size then pure () else throw .staleScope : Action Unit) m = _
  split <;> rfl

/-- The value of a variable as seen from a scope. -/
def lookup (scope : ScopeId) (name : String) (line : Nat) : Action Int := do
  checkLive scope
  match (← get).env.get? scope name with
  | some value => pure value
  | none => fail (.undefinedVariable name) line

/-- Assigns a value to a variable as seen from a scope. -/
def assign (scope : ScopeId) (name : String) (value : Int) : Action Unit := do
  checkLive scope
  modify fun m ↦ { m with env := m.env.set scope name value }

/-- Binds a variable in the scope itself. -/
def declare (scope : ScopeId) (name : String) (value : Int) : Action Unit := do
  checkLive scope
  modify fun m ↦ { m with env := m.env.declare scope name value }

/-- Binds several variables in the scope itself. -/
def declareAll (scope : ScopeId) : List (String × Int) → Action Unit
  | [] => pure ()
  | (name, value) :: rest => do
    declare scope name value
    declareAll scope rest

/-! ### Scopes and active calls -/

/-- Releases a scope on the machine that a run has left. -/
def release {α : Type} (scope : ScopeId) :
    EStateM.Result Halt Machine α → EStateM.Result Halt Machine α
  | .ok a m => .ok a { m with env := m.env.pop scope }
  | .error h m => .error h { m with env := m.env.pop scope }

/-- Works in a scope of its own, which is gone afterwards however the work ends. -/
def inFreshScope {α : Type} (work : ScopeId → Action α) : Action α :=
  fun m ↦ release ⟨m.env.scopes.size⟩ (work ⟨m.env.scopes.size⟩ { m with env := m.env.push })

/-- Makes sure that one more call may be active where so many may be at once. -/
def checkDepth (calls : Nat) (line : Nat) : Action Unit := do
  if (← get).activeCalls < calls then pure () else fail (.callsTooDeep calls) line

/-- Takes a call off the count on the machine that a run has left. -/
def uncount {α : Type} : EStateM.Result Halt Machine α → EStateM.Result Halt Machine α
  | .ok a m =>
    if 0 < m.activeCalls then .ok a { m with activeCalls := m.activeCalls - 1 }
    else .error .miscounted m
  | .error h m =>
    if 0 < m.activeCalls then .error h { m with activeCalls := m.activeCalls - 1 }
    else .error .miscounted m

/-- Works as one more active call, which is taken off the count afterwards however the work ends. -/
def asCall {α : Type} (work : Action α) : Action α :=
  fun m ↦
    if m.activeCalls < Console.maxCalls then
      uncount (work { m with activeCalls := m.activeCalls + 1 })
    else .error .miscounted m

/-! ### Input and output -/

/-- Whether the sink takes no more lines. -/
def Machine.isFull (m : Machine) : Bool :=
  match m.sink.capacity with
  | none => false
  | some capacity => capacity ≤ m.output.length

/-- Displays a number and flushes. A full sink takes nothing of the line; if the flush fails, the
line has been written. -/
def display (value : Int) (line : Nat) : Action Unit := do
  if (← get).isFull then fail (.stream .outputFull) line
  else
    modify fun m ↦ { m with output := m.output ++ [value] }
    let m ← get
    if m.sink.failingFlush = some m.output.length then fail (.stream .flushFailed) line
    else pure ()

/-- A line that cannot be flushed is out all the same; a sink that is full takes none. -/
theorem display_apply (value : Int) (line : Nat) (m : Machine) :
    display value line m =
      if m.isFull then .error (.fault ⟨.stream .outputFull, line⟩) m
      else if m.sink.failingFlush = some (m.output ++ [value]).length then
        .error (.fault ⟨.stream .flushFailed, line⟩) { m with output := m.output ++ [value] }
      else .ok () { m with output := m.output ++ [value] } := by
  show (if m.isFull then fail (.stream .outputFull) line
    else do
      modify fun m ↦ { m with output := m.output ++ [value] }
      let m ← get
      if m.sink.failingFlush = some m.output.length then fail (.stream .flushFailed) line
      else pure () : Action Unit) m = _
  split
  · rfl
  · show (if m.sink.failingFlush = some (m.output ++ [value]).length then
        fail (.stream .flushFailed) line else pure () : Action Unit)
      { m with output := m.output ++ [value] } = _
    split <;> rfl

/-- Reads a word for a variable. The line is consumed in any case. -/
def readWord (target : ReadTarget) : Action Int := do
  let (line, rest) := Console.splitLine (← get).input
  modify fun m ↦ { m with input := rest }
  let value ← orFail (Console.readLine target.name line) target.line
  pure value.val

/-- Reads a word into a variable as seen from a scope. -/
def readInto (scope : ScopeId) (target : ReadTarget) : Action Unit := do
  let value ← readWord target
  assign scope target.name value

/-- Performs a read that may be missing. -/
def readAttached (scope : ScopeId) : Option ReadTarget → Action Unit
  | none => pure ()
  | some target => readInto scope target

/-! ### Procedures -/

/-- The procedure registered under a name. -/
def procedure (name : String) (line : Nat) : Action Procedure := do
  match (← get).env.procedure? name with
  | some p => pure p
  | none => fail (.unknownProcedure name) line

/-- Registers a procedure, unless its name is taken. -/
def register (p : Procedure) : Action Unit := do
  match (← get).env.procedure? p.name with
  | some _ => fail (.procedureAlreadyDefined p.name) p.line
  | none => modify fun m ↦ { m with env := { m.env with procedures := m.env.procedures ++ [p] } }

/-- Registers procedures in order, up to the first whose name is taken. -/
def registerAll : List Procedure → Action Unit
  | [] => pure ()
  | p :: rest => do
    register p
    registerAll rest

/-- Makes sure that a call has a procedure and the right number of arguments. -/
def checkCall (name : String) (arguments : Nat) (line : Nat) : Action Unit := do
  let p ← procedure name line
  if p.params.length = arguments then pure ()
  else fail (.arityMismatch name p.params.length arguments) line

/-- How a call is carried out, given the name, the values of the arguments and the line. -/
abbrev Caller := String → List Int → Nat → Action Int

/-! ### Expressions and statements -/

mutual

/-- The value of an expression in a scope. -/
def eval (call : Caller) (scope : ScopeId) : Expr → Action Int
  | .number value => pure value.val
  | .variable name line => lookup scope name line
  | .binary op left right line => do
    let a ← eval call scope left
    let b ← eval call scope right
    operate op a b line
  | .call name arguments line => do
    checkCall name arguments.length line
    let values ← evalAll call scope arguments
    call name values line

/-- The values of expressions, from left to right. -/
def evalAll (call : Caller) (scope : ScopeId) : List Expr → Action (List Int)
  | [] => pure []
  | e :: rest => do
    let value ← eval call scope e
    let values ← evalAll call scope rest
    pure (value :: values)

end

/-- Goes through a body as long as a condition is not zero, and not more than so many times. -/
def repeatWhile (condition : Action Int) (body : Action Unit) : (rounds : Nat) → Action Unit
  | 0 => do
    let value ← condition
    if value = 0 then pure () else throw .outOfRounds
  | rounds + 1 => do
    let value ← condition
    if value = 0 then pure ()
    else
      body
      repeatWhile condition body rounds

mutual

/-- Runs a statement in a scope. -/
def exec (call : Caller) (rounds : Nat) (scope : ScopeId) : Statement → Action Unit
  | .assign name value _ => do
    let v ← eval call scope value
    assign scope name v
  | .display value attached line => do
    let v ← eval call scope value
    display v line
    readAttached scope attached
  | .read target => readInto scope target
  | .branch condition thenBlock elseBlock _ => do
    let v ← eval call scope condition
    if v = 0 then execElse call rounds scope elseBlock
    else execBlock call rounds scope thenBlock
  | .loop condition body _ =>
    repeatWhile (eval call scope condition) (execBlock call rounds scope body) rounds

/-- Runs the statements of a block in a scope. -/
def execBlock (call : Caller) (rounds : Nat) (scope : ScopeId) : List Statement → Action Unit
  | [] => pure ()
  | s :: rest => do
    exec call rounds scope s
    execBlock call rounds scope rest

/-- Runs a block that may be missing. -/
def execElse (call : Caller) (rounds : Nat) (scope : ScopeId) :
    Option (List Statement) → Action Unit
  | none => pure ()
  | some block => execBlock call rounds scope block

end

/-! ### Calls and programs -/

/-- What a call binds in its scope. -/
def frame (p : Procedure) (values : List Int) : List (String × Int) :=
  (p.name, 0) :: (p.params.zip values ++ p.locals.map fun name ↦ (name, 0))

/-- Runs the body of a procedure in a scope that holds its frame, and returns what is left in the
return slot. -/
def runBody (call : Caller) (rounds : Nat) (p : Procedure) (values : List Int)
    (scope : ScopeId) : Action Int := do
  declareAll scope (frame p values)
  execBlock call rounds scope p.body
  lookup scope p.name p.line

/-- Carries out a call where so many calls may still be nested. -/
def invoke (bounds : Bounds) : (left : Nat) → Caller
  | 0, _, _, line => fail (.callsTooDeep bounds.calls) line
  | left + 1, name, values, line => do
    checkDepth bounds.calls line
    let p ← procedure name line
    inFreshScope fun scope ↦
      asCall (runBody (invoke bounds left) bounds.rounds p values scope)

/-- Runs a program: registers its procedures, then runs its statements on the globals. -/
def runProgram (bounds : Bounds) (p : Program) : Action Unit := do
  registerAll p.procedures
  execBlock (invoke bounds bounds.calls) bounds.rounds .root p.statements

/-! ### Operations are only added -/

/-- A run that forgets no operation, wherever it starts. -/
def Appends {α : Type} (x : Action α) : Prop :=
  ∀ m : Machine, m.performed <+: (stateLeft (x m)).performed

section Appends

variable {α β : Type}

theorem Appends.pure (a : α) : Appends (pure a) :=
  fun _ ↦ List.prefix_refl _

/-- A halt leaves the operations that have been carried out. -/
theorem Appends.throw (h : Halt) : Appends (throw h : Action α) :=
  fun _ ↦ List.prefix_refl _

theorem Appends.get : Appends get :=
  fun m ↦ List.prefix_refl m.performed

/-- A step that changes the machine in no way but this. -/
theorem Appends.modify {f : Machine → Machine} (hf : ∀ m, m.performed <+: (f m).performed) :
    Appends (modify f) :=
  hf

/-- In a sequence, the second step adds to what the first has left. -/
theorem appends_bind (x : Action α) {k : α → Action β} (hk : ∀ a, Appends (k a)) (m : Machine) :
    (stateLeft (x m)).performed <+: (stateLeft ((x >>= k) m)).performed := by
  cases h : x m with
  | ok a m' =>
    rw [bind_of_ok h]
    exact hk a m'
  | error e m' =>
    rw [bind_of_error h]
    exact List.prefix_refl _

/-- Runs in a row forget nothing if none of them does, however the first one ends. -/
theorem Appends.bind {x : Action α} {k : α → Action β} (hx : Appends x)
    (hk : ∀ a, Appends (k a)) : Appends (x >>= k) :=
  fun m ↦ (hx m).trans (appends_bind x hk m)

theorem Appends.ite {p : Prop} [Decidable p] {x y : Action α} (hx : Appends x) (hy : Appends y) :
    Appends (if p then x else y) := by
  split
  · exact hx
  · exact hy

/-- A result that has been computed is no operation yet. -/
theorem orFail_appends (result : Except FaultCause α) (line : Nat) :
    Appends (orFail result line) := by
  cases result with
  | ok a => exact .pure a
  | error cause => exact .throw _

/-- An operation that succeeds is added at the end, one that fails is not. -/
theorem operate_appends (op : Operator) (a b : Int) (line : Nat) :
    Appends (operate op a b line) :=
  .bind (orFail_appends _ line) fun _ ↦
    .bind (.modify fun m ↦ List.prefix_append m.performed _) fun _ ↦ .pure _

/-- Nothing is computed in order to find out whether a scope is live. -/
theorem checkLive_appends (scope : ScopeId) : Appends (checkLive scope) :=
  .bind .get fun _ ↦ .ite (.pure ()) (.throw _)

/-- Nor is anything computed to look up a variable. -/
theorem lookup_appends (scope : ScopeId) (name : String) (line : Nat) :
    Appends (lookup scope name line) := by
  refine .bind (checkLive_appends scope) fun _ ↦ .bind .get fun m ↦ ?_
  cases m.env.get? scope name with
  | some value => exact .pure value
  | none => exact .throw _

/-- The value that is assigned has been computed before. -/
theorem assign_appends (scope : ScopeId) (name : String) (value : Int) :
    Appends (assign scope name value) :=
  .bind (checkLive_appends scope) fun _ ↦ .modify fun _ ↦ List.prefix_refl _

theorem declare_appends (scope : ScopeId) (name : String) (value : Int) :
    Appends (declare scope name value) :=
  .bind (checkLive_appends scope) fun _ ↦ .modify fun _ ↦ List.prefix_refl _

/-- The frame of a call is declared without operations: parameters have the values of the arguments,
all others are zero. -/
theorem declareAll_appends (scope : ScopeId) (entries : List (String × Int)) :
    Appends (declareAll scope entries) := by
  induction entries with
  | nil => exact .pure ()
  | cons entry rest ih => exact .bind (declare_appends scope entry.1 entry.2) fun _ ↦ ih

/-- A scope that is released takes no operation with it, whether the work in it has succeeded or
not. -/
theorem inFreshScope_appends {work : ScopeId → Action α} (hwork : ∀ s, Appends (work s)) :
    Appends (inFreshScope work) := by
  intro m
  -- the scope is pushed and popped around the work, and the operations are no part of either
  have happends := hwork ⟨m.env.scopes.size⟩ { m with env := m.env.push }
  rw [inFreshScope]
  cases h : work ⟨m.env.scopes.size⟩ { m with env := m.env.push } with
  | ok a m' =>
    rw [h] at happends
    exact happends
  | error e m' =>
    rw [h] at happends
    exact happends

/-- Nor does a call that is taken off the count. -/
theorem performed_uncount (r : EStateM.Result Halt Machine α) :
    (stateLeft (uncount r)).performed = (stateLeft r).performed := by
  cases r with
  | ok a m =>
    rw [uncount]
    split <;> rfl
  | error e m =>
    rw [uncount]
    split <;> rfl

/-- The work of a call is counted or, where the count is at its end, not done at all. -/
theorem asCall_appends {work : Action α} (hwork : Appends work) : Appends (asCall work) := by
  intro m
  rw [asCall]
  split
  · rw [performed_uncount]
    exact hwork { m with activeCalls := m.activeCalls + 1 }
  · exact List.prefix_refl _

/-- Displaying looks at the machine twice, and computes nothing either time. -/
theorem display_appends (value : Int) (line : Nat) : Appends (display value line) :=
  .bind .get fun _ ↦ .ite (.throw _) <|
    .bind (.modify fun _ ↦ List.prefix_refl _) fun _ ↦
      .bind .get fun _ ↦ .ite (.throw _) (.pure ())

/-- What is read is a word from the start. -/
theorem readWord_appends (target : ReadTarget) : Appends (readWord target) :=
  .bind .get fun _ ↦ .bind (.modify fun _ ↦ List.prefix_refl _) fun _ ↦
    .bind (orFail_appends _ _) fun _ ↦ .pure _

theorem readInto_appends (scope : ScopeId) (target : ReadTarget) :
    Appends (readInto scope target) :=
  .bind (readWord_appends target) fun _ ↦ assign_appends scope target.name _

theorem readAttached_appends (scope : ScopeId) (attached : Option ReadTarget) :
    Appends (readAttached scope attached) := by
  cases attached with
  | none => exact .pure ()
  | some target => exact readInto_appends scope target

/-- To find a procedure is no operation either. -/
theorem procedure_appends (name : String) (line : Nat) : Appends (procedure name line) := by
  refine .bind .get fun m ↦ ?_
  cases m.env.procedure? name with
  | some p => exact .pure p
  | none => exact .throw _

theorem checkCall_appends (name : String) (arguments line : Nat) :
    Appends (checkCall name arguments line) :=
  .bind (procedure_appends name line) fun _ ↦ .ite (.pure ()) (.throw _)

variable {call : Caller} {scope : ScopeId}

mutual

/-- **Evaluation forgets no operation**, if the calls in it forget none. -/
theorem eval_appends (hcall : ∀ name values line, Appends (call name values line)) :
    (e : Expr) → Appends (eval call scope e)
  | .number _ => .pure _
  | .variable name line => lookup_appends scope name line
  | .binary op left right line =>
    .bind (eval_appends hcall left) fun a ↦
      .bind (eval_appends hcall right) fun b ↦ operate_appends op a b line
  | .call name arguments line =>
    .bind (checkCall_appends name _ line) fun _ ↦
      .bind (evalAll_appends hcall arguments) fun values ↦ hcall name values line

/-- Nor do arguments that are evaluated one after the other. -/
theorem evalAll_appends (hcall : ∀ name values line, Appends (call name values line)) :
    (es : List Expr) → Appends (evalAll call scope es)
  | [] => .pure []
  | e :: rest =>
    .bind (eval_appends hcall e) fun _ ↦ .bind (evalAll_appends hcall rest) fun _ ↦ .pure _

end

/-- The operations of a loop are those of all its rounds. -/
theorem repeatWhile_appends {condition : Action Int} {body : Action Unit}
    (hcondition : Appends condition) (hbody : Appends body) (rounds : Nat) :
    Appends (repeatWhile condition body rounds) := by
  induction rounds with
  | zero => exact .bind hcondition fun _ ↦ .ite (.pure ()) (.throw _)
  | succ rounds ih => exact .bind hcondition fun _ ↦ .ite (.pure ()) (.bind hbody fun _ ↦ ih)

mutual

/-- **Execution forgets no operation**, if the calls in it forget none. -/
theorem exec_appends (hcall : ∀ name values line, Appends (call name values line))
    (rounds : Nat) : (s : Statement) → Appends (exec call rounds scope s)
  | .assign name value _ => .bind (eval_appends hcall value) fun v ↦ assign_appends scope name v
  | .display value attached line =>
    .bind (eval_appends hcall value) fun v ↦
      .bind (display_appends v line) fun _ ↦ readAttached_appends scope attached
  | .read target => readInto_appends scope target
  | .branch condition thenBlock elseBlock _ =>
    .bind (eval_appends hcall condition) fun _ ↦
      .ite (execElse_appends hcall rounds elseBlock) (execBlock_appends hcall rounds thenBlock)
  | .loop condition body _ =>
    repeatWhile_appends (eval_appends hcall condition) (execBlock_appends hcall rounds body) rounds

theorem execBlock_appends (hcall : ∀ name values line, Appends (call name values line))
    (rounds : Nat) : (block : List Statement) → Appends (execBlock call rounds scope block)
  | [] => .pure ()
  | s :: rest => .bind (exec_appends hcall rounds s) fun _ ↦ execBlock_appends hcall rounds rest

theorem execElse_appends (hcall : ∀ name values line, Appends (call name values line))
    (rounds : Nat) : (block? : Option (List Statement)) →
    Appends (execElse call rounds scope block?)
  | none => .pure ()
  | some block => execBlock_appends hcall rounds block

end

/-- Procedures are registered before anything is computed. -/
theorem registerAll_appends (ps : List Procedure) : Appends (registerAll ps) := by
  induction ps with
  | nil => exact .pure ()
  | cons p rest ih =>
    refine .bind (.bind .get fun m ↦ ?_) fun _ ↦ ih
    cases m.env.procedure? p.name with
    | some q => exact .throw _
    | none => exact .modify fun _ ↦ List.prefix_refl _

/-- What is done around the body of a call computes nothing. -/
theorem runBody_appends (hcall : ∀ name values line, Appends (call name values line))
    (rounds : Nat) (p : Procedure) (values : List Int) :
    Appends (runBody call rounds p values scope) :=
  .bind (declareAll_appends scope _) fun _ ↦
    .bind (execBlock_appends hcall rounds p.body) fun _ ↦ lookup_appends scope p.name p.line

/-- **Calls forget no operation**, by induction on the number of those that may still be nested. -/
theorem invoke_appends (bounds : Bounds) (n : Nat) (name : String) (values : List Int)
    (line : Nat) : Appends (invoke bounds n name values line) := by
  induction n generalizing name values line with
  | zero => exact .throw _
  | succ n ih =>
    have hdepth : Appends (checkDepth bounds.calls line) :=
      .bind .get fun _ ↦ .ite (.pure ()) (.throw _)
    refine .bind hdepth fun _ ↦ .bind (procedure_appends name line) fun p ↦ ?_
    exact inFreshScope_appends fun s ↦ asCall_appends (runBody_appends ih bounds.rounds p values)

end Appends

end TinyProc.Unbounded
