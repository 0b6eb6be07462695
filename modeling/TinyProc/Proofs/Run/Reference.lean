import TinyProc.Proofs.Sequencing
import TinyProc.Run.Evaluation

/-!
# A reference interpreter without scopes

The meaning of programs, told without an array of scopes, addresses, parents or a count of calls.
The state is two sets of bindings, the globals and the frame of the current call, which is missing
outside of all calls, and the console. Three rules say all there is to say about variables:

* a variable is looked up in the frame and then in the globals (`State.value?`);
* an assignment goes to the frame if it binds the name, else to the globals if they bind it, else it
  creates the name in the frame, or in the globals where there is no frame (`State.assign`);
* a call runs the body with a frame of its own, takes the value of the procedure's name from that
  frame, and puts the frame of the caller back, however the body ends (`inFrame`).

How deep calls may nest is handed down as a number that shrinks with each call, and the procedures
are handed down too, since nothing changes them. Loops are bounded by rounds as they are in
`TinyProc.Run`, and a loop that uses them up halts as it does there.
-/

namespace TinyProc.Reference

/-! ### States -/

/-- What the reference interpreter works on. -/
structure State where
  /-- The globals. -/
  globals : Bindings
  /-- The frame of the current call, if there is one. -/
  frame : Option Bindings
  /-- The input and the output. Its count of active calls is not used. -/
  console : Console

/-- The value of a variable: the frame's, or else the globals'. -/
def State.value? (σ : State) (name : String) : Option Word :=
  (σ.frame.bind (·.get? name)).or (σ.globals.get? name)

/-- Assigns a value to a variable. -/
def State.assign (σ : State) (name : String) (value : Word) : State :=
  match σ.frame with
  | none => { σ with globals := σ.globals.insert name value }
  | some frame =>
    if frame.contains name then { σ with frame := some (frame.insert name value) }
    else if σ.globals.contains name then { σ with globals := σ.globals.insert name value }
    else { σ with frame := some (frame.insert name value) }

/-- The same state with another frame, or with none. -/
def State.withFrame (σ : State) (frame : Option Bindings) : State where
  globals := σ.globals
  frame := frame
  console := σ.console

/-- A computation of the reference interpreter. -/
abbrev Action := EStateM Halt State

/-! ### Steps -/

/-- Stops with a fault on a line. -/
def fail {α : Type} (cause : FaultCause) (line : Nat) : Action α :=
  throw (.fault ⟨cause, line⟩)

/-- The value, or its fault on a line. -/
def orFail {α : Type} (result : Except FaultCause α) (line : Nat) : Action α :=
  match result with
  | .ok a => pure a
  | .error cause => fail cause line

/-- The value of a variable. -/
def lookup (name : String) (line : Nat) : Action Word := do
  match (← get).value? name with
  | some value => pure value
  | none => fail (.undefinedVariable name) line

theorem lookup_apply (name : String) (line : Nat) (σ : State) :
    lookup name line σ =
      match σ.value? name with
      | some value => .ok value σ
      | none => .error (.fault ⟨.undefinedVariable name, line⟩) σ := by
  show (match σ.value? name with
    | some value => pure value
    | none => fail (.undefinedVariable name) line : Action Word) σ = _
  cases σ.value? name <;> rfl

/-- Assigns a value to a variable. -/
def assign (name : String) (value : Word) : Action Unit :=
  modify (·.assign name value)

/-- Displays a word. -/
def display (value : Word) (line : Nat) : Action Unit := do
  let (failure?, console) := (← get).console.display value
  modify fun σ ↦ { σ with console := console }
  match failure? with
  | none => pure ()
  | some failure => fail (.stream failure) line

theorem display_apply (value : Word) (line : Nat) (σ : State) :
    display value line σ =
      match (σ.console.display value).1 with
      | none => .ok () { σ with console := (σ.console.display value).2 }
      | some failure =>
        .error (.fault ⟨.stream failure, line⟩)
          { σ with console := (σ.console.display value).2 } := by
  show (match (σ.console.display value).1 with
    | none => pure ()
    | some failure => fail (.stream failure) line : Action Unit)
      { σ with console := (σ.console.display value).2 } = _
  cases (σ.console.display value).1 <;> rfl

/-- Reads a word into a variable. -/
def readInto (target : ReadTarget) : Action Unit := do
  let (result, console) := (← get).console.read target.name
  modify fun σ ↦ { σ with console := console }
  let value ← orFail result target.line
  assign target.name value

/-- Performs a read that may be missing. -/
def readAttached : Option ReadTarget → Action Unit
  | none => pure ()
  | some target => readInto target

/-- How a call is carried out, given the name, the values of the arguments and the line. -/
abbrev Caller := String → List Word → Nat → Action Word

/-- The procedure that is declared under a name. -/
def procedure (procedures : List Procedure) (name : String) (line : Nat) : Action Procedure :=
  match procedures.find? (·.name = name) with
  | some p => pure p
  | none => fail (.unknownProcedure name) line

/-- Makes sure that a call has a procedure and the right number of arguments. -/
def checkCall (procedures : List Procedure) (name : String) (arguments line : Nat) :
    Action Unit := do
  let p ← procedure procedures name line
  if p.params.length = arguments then pure ()
  else fail (.arityMismatch name p.params.length arguments) line

/-! ### Expressions and statements -/

mutual

/-- The value of an expression. -/
def eval (procedures : List Procedure) (call : Caller) : Expr → Action Word
  | .number value => pure value
  | .variable name line => lookup name line
  | .binary op left right line => do
    let a ← eval procedures call left
    let b ← eval procedures call right
    orFail (op.apply a b) line
  | .call name arguments line => do
    checkCall procedures name arguments.length line
    let values ← evalAll procedures call arguments
    call name values line

/-- The values of expressions, from left to right. -/
def evalAll (procedures : List Procedure) (call : Caller) : List Expr → Action (List Word)
  | [] => pure []
  | e :: rest => do
    let value ← eval procedures call e
    let values ← evalAll procedures call rest
    pure (value :: values)

end

/-- Goes through a body as long as a condition is not zero, and not more than so many times. -/
def repeatWhile (condition : Action Word) (body : Action Unit) : (rounds : Nat) → Action Unit
  | 0 => do
    let value ← condition
    if value = .zero then pure () else throw .outOfRounds
  | rounds + 1 => do
    let value ← condition
    if value = .zero then pure ()
    else
      body
      repeatWhile condition body rounds

mutual

/-- Runs a statement. -/
def exec (procedures : List Procedure) (call : Caller) (rounds : Nat) : Statement → Action Unit
  | .assign name value _ => do
    let v ← eval procedures call value
    assign name v
  | .display value attached line => do
    let v ← eval procedures call value
    display v line
    readAttached attached
  | .read target => readInto target
  | .branch condition thenBlock elseBlock _ => do
    let v ← eval procedures call condition
    if v = .zero then execElse procedures call rounds elseBlock
    else execBlock procedures call rounds thenBlock
  | .loop condition body _ =>
    repeatWhile (eval procedures call condition) (execBlock procedures call rounds body) rounds

/-- Runs the statements of a block. -/
def execBlock (procedures : List Procedure) (call : Caller) (rounds : Nat) :
    List Statement → Action Unit
  | [] => pure ()
  | s :: rest => do
    exec procedures call rounds s
    execBlock procedures call rounds rest

/-- Runs a block that may be missing. -/
def execElse (procedures : List Procedure) (call : Caller) (rounds : Nat) :
    Option (List Statement) → Action Unit
  | none => pure ()
  | some block => execBlock procedures call rounds block

end

/-! ### Calls -/

/-- Adds names with their values to a set of bindings, one after the other. -/
def bindAll (entries : List (String × Word)) (b : Bindings) : Bindings :=
  entries.foldl (fun b entry ↦ b.insert entry.1 entry.2) b

/-- The frame that a call starts with: the return slot is zero, the parameters have the values of
the arguments, the locals are zero. -/
def newFrame (p : Procedure) (values : List Word) : Bindings :=
  let slot := Bindings.empty.insert p.name .zero
  bindAll (p.locals.map fun name ↦ (name, .zero)) (bindAll (p.params.zip values) slot)

/-- Puts a frame back on the state that has been left. -/
def putBack {α : Type} (frame : Option Bindings) :
    EStateM.Result Halt State α → EStateM.Result Halt State α
  | .ok a σ => .ok a (σ.withFrame frame)
  | .error h σ => .error h (σ.withFrame frame)

/-- Works with a frame of its own, after which the old one is back however the work ends. -/
def inFrame {α : Type} (frame : Bindings) (work : Action α) : Action α :=
  fun σ ↦ putBack σ.frame (work (σ.withFrame (some frame)))

/-- What the frame holds for the name of a procedure. -/
def returned (p : Procedure) : Action Word := do
  match (← get).frame.bind (·.get? p.name) with
  | some value => pure value
  | none => fail (.undefinedVariable p.name) p.line

/-- A call that keeps its name bound returns what is bound to it. -/
theorem returned_of_get? {p : Procedure} {σ : State} {value : Word}
    (h : σ.frame.bind (·.get? p.name) = some value) : returned p σ = .ok value σ := by
  refine (bind_of_ok (x := get) (s := σ) rfl).trans ?_
  rw [h]
  rfl

/-- Carries out a call where so many calls may still be nested. -/
def invoke (procedures : List Procedure) (bounds : Bounds) : (left : Nat) → Caller
  | 0, _, _, line => fail (.callsTooDeep bounds.calls) line
  | left + 1, name, values, line => do
    let p ← procedure procedures name line
    inFrame (newFrame p values) do
      execBlock procedures (invoke procedures bounds left) bounds.rounds p.body
      returned p

end TinyProc.Reference
