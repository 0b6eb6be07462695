import TinyProc.Console
import TinyProc.Environment.Basic
import TinyProc.Journal.Basic

/-!
# Steps of a run

A run works on a `Machine`: the environment, the console and the journal. It ends with a result or
with a `Halt`, and in both cases the machine is what the steps before the end made it.

Besides a fault of the program there are three other ways to halt. A run may use the address of a
scope that is gone; this is a mistake of whoever holds the address, and no program makes it. The
count of active calls may leave the range of numbers that it can be, which no program brings about
either. And a loop may use up the rounds it was given, which says nothing about the program but that
it has not finished.

The steps here are those that programs are made of: looking a variable up, assigning, displaying,
reading, finding a procedure, working in a scope of its own and as a call of its own.
-/

namespace TinyProc

/-- What a run works on. -/
structure Machine where
  /-- The variables and procedures. -/
  env : Environment
  /-- The input and the output. -/
  console : Console
  /-- What has been noted. -/
  journal : Journal

/-- Why a run has stopped before its end. -/
inductive Halt
  /-- The program is at fault. -/
  | fault (fault : Fault)
  /-- The address of a scope was used that is gone. -/
  | staleScope
  /-- The count of active calls would leave its range. -/
  | miscounted
  /-- A loop has used up its rounds. -/
  | outOfRounds
deriving DecidableEq

/-- A run. -/
abbrev Run := EStateM Halt Machine

namespace Run

/-- Stops with a fault on a line. -/
def fail {α : Type} (cause : FaultCause) (line : Nat) : Run α :=
  throw (.fault ⟨cause, line⟩)

/-- The value, or its fault on a line. -/
def orFail {α : Type} (result : Except FaultCause α) (line : Nat) : Run α :=
  match result with
  | .ok a => pure a
  | .error cause => fail cause line

/-- Notes an event. -/
def note (e : Event) : Run Unit :=
  modify fun m ↦ { m with journal := m.journal.note e }

/-- Changes the environment. -/
def modifyEnv (f : Environment → Environment) : Run Unit :=
  modify fun m ↦ { m with env := f m.env }

/-- Replaces the console. -/
def setConsole (console : Console) : Run Unit :=
  modify fun m ↦ { m with console := console }

@[simp] theorem note_apply (e : Event) (m : Machine) :
    note e m = .ok () { m with journal := m.journal.note e } := rfl

@[simp] theorem modifyEnv_apply (f : Environment → Environment) (m : Machine) :
    modifyEnv f m = .ok () { m with env := f m.env } := rfl

@[simp] theorem setConsole_apply (console : Console) (m : Machine) :
    setConsole console m = .ok () { m with console := console } := rfl

/-! ### Variables -/

/-- The environment, in which the given scope has to be live. -/
def liveEnv (scope : ScopeId) : Run Environment := do
  let env := (← get).env
  if env.IsLive scope then pure env else throw .staleScope

@[simp] theorem liveEnv_apply (scope : ScopeId) (m : Machine) :
    liveEnv scope m = if m.env.IsLive scope then .ok m.env m else .error .staleScope m := by
  by_cases h : m.env.IsLive scope
  · rw [if_pos h]
    show (if m.env.IsLive scope then pure m.env else throw .staleScope : Run Environment) m = _
    rw [if_pos h]
    rfl
  · rw [if_neg h]
    show (if m.env.IsLive scope then pure m.env else throw .staleScope : Run Environment) m = _
    rw [if_neg h]
    rfl

/-- The value of a variable as seen from a scope. -/
def lookup (scope : ScopeId) (name : String) (line : Nat) : Run Word := do
  let env ← liveEnv scope
  match env.get? scope name with
  | some value => pure value
  | none => fail (.undefinedVariable name) line

/-- Assigns a value to a variable as seen from a scope. -/
def assign (scope : ScopeId) (name : String) (value : Word) : Run Unit := do
  let env ← liveEnv scope
  note (.assigned name value (env.target scope name).index)
  modifyEnv (·.set scope name value)

/-- Binds a variable in the scope itself. -/
def declare (scope : ScopeId) (name : String) (value : Word) : Run Unit := do
  let _ ← liveEnv scope
  modifyEnv (·.declare scope name value)

/-- Binds several variables in the scope itself. -/
def declareAll (scope : ScopeId) : List (String × Word) → Run Unit
  | [] => pure ()
  | (name, value) :: rest => do
    declare scope name value
    declareAll scope rest

/-! ### Scopes -/

/-- Adds a scope and returns its address. -/
def pushScope : Run ScopeId := do
  let scope := (← get).env.nextScope
  modifyEnv (·.push)
  pure scope

/-- Removes a scope and all that were pushed after it. -/
def popScope (scope : ScopeId) : Run Unit :=
  modifyEnv (·.pop scope)

/-- Releases a scope on the machine that a run has left. -/
def release {α : Type} (scope : ScopeId) :
    EStateM.Result Halt Machine α → EStateM.Result Halt Machine α
  | .ok a m => .ok a { m with env := m.env.pop scope }
  | .error h m => .error h { m with env := m.env.pop scope }

/-- Works in a scope of its own, which is gone afterwards however the work ends. -/
def inFreshScope {α : Type} (work : ScopeId → Run α) : Run α :=
  fun m ↦ release m.env.nextScope (work m.env.nextScope { m with env := m.env.push })

/-! ### Active calls -/

/-- Makes sure that one more call may be active where so many may be at once. -/
def checkDepth (calls : Nat) (line : Nat) : Run Unit := do
  if (← get).console.activeCalls < calls then pure () else fail (.callsTooDeep calls) line

/-- Takes a call off the count on the machine that a run has left. -/
def uncount {α : Type} : EStateM.Result Halt Machine α → EStateM.Result Halt Machine α
  | .ok a m =>
    match m.console.leave? with
    | some console => .ok a { m with console := console }
    | none => .error .miscounted m
  | .error h m =>
    match m.console.leave? with
    | some console => .error h { m with console := console }
    | none => .error .miscounted m

/-- Works as one more active call, which is taken off the count afterwards however the work ends. -/
def asCall {α : Type} (work : Run α) : Run α :=
  fun m ↦
    match m.console.enter? with
    | some console => uncount (work { m with console := console })
    | none => .error .miscounted m

/-! ### Input and output -/

/-- Displays a word. -/
def display (value : Word) (line : Nat) : Run Unit := do
  let (failure?, console) := (← get).console.display value
  setConsole console
  match failure? with
  | none => pure ()
  | some failure => fail (.stream failure) line

/-- Reads a word for a variable. -/
def readWord (target : ReadTarget) : Run Word := do
  let (result, console) := (← get).console.read target.name
  setConsole console
  orFail result target.line

/-- Reads a word into a variable as seen from a scope. -/
def readInto (scope : ScopeId) (target : ReadTarget) : Run Unit := do
  let value ← readWord target
  note (.read target.name value target.line)
  assign scope target.name value

/-- Performs a read that may be missing. -/
def readAttached (scope : ScopeId) : Option ReadTarget → Run Unit
  | none => pure ()
  | some target => readInto scope target

/-! ### Procedures -/

/-- The procedure registered under a name. -/
def procedure (name : String) (line : Nat) : Run Procedure := do
  match (← get).env.procedure? name with
  | some p => pure p
  | none => fail (.unknownProcedure name) line

/-- Registers a procedure. -/
def register (p : Procedure) : Run Unit := do
  match (← get).env.register? p with
  | some env => modifyEnv fun _ ↦ env
  | none => fail (.procedureAlreadyDefined p.name) p.line

/-- Registers procedures in order, up to the first whose name is taken. -/
def registerAll : List Procedure → Run Unit
  | [] => pure ()
  | p :: rest => do
    register p
    registerAll rest

/-- Makes sure that a call has a procedure, and that it has as many arguments as the procedure has
parameters. -/
def checkCall (name : String) (arguments : Nat) (line : Nat) : Run Unit := do
  let p ← procedure name line
  if p.params.length = arguments then pure ()
  else fail (.arityMismatch name p.params.length arguments) line

end Run

end TinyProc
