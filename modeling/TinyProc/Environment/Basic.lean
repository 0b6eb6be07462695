import TinyProc.Environment.Bindings
import TinyProc.Syntax.Basic

/-!
# Environments

Where variables live, and the procedures. Scopes are kept in an array and addressed by their index.
The scope with index 0 holds the globals; every other scope is pushed for a call, and its parent is
the globals, so that a procedure sees its own variables and the globals but never those of its
caller.

A `ScopeId` is only an index. It may outlive its scope, and it may come to mean another scope that
is pushed later; `Environment.IsLive` says that it means a scope at all. The operations on variables
are meant for live scopes. Through a dead one nothing is found and nothing is changed.
-/

namespace TinyProc

/-- The address of a scope. -/
structure ScopeId where
  /-- Its index in the array of scopes. -/
  index : Nat
deriving DecidableEq

/-- The scope of the globals. -/
def ScopeId.root : ScopeId := ⟨0⟩

@[simp] theorem ScopeId.index_root : root.index = 0 := rfl

/-- A scope. -/
structure Scope where
  /-- The variables it binds. -/
  bindings : Bindings
  /-- Where a name is looked for that it does not bind. -/
  parent : Option ScopeId
deriving DecidableEq

/-- The scopes and the procedures. -/
structure Environment where
  /-- The scopes, the globals first. -/
  scopes : Array Scope
  /-- The procedures, in order of registration. -/
  procedures : List Procedure

namespace Environment

/-- An environment with the globals, still empty, and no procedures. -/
def empty : Environment where
  scopes := #[⟨.empty, none⟩]
  procedures := []

/-- The number of scopes. -/
def depth (env : Environment) : Nat :=
  env.scopes.size

@[simp] theorem depth_empty : empty.depth = 1 := rfl

/-- Whether an address means a scope. -/
def IsLive (env : Environment) (scope : ScopeId) : Prop :=
  scope.index < env.depth

instance (env : Environment) (scope : ScopeId) : Decidable (env.IsLive scope) :=
  inferInstanceAs (Decidable (_ < _))

/-! ### Scopes -/

/-- The address of the scope that is pushed next. -/
def nextScope (env : Environment) : ScopeId :=
  ⟨env.depth⟩

/-- Adds an empty scope whose parent is the globals. -/
def push (env : Environment) : Environment :=
  { env with scopes := env.scopes.push ⟨.empty, some .root⟩ }

/-- Removes a scope and all that were pushed after it. The globals stay. -/
def pop (env : Environment) (scope : ScopeId) : Environment :=
  if scope = .root then env else { env with scopes := env.scopes.take scope.index }

@[simp] theorem depth_push (env : Environment) : env.push.depth = env.depth + 1 := by
  simp [push, depth]

@[simp] theorem pop_root (env : Environment) : env.pop .root = env := by
  simp [pop]

theorem depth_pop (env : Environment) {scope : ScopeId} (h : scope ≠ .root) :
    (env.pop scope).depth = min scope.index env.depth := by
  simp [pop, depth, h]

/-- A scope that is pushed and popped again leaves no trace. -/
theorem pop_push (env : Environment) (h : env.nextScope ≠ .root) :
    env.push.pop env.nextScope = env := by
  rw [pop, if_neg h]
  simp [push, nextScope, depth]

/-! ### Variables -/

/-- The nearest scope that binds a name, on the way from a scope up through the parents, in at most
so many steps. -/
def climb (env : Environment) (name : String) : (steps : Nat) → ScopeId → Option ScopeId
  | 0, _ => none
  | steps + 1, id =>
    match env.scopes[id.index]? with
    | none => none
    | some scope =>
      if scope.bindings.contains name then some id
      else
        match scope.parent with
        | none => none
        | some parent => env.climb name steps parent

/-- The nearest scope that binds a name. No chain of parents is longer than there are scopes. -/
def resolve (env : Environment) (scope : ScopeId) (name : String) : Option ScopeId :=
  env.climb name env.depth scope

/-- The value of a name in one scope, its parents left out. -/
def localValue? (env : Environment) (scope : ScopeId) (name : String) : Option Word :=
  (env.scopes[scope.index]?).bind (·.bindings.get? name)

/-- The value of a name as seen from a scope. -/
def get? (env : Environment) (scope : ScopeId) (name : String) : Option Word :=
  (env.resolve scope name).bind (env.localValue? · name)

/-- Binds a name in the scope itself, whatever its parents bind. -/
def declare (env : Environment) (scope : ScopeId) (name : String) (value : Word) : Environment :=
  { env with
    scopes := env.scopes.modify scope.index fun s ↦
      { s with bindings := s.bindings.insert name value } }

/-- The scope that an assignment goes to: the nearest that binds the name, or else the scope itself.
-/
def target (env : Environment) (scope : ScopeId) (name : String) : ScopeId :=
  (env.resolve scope name).getD scope

/-- Assigns a value to a name as seen from a scope. -/
def set (env : Environment) (scope : ScopeId) (name : String) (value : Word) : Environment :=
  env.declare (env.target scope name) name value

@[simp] theorem depth_declare (env : Environment) (scope : ScopeId) (name : String)
    (value : Word) : (env.declare scope name value).depth = env.depth := by
  simp [declare, depth]

@[simp] theorem depth_set (env : Environment) (scope : ScopeId) (name : String) (value : Word) :
    (env.set scope name value).depth = env.depth :=
  depth_declare ..

/-- A declaration changes the value of one name in one scope. -/
theorem localValue?_declare (env : Environment) {scope : ScopeId} (h : env.IsLive scope)
    (name : String) (value : Word) (other : ScopeId) (n : String) :
    (env.declare scope name value).localValue? other n =
      if other = scope ∧ n = name then some value else env.localValue? other n := by
  have hindex : scope.index = other.index ↔ other = scope := by
    cases scope
    cases other
    simp [eq_comm]
  by_cases ho : other = scope
  · subst ho
    obtain ⟨s, hs⟩ : ∃ s, env.scopes[other.index]? = some s :=
      ⟨_, Array.getElem?_eq_getElem h⟩
    simp [localValue?, declare, Array.getElem?_modify, hs, Bindings.get?_insert]
  · simp [localValue?, declare, Array.getElem?_modify, hindex, ho]

/-- A fresh scope binds nothing, and the others are what they were. -/
@[simp] theorem localValue?_push (env : Environment) (scope : ScopeId) (name : String) :
    env.push.localValue? scope name = env.localValue? scope name := by
  simp only [localValue?, push, Array.getElem?_push]
  split
  · rename_i h
    simp [h]
  · rfl

/-- The value of a global. -/
def global? (env : Environment) (name : String) : Option Word :=
  env.get? .root name

/-! ### Procedures -/

/-- The procedure registered under a name. -/
def procedure? (env : Environment) (name : String) : Option Procedure :=
  env.procedures.find? (·.name = name)

/-- Registers a procedure, unless its name is taken. -/
def register? (env : Environment) (p : Procedure) : Option Environment :=
  match env.procedure? p.name with
  | some _ => none
  | none => some { env with procedures := env.procedures ++ [p] }

end Environment

end TinyProc
