import TinyProc.Environment.Basic

/-!
# Environments with two levels

Every environment that is built by its own operations has two levels of scopes: the globals, which
have no parent, and above them any number of scopes whose parent is the globals
(`Environment.IsTwoLevel`, `Environment.Reachable.isTwoLevel`). The chain of parents from a scope is
then the scope and the globals, and the operations that climb it have closed forms:

* a name is looked up in the scope and then in the globals (`IsTwoLevel.get?_eq`);
* an assignment goes to the scope if it binds the name, else to the globals if they bind it, else
  to the scope (`IsTwoLevel.target_eq`).

What a scope holds is read by `Environment.bindings`, and each operation is described by what it
does to that view.
-/

namespace TinyProc.Environment

variable {env : Environment} {scope other : ScopeId} {name : String} {value : Word}

/-! ### The bindings of a scope -/

/-- What a scope holds. An address that means no scope holds nothing. -/
def bindings (env : Environment) (scope : ScopeId) : Bindings :=
  ((env.scopes[scope.index]?).map (·.bindings)).getD .empty

/-- Whether a scope binds a name, its parents left out. -/
def Binds (env : Environment) (scope : ScopeId) (name : String) : Prop :=
  (env.localValue? scope name).isSome

/-- The value in a scope itself, without its parents, is what its bindings have. -/
theorem localValue?_eq (env : Environment) (scope : ScopeId) (name : String) :
    env.localValue? scope name = (env.bindings scope).get? name := by
  rcases h : env.scopes[scope.index]? with - | s <;> simp [localValue?, bindings, h]

theorem binds_iff : env.Binds scope name ↔ (env.bindings scope).contains name = true := by
  rw [Binds, localValue?_eq, Bindings.contains]

theorem index_inj {a b : ScopeId} : a.index = b.index ↔ a = b := by
  cases a
  cases b
  simp

/-- A new scope binds nothing, and so nothing is seen to change. -/
@[simp] theorem bindings_push (env : Environment) (scope : ScopeId) :
    env.push.bindings scope = env.bindings scope := by
  simp only [bindings, push, Array.getElem?_push]
  split
  · rename_i h
    simp [h]
  · rfl

/-- A declaration adds to one scope. -/
theorem bindings_declare (h : env.IsLive scope) (name : String) (value : Word) (other : ScopeId) :
    (env.declare scope name value).bindings other =
      if other = scope then (env.bindings scope).insert name value else env.bindings other := by
  by_cases ho : other = scope
  · subst ho
    have hs : env.scopes[other.index]? = some env.scopes[other.index] :=
      Array.getElem?_eq_getElem h
    simp [bindings, declare, Array.getElem?_modify, hs]
  · have hi : scope.index ≠ other.index := fun h ↦ ho (index_inj.1 h.symm)
    simp [bindings, declare, Array.getElem?_modify, hi, ho]

/-- What stands below a scope that is removed stays, and nothing else does. -/
theorem getElem?_pop (h : scope ≠ .root) (i : Nat) :
    (env.pop scope).scopes[i]? = if i < scope.index then env.scopes[i]? else none := by
  rw [pop, if_neg h]
  show (env.scopes.take scope.index)[i]? = _
  rw [Array.take_eq_extract, Array.getElem?_extract, Nat.zero_add]
  by_cases hi : i < scope.index
  · rw [if_pos hi]
    by_cases hsize : i < env.scopes.size
    · rw [if_pos (by omega)]
    · rw [if_neg (by omega), Array.getElem?_eq_none (by omega)]
  · rw [if_neg hi, if_neg (by omega)]

/-- Behind a scope that is gone all others are gone too. -/
theorem bindings_pop (h : scope ≠ .root) (other : ScopeId) :
    (env.pop scope).bindings other =
      if other.index < scope.index then env.bindings other else .empty := by
  rw [bindings, getElem?_pop h]
  split <;> rfl

@[simp] theorem procedures_pop (env : Environment) (scope : ScopeId) :
    (env.pop scope).procedures = env.procedures := by
  unfold pop
  split <;> rfl

/-- The scope that is pushed next is not the globals, unless it is to be the first. -/
theorem nextScope_ne_root (h : 0 < env.depth) : env.nextScope ≠ .root := by
  intro heq
  have hindex : env.depth = 0 := index_inj.2 heq
  omega

/-- A scope that is not there has no bindings. -/
theorem bindings_of_le (h : env.depth ≤ scope.index) : env.bindings scope = .empty := by
  rw [bindings, Array.getElem?_eq_none h]
  rfl

/-! ### Other procedures -/

section Procedures

variable (env : Environment) (procedures : List Procedure) (scope : ScopeId) (name : String)

/-- The environment with other procedures. -/
def withProcedures : Environment :=
  { env with procedures := procedures }

@[simp] theorem scopes_withProcedures : (env.withProcedures procedures).scopes = env.scopes := rfl

/-- The search along the parents has no use for procedures. -/
theorem climb_withProcedures (steps : Nat) :
    (env.withProcedures procedures).climb name steps scope = env.climb name steps scope := by
  induction steps generalizing scope with
  | zero => rfl
  | succ steps ih => simp only [climb, ih, scopes_withProcedures]

theorem resolve_withProcedures :
    (env.withProcedures procedures).resolve scope name = env.resolve scope name :=
  climb_withProcedures env procedures scope name env.depth

theorem get?_withProcedures :
    (env.withProcedures procedures).get? scope name = env.get? scope name := by
  rw [get?, resolve_withProcedures]
  rfl

theorem set_withProcedures (value : Word) :
    (env.withProcedures procedures).set scope name value =
      (env.set scope name value).withProcedures procedures := by
  rw [set, target, resolve_withProcedures]
  rfl

theorem pop_withProcedures :
    (env.withProcedures procedures).pop scope = (env.pop scope).withProcedures procedures := by
  unfold pop
  split <;> rfl

end Procedures

/-! ### Two levels -/

/-- There are globals, they have no parent, and every other scope has them as its parent. -/
structure IsTwoLevel (env : Environment) : Prop where
  /-- There are globals. -/
  pos : 0 < env.depth
  /-- The parents are as they are for scopes made by `empty` and `push`. -/
  parent : ∀ {i : Nat} {s : Scope}, env.scopes[i]? = some s →
    s.parent = if i = 0 then none else some .root

namespace IsTwoLevel

theorem isLive_root (h : env.IsTwoLevel) : env.IsLive .root :=
  h.pos

theorem empty : Environment.empty.IsTwoLevel where
  pos := by simp
  parent := by
    intro i s hs
    obtain ⟨hi, rfl⟩ := Array.getElem?_eq_some_iff.1 hs
    have hzero : i = 0 := by
      simp [Environment.empty] at hi
      exact hi
    subst hzero
    rfl

/-- A new scope has the globals as its parent. -/
theorem push (h : env.IsTwoLevel) : env.push.IsTwoLevel where
  pos := by simp
  parent := by
    intro i s hs
    rw [Environment.push, Array.getElem?_push] at hs
    split at hs
    · rename_i hi
      have hpos := h.pos
      rw [depth] at hpos
      cases hs
      rw [if_neg (by omega)]
    · exact h.parent hs

/-- The levels are a matter of the parents alone. -/
theorem of_parents {env' : Environment} (h : env.IsTwoLevel) (hdepth : env'.depth = env.depth)
    (hparent : ∀ i : Nat, (env'.scopes[i]?).map (·.parent) = (env.scopes[i]?).map (·.parent)) :
    env'.IsTwoLevel where
  pos := hdepth ▸ h.pos
  parent := by
    intro i s' hs'
    have hi := hparent i
    rw [hs', Option.map_some] at hi
    obtain ⟨s, hs, heq⟩ := Option.map_eq_some_iff.1 hi.symm
    rw [← heq]
    exact h.parent hs

theorem declare (h : env.IsTwoLevel) (scope : ScopeId) (name : String) (value : Word) :
    (env.declare scope name value).IsTwoLevel := by
  refine h.of_parents (depth_declare ..) fun i ↦ ?_
  simp only [Environment.declare, Array.getElem?_modify]
  split
  · rw [Option.map_map]
    rfl
  · rfl

theorem set (h : env.IsTwoLevel) (scope : ScopeId) (name : String) (value : Word) :
    (env.set scope name value).IsTwoLevel :=
  h.declare ..

/-- Scopes are only taken from the top, and the globals stay. -/
theorem pop (h : env.IsTwoLevel) (scope : ScopeId) : (env.pop scope).IsTwoLevel := by
  by_cases hroot : scope = .root
  · subst hroot
    rwa [pop_root]
  · have hindex : scope.index ≠ 0 := fun h ↦ hroot (index_inj.1 h)
    refine ⟨?_, ?_⟩
    · have hpos := h.pos
      rw [depth_pop env hroot]
      omega
    · intro i s hs
      rw [getElem?_pop hroot] at hs
      split at hs
      · exact h.parent hs
      · cases hs

/-! ### Looking up and assigning -/

/-- From a live scope the climb ends at the scope, at the globals, or nowhere. -/
theorem resolve_eq (h : env.IsTwoLevel) (hs : env.IsLive scope) (name : String) :
    env.resolve scope name =
      if (env.bindings scope).contains name then some scope
      else if (env.bindings .root).contains name then some .root else none := by
  have hget : ∀ {t : ScopeId}, env.IsLive t → ∃ s, env.scopes[t.index]? = some s ∧
      env.bindings t = s.bindings := by
    intro t ht
    refine ⟨_, Array.getElem?_eq_getElem ht, ?_⟩
    rw [bindings, Array.getElem?_eq_getElem ht]
    rfl
  obtain ⟨s, hsome, hbindings⟩ := hget hs
  obtain ⟨r, hrootSome, hrootBindings⟩ := hget h.isLive_root
  by_cases hroot : scope = .root
  · subst hroot
    obtain ⟨n, hn⟩ : ∃ n, env.depth = n + 1 := Nat.exists_eq_succ_of_ne_zero (Nat.ne_of_gt h.pos)
    have hparent : s.parent = none := h.parent hsome
    rw [resolve, hn, climb]
    simp only [hsome, hbindings, hparent]
    by_cases hb : s.bindings.contains name <;> simp [hb]
  · -- a scope other than the globals stands above them, so that two steps of the climb are left
    have hindex : scope.index ≠ 0 := fun h ↦ hroot (index_inj.1 h)
    obtain ⟨n, hn⟩ : ∃ n, env.depth = n + 2 := by
      have hlt : scope.index < env.depth := hs
      exact ⟨env.depth - 2, by omega⟩
    have hparent : s.parent = some .root := by
      rw [h.parent hsome, if_neg hindex]
    have hrootParent : r.parent = none := h.parent hrootSome
    rw [resolve, hn, climb]
    simp only [hsome, hbindings, hparent, climb, hrootSome, hrootBindings, hrootParent]

/-- A name is looked up in the scope, and then in the globals. -/
theorem get?_eq (h : env.IsTwoLevel) (hs : env.IsLive scope) (name : String) :
    env.get? scope name =
      ((env.bindings scope).get? name).or ((env.bindings .root).get? name) := by
  rw [get?, h.resolve_eq hs]
  split
  · rename_i hbound
    obtain ⟨v, hv⟩ := Option.isSome_iff_exists.1 hbound
    simp [localValue?_eq, hv]
  · rename_i hfree
    rw [Option.not_isSome_iff_eq_none.1 hfree, Option.none_or]
    split
    · simp [localValue?_eq]
    · rename_i hglobal
      rw [Option.not_isSome_iff_eq_none.1 hglobal]
      rfl

/-- An assignment goes to the scope if it binds the name, else to the globals if they bind it, else
to the scope. -/
theorem target_eq (h : env.IsTwoLevel) (hs : env.IsLive scope) (name : String) :
    env.target scope name =
      if (env.bindings scope).contains name then scope
      else if (env.bindings .root).contains name then .root else scope := by
  rw [target, h.resolve_eq hs]
  split
  · rfl
  · split <;> rfl

/-- An assignment goes to a scope that is live. -/
theorem isLive_target (h : env.IsTwoLevel) (hs : env.IsLive scope) (name : String) :
    env.IsLive (env.target scope name) := by
  rw [h.target_eq hs]
  split
  · exact hs
  · split
    · exact h.isLive_root
    · exact hs

end IsTwoLevel

/-! ### Environments built by the operations -/

/-- The environments that the operations lead to. A variable is written through a live address;
through a dead one there is nothing to write to. -/
inductive Reachable : Environment → Prop
  | empty : Reachable .empty
  | push {env : Environment} : Reachable env → Reachable env.push
  | pop {env : Environment} (scope : ScopeId) : Reachable env → Reachable (env.pop scope)
  | set {env : Environment} {scope : ScopeId} (name : String) (value : Word) :
    Reachable env → env.IsLive scope → Reachable (env.set scope name value)
  | declare {env : Environment} {scope : ScopeId} (name : String) (value : Word) :
    Reachable env → env.IsLive scope → Reachable (env.declare scope name value)
  | register {env env' : Environment} {p : Procedure} :
    Reachable env → env.register? p = some env' → Reachable env'

/-- Registering a procedure adds it at the end and leaves the scopes alone. -/
theorem register?_eq_some {env' : Environment} {p : Procedure}
    (h : env.register? p = some env') :
    env' = { env with procedures := env.procedures ++ [p] } := by
  unfold register? at h
  split at h
  · cases h
  · exact (Option.some.inj h).symm

/-- Whatever the operations lead to has two levels. -/
theorem Reachable.isTwoLevel (h : env.Reachable) : env.IsTwoLevel := by
  induction h with
  | empty => exact .empty
  | push _ ih => exact ih.push
  | pop scope _ ih => exact ih.pop scope
  | set name value _ _ ih => exact ih.set ..
  | declare name value _ _ ih => exact ih.declare ..
  | register _ hreg ih =>
    rw [register?_eq_some hreg]
    exact ⟨ih.pos, ih.parent⟩

end TinyProc.Environment
