import TinyProc.Proofs.Run.Composition

/-!
# Environments are stacks of frames

Whoever uses an environment through its operations cannot tell it from globals and a stack of
frames, each a mere map from names to values: there are no parents, and an address is a position.
Address 0 means the globals and address `i + 1` the frame with `i` frames below it (`Stack.store?`).
An address is only a number, so that it may have been kept after its frame is gone, and may mean
another frame by then. The answers are the same all the same, for every sequence of operations
(`environment_is_stack`).

The environment is taken to its stack by a function, `Environment.stack`. A stack is determined by
what its addresses mean, and each operation is told by what it does to that, on both sides. One
operation gives the same answer and leads to the same stack (`perform_stack`), as long as the
environment has two levels of scopes, which the operations see to.
-/

namespace TinyProc

/-! ### Stacks -/

/-- Names with their values. -/
abbrev Store := String → Option Word

/-- Globals, and frames above them. -/
@[ext]
structure Stack where
  /-- The globals. -/
  globals : Store
  /-- The frames, the lowest first. -/
  frames : List Store

namespace Stack

/-- No frames, and no globals yet. -/
def empty : Stack where
  globals _ := none
  frames := []

/-- What an address means: the globals, a frame, or nothing. -/
def store? (a : Stack) : Nat → Option Store
  | 0 => some a.globals
  | i + 1 => a.frames[i]?

/-- Adds an empty frame. -/
def push (a : Stack) : Stack :=
  { a with frames := a.frames ++ [fun _ ↦ none] }

/-- Drops the frame at an address and all above it. The globals stay. -/
def pop (a : Stack) : Nat → Stack
  | 0 => a
  | i + 1 => { a with frames := a.frames.take i }

/-- The value of a name in a store that an address means, or else in the globals. -/
def value? (a : Stack) (store : Store) (name : String) : Option Word :=
  (store name).or (a.globals name)

/-- Gives a name a value in the store at an address. -/
def write (a : Stack) (name : String) (value : Word) : Nat → Stack
  | 0 => { a with globals := fun n ↦ if n = name then some value else a.globals n }
  | i + 1 =>
    { a with
      frames := a.frames.modify i fun store n ↦ if n = name then some value else store n }

/-- Assigns to a name from an address that means a store: there if the name is bound there, else in
the globals if it is bound there, else there. -/
def assign (a : Stack) (store : Store) (i : Nat) (name : String) (value : Word) : Stack :=
  if (store name).isSome then a.write name value i
  else if (a.globals name).isSome then a.write name value 0
  else a.write name value i

/-- A stack is what its addresses mean. -/
theorem ext_store? {a b : Stack} (h : ∀ i, a.store? i = b.store? i) : a = b := by
  have hglobals : a.globals = b.globals := Option.some.inj (h 0)
  have hframes : a.frames = b.frames := List.ext_getElem? fun i ↦ h (i + 1)
  exact Stack.ext hglobals hframes

/-- A new frame on top is empty, and has the next address. -/
theorem store?_push (a : Stack) (i : Nat) :
    a.push.store? i = if i = a.frames.length + 1 then some fun _ ↦ none else a.store? i := by
  cases i with
  | zero => rfl
  | succ i =>
    show (a.frames ++ [fun _ ↦ none])[i]? = if i + 1 = _ then _ else a.frames[i]?
    rw [List.getElem?_append]
    split
    · rw [if_neg (by omega)]
    · split
      · rename_i heq
        rw [show i - a.frames.length = 0 by omega]
        rfl
      · rw [List.getElem?_eq_none (by simp; omega), List.getElem?_eq_none (by omega)]

/-- With a frame, all those above it are gone. -/
theorem store?_pop (a : Stack) {i : Nat} (hi : i ≠ 0) (j : Nat) :
    (a.pop i).store? j = if j < i then a.store? j else none := by
  obtain ⟨i, rfl⟩ := Nat.exists_eq_succ_of_ne_zero hi
  cases j with
  | zero => rfl
  | succ j =>
    show (a.frames.take i)[j]? = if j + 1 < i + 1 then a.frames[j]? else none
    rw [List.getElem?_take]
    simp only [Nat.add_lt_add_iff_right]

/-- A write changes one name at one address. -/
theorem store?_write (a : Stack) (name : String) (value : Word) (i j : Nat) :
    (a.write name value i).store? j =
      if j = i then (a.store? i).map fun store n ↦ if n = name then some value else store n
      else a.store? j := by
  cases i with
  | zero =>
    cases j with
    | zero => rfl
    | succ j => rfl
  | succ i =>
    cases j with
    | zero => rfl
    | succ j =>
      show (a.frames.modify i _)[j]? = if j + 1 = i + 1 then a.frames[i]?.map _ else a.frames[j]?
      rw [List.getElem?_modify]
      by_cases h : i = j
      · subst h
        simp
      · simp [h, Ne.symm h]

end Stack

/-! ### The stack of an environment -/

namespace Environment

variable {env : Environment}

/-- An environment, seen as a stack. -/
def stack (env : Environment) : Stack where
  globals := (env.bindings .root).get?
  frames := (List.range (env.depth - 1)).map fun i ↦ (env.bindings ⟨i + 1⟩).get?

/-- An address means what the scope holds, if there is one. -/
theorem store?_stack (hpos : 0 < env.depth) (s : ScopeId) :
    env.stack.store? s.index = if env.IsLive s then some (env.bindings s).get? else none := by
  obtain ⟨i⟩ := s
  cases i with
  | zero =>
    rw [if_pos (show env.IsLive ⟨0⟩ from hpos)]
    rfl
  | succ i =>
    show ((List.range (env.depth - 1)).map fun i ↦ (env.bindings ⟨i + 1⟩).get?)[i]? = _
    rw [List.getElem?_map]
    by_cases h : env.IsLive ⟨i + 1⟩
    · have hlt : i + 1 < env.depth := h
      rw [if_pos h, List.getElem?_range (by omega)]
      rfl
    · have hle : ¬ i + 1 < env.depth := h
      rw [if_neg h, List.getElem?_eq_none (by simp; omega)]
      rfl

theorem length_frames_stack (env : Environment) : env.stack.frames.length = env.depth - 1 := by
  simp [stack]

/-- A new scope is a new frame. -/
theorem stack_push (hpos : 0 < env.depth) : env.push.stack = env.stack.push := by
  refine Stack.ext_store? fun i ↦ ?_
  have hpush : env.push.IsLive ⟨i⟩ ↔ i < env.depth + 1 := by
    rw [IsLive, depth_push]
  have hlive : env.IsLive ⟨i⟩ ↔ i < env.depth := .rfl
  rw [store?_stack (by simp) ⟨i⟩, Stack.store?_push, store?_stack hpos ⟨i⟩,
    length_frames_stack, bindings_push]
  simp only [hpush, hlive]
  split
  · split
    · rw [bindings_of_le (show env.depth ≤ i by omega)]
      rfl
    · rw [if_pos (by omega)]
  · rw [if_neg (by omega), if_neg (by omega)]

/-- Scopes are popped like frames. -/
theorem stack_pop (hpos : 0 < env.depth) (s : ScopeId) :
    (env.pop s).stack = env.stack.pop s.index := by
  by_cases hs : s = .root
  · subst hs
    rw [pop_root]
    rfl
  · have hindex : s.index ≠ 0 := fun h ↦ hs (index_inj.1 h)
    have hdepth := depth_pop env hs
    refine Stack.ext_store? fun i ↦ ?_
    have hpop : (env.pop s).IsLive ⟨i⟩ ↔ i < s.index ∧ i < env.depth := by
      rw [IsLive, hdepth, Nat.lt_min]
    have hlive : env.IsLive ⟨i⟩ ↔ i < env.depth := .rfl
    rw [store?_stack (by omega) ⟨i⟩, Stack.store?_pop _ hindex, store?_stack hpos ⟨i⟩,
      bindings_pop hs]
    simp only [hpop, hlive]
    by_cases hi : i < s.index <;> simp [hi]

/-- A declaration in a live scope is a write to its frame. -/
theorem stack_declare (hpos : 0 < env.depth) {s : ScopeId} (hs : env.IsLive s) (name : String)
    (value : Word) : (env.declare s name value).stack = env.stack.write name value s.index := by
  refine Stack.ext_store? fun i ↦ ?_
  have hlive : (env.declare s name value).IsLive ⟨i⟩ ↔ env.IsLive ⟨i⟩ := by
    rw [IsLive, depth_declare, IsLive]
  have hindex : i = s.index ↔ (⟨i⟩ : ScopeId) = s := index_inj (a := ⟨i⟩)
  rw [store?_stack (by rwa [depth_declare]) ⟨i⟩, Stack.store?_write, store?_stack hpos ⟨i⟩,
    store?_stack hpos s, bindings_declare hs]
  simp only [hlive, hindex, if_pos hs]
  by_cases hi : (⟨i⟩ : ScopeId) = s
  · subst hi
    rw [if_pos hs, if_pos rfl, if_pos rfl]
    refine congrArg some (funext fun n ↦ ?_)
    exact Bindings.get?_insert ..
  · rw [if_neg hi, if_neg hi]

/-- An assignment in a live scope is an assignment to its frame. Which of the two places it goes to
is decided by the bindings of the scope. -/
theorem stack_set (h : env.IsTwoLevel) {s : ScopeId} (hs : env.IsLive s) (name : String)
    (value : Word) :
    (env.set s name value).stack =
      env.stack.assign (env.bindings s).get? s.index name value := by
  have hlive := h.isLive_target hs name
  rw [set, stack_declare h.pos hlive, h.target_eq hs, Stack.assign]
  have hbound : ∀ t : ScopeId, (env.bindings t).contains name = true ↔
      ((env.bindings t).get? name).isSome := fun _ ↦ .rfl
  have hglobals : env.stack.globals name = (env.bindings .root).get? name := rfl
  rw [hglobals]
  simp only [hbound]
  split
  · rfl
  · split <;> rfl

end Environment

/-! ### Operations -/

/-- What can be done with an environment. -/
inductive Operation
  /-- Add a scope. -/
  | push
  /-- Remove a scope and those after it. -/
  | pop (s : ScopeId)
  /-- Look a variable up. -/
  | get (s : ScopeId) (name : String) (line : Nat)
  /-- Assign to a variable. -/
  | set (s : ScopeId) (name : String) (value : Word)
  /-- Bind a variable in the scope itself. -/
  | declare (s : ScopeId) (name : String) (value : Word)

/-- What is answered. -/
inductive Answer
  /-- It is done. -/
  | done
  /-- The address of the scope that was added. -/
  | scope (s : ScopeId)
  /-- The value of the variable. -/
  | value (value : Word)
  /-- There is no answer, for this reason. -/
  | failed (halt : Halt)
deriving DecidableEq

namespace Operation

/-- The address that an operation reads or writes a variable through. -/
def through? : Operation → Option ScopeId
  | push | pop _ => none
  | get s _ _ | set s _ _ | declare s _ _ => some s

/-- An operation as a run. -/
def run : Operation → Run Answer
  | push => do
    let s ← Run.pushScope
    pure (.scope s)
  | pop s => do
    Run.popScope s
    pure .done
  | get s name line => do
    let value ← Run.lookup s name line
    pure (.value value)
  | set s name value => do
    Run.assign s name value
    pure .done
  | declare s name value => do
    Run.declare s name value
    pure .done

/-- An operation on a machine: the answer, and the machine afterwards. -/
def perform (op : Operation) (m : Machine) : Answer × Machine :=
  match op.run m with
  | .ok answer m' => (answer, m')
  | .error h m' => (.failed h, m')

/-- What an operation does through an address, where a store is needed. -/
def throughStore (a : Stack) (s : ScopeId) (work : Store → Answer × Stack) :
    Answer × Stack :=
  match a.store? s.index with
  | none => (.failed .staleScope, a)
  | some store => work store

/-- An operation on a stack. -/
def onStack : Operation → Stack → Answer × Stack
  | push, a => (.scope ⟨a.frames.length + 1⟩, a.push)
  | pop s, a => (.done, a.pop s.index)
  | get s name line, a =>
    throughStore a s fun store ↦
      match a.value? store name with
      | some value => (.value value, a)
      | none => (.failed (.fault ⟨.undefinedVariable name, line⟩), a)
  | set s name value, a =>
    throughStore a s fun store ↦ (.done, a.assign store s.index name value)
  | declare s name value, a =>
    throughStore a s fun _ ↦ (.done, a.write name value s.index)

/-- Operations one after the other, whatever they answer: all the answers, and what is left. -/
def inTurn {σ : Type} (step : Operation → σ → Answer × σ) :
    List Operation → σ → List Answer × σ
  | [], state => ([], state)
  | op :: rest, state =>
    let first := step op state
    let others := inTurn step rest first.2
    (first.1 :: others.1, others.2)

/-! ### One operation -/

section Step

variable {m m' : Machine} {op : Operation}

theorem perform_of_ok {answer : Answer} (h : op.run m = .ok answer m') :
    op.perform m = (answer, m') := by
  rw [perform, h]

theorem perform_of_error {e : Halt} (h : op.run m = .error e m') :
    op.perform m = (.failed e, m') := by
  rw [perform, h]

/-- Through the address of a scope that is gone nothing is done. -/
theorem perform_of_dead {s : ScopeId} (hop : op.through? = some s) (hs : ¬ m.env.IsLive s) :
    op.perform m = (.failed .staleScope, m) := by
  cases op with
  | push | pop => cases hop
  | get t name line =>
    cases hop
    refine perform_of_error (bind_of_error ?_)
    rw [Run.lookup_eq, if_neg hs]
  | set t name value =>
    cases hop
    refine perform_of_error (bind_of_error ?_)
    rw [Run.assign_eq, if_neg hs]
  | declare t name value =>
    cases hop
    refine perform_of_error (bind_of_error ?_)
    rw [Run.declare_eq, if_neg hs]

theorem perform_get {s : ScopeId} (hs : m.env.IsLive s) (name : String) (line : Nat) :
    (get s name line).perform m =
      match m.env.get? s name with
      | some value => (.value value, m)
      | none => (.failed (.fault ⟨.undefinedVariable name, line⟩), m) := by
  have hlookup := Run.lookup_eq s name line m
  rw [if_pos hs] at hlookup
  cases hvalue : m.env.get? s name with
  | some value =>
    rw [hvalue] at hlookup
    exact perform_of_ok (bind_of_ok hlookup)
  | none =>
    rw [hvalue] at hlookup
    exact perform_of_error (bind_of_error hlookup)

theorem perform_set {s : ScopeId} (hs : m.env.IsLive s) (name : String) (value : Word) :
    ∃ journal, (set s name value).perform m =
      (.done, { m with env := m.env.set s name value, journal := journal }) := by
  have hassign := Run.assign_eq s name value m
  rw [if_pos hs] at hassign
  exact ⟨_, perform_of_ok (bind_of_ok hassign)⟩

theorem perform_declare {s : ScopeId} (hs : m.env.IsLive s) (name : String) (value : Word) :
    (declare s name value).perform m =
      (.done, { m with env := m.env.declare s name value }) := by
  have hdeclare := Run.declare_eq s name value m
  rw [if_pos hs] at hdeclare
  exact perform_of_ok (bind_of_ok hdeclare)

/-- An operation finds a scope gone exactly where it reads or writes a variable through its address.
-/
theorem perform_eq_stale_iff :
    (op.perform m).1 = .failed .staleScope ↔ ∃ s, op.through? = some s ∧ ¬ m.env.IsLive s := by
  constructor
  · intro hstale
    cases op with
    | push | pop => cases hstale
    | get s name line =>
      refine ⟨s, rfl, fun hs ↦ ?_⟩
      rw [perform_get hs] at hstale
      cases hvalue : m.env.get? s name <;> simp [hvalue] at hstale
    | set s name value =>
      refine ⟨s, rfl, fun hs ↦ ?_⟩
      obtain ⟨_, hset⟩ := perform_set hs name value
      rw [hset] at hstale
      cases hstale
    | declare s name value =>
      refine ⟨s, rfl, fun hs ↦ ?_⟩
      rw [perform_declare hs] at hstale
      cases hstale
  · rintro ⟨s, hop, hs⟩
    rw [perform_of_dead hop hs]

/-- An address means something exactly if the scope is live. -/
theorem throughStore_stack (h : m.env.IsTwoLevel) (s : ScopeId)
    (work : Store → Answer × Stack) :
    throughStore m.env.stack s work =
      if m.env.IsLive s then work (m.env.bindings s).get?
      else (.failed .staleScope, m.env.stack) := by
  rw [throughStore, Environment.store?_stack h.pos]
  by_cases hs : m.env.IsLive s
  · rw [if_pos hs, if_pos hs]
  · rw [if_neg hs, if_neg hs]

/-- An operation through a scope that is gone fails on both sides. -/
theorem onStack_of_dead (h : m.env.IsTwoLevel) {s : ScopeId} (hop : op.through? = some s)
    (hs : ¬ m.env.IsLive s) : op.onStack m.env.stack = (.failed .staleScope, m.env.stack) := by
  cases op with
  | push | pop => cases hop
  | get | set | declare =>
    cases hop
    exact (throughStore_stack h s _).trans (if_neg hs)

/-- **One operation** gives the same answer on the environment and on its stack, and the stacks are
the same afterwards. -/
theorem perform_stack (op : Operation) (h : m.env.IsTwoLevel) :
    (op.perform m).1 = (op.onStack m.env.stack).1 ∧
      (op.perform m).2.env.stack = (op.onStack m.env.stack).2 ∧
      (op.perform m).2.env.IsTwoLevel := by
  -- an address that is gone is refused before anything else is looked at
  by_cases hdead : ∃ s, op.through? = some s ∧ ¬ m.env.IsLive s
  · obtain ⟨s, hop, hs⟩ := hdead
    rw [perform_of_dead hop hs, onStack_of_dead h hop hs]
    exact ⟨rfl, rfl, h⟩
  have hlive : ∀ {s}, op.through? = some s → m.env.IsLive s :=
    fun hop ↦ Decidable.not_not.1 fun hs ↦ hdead ⟨_, hop, hs⟩
  cases op with
  | push =>
    refine ⟨?_, Environment.stack_push h.pos, h.push⟩
    have hnext : m.env.depth = m.env.depth - 1 + 1 := by
      have hpos := h.pos
      omega
    show Answer.scope ⟨m.env.depth⟩ = .scope ⟨m.env.stack.frames.length + 1⟩
    rw [Environment.length_frames_stack, ← hnext]
  | pop s => exact ⟨rfl, Environment.stack_pop h.pos s, h.pop s⟩
  | get s name line =>
    have hs : m.env.IsLive s := hlive rfl
    rw [perform_get hs, h.get?_eq hs, onStack, throughStore_stack h, if_pos hs]
    have hvalue : m.env.stack.value? (m.env.bindings s).get? name =
        ((m.env.bindings s).get? name).or ((m.env.bindings .root).get? name) := rfl
    rw [hvalue]
    cases ((m.env.bindings s).get? name).or ((m.env.bindings .root).get? name) with
    | some value => exact ⟨rfl, rfl, h⟩
    | none => exact ⟨rfl, rfl, h⟩
  | set s name value =>
    have hs : m.env.IsLive s := hlive rfl
    obtain ⟨journal, hset⟩ := perform_set hs name value
    rw [hset, onStack, throughStore_stack h, if_pos hs]
    exact ⟨rfl, Environment.stack_set h hs name value, h.set s name value⟩
  | declare s name value =>
    have hs : m.env.IsLive s := hlive rfl
    rw [perform_declare hs, onStack, throughStore_stack h, if_pos hs]
    exact ⟨rfl, Environment.stack_declare h.pos hs name value, h.declare s name value⟩

/-- **Operations one after the other** give the same answers on the environment and on its stack. -/
theorem inTurn_stack (ops : List Operation) (h : m.env.IsTwoLevel) :
    (inTurn perform ops m).1 = (inTurn onStack ops m.env.stack).1 ∧
      (inTurn perform ops m).2.env.stack = (inTurn onStack ops m.env.stack).2 ∧
      (inTurn perform ops m).2.env.IsTwoLevel := by
  induction ops generalizing m with
  | nil => exact ⟨rfl, rfl, h⟩
  | cons op rest ih =>
    obtain ⟨hanswer, hstack, hlevels⟩ := perform_stack op h
    obtain ⟨hanswers, hstacks, hend⟩ := ih hlevels
    rw [inTurn, inTurn, ← hstack]
    exact ⟨by rw [hanswer, hanswers], hstacks, hend⟩

end Step

end Operation

/-! ### What is seen of a write -/

namespace Environment

variable {env : Environment} {s t u : ScopeId} {name n : String} {value : Word}

/-- What is written to a scope is seen where its name is found in that scope, and nothing else is
seen to change. -/
theorem get?_declare (h : env.IsTwoLevel) (hu : env.IsLive u) (ht : env.IsLive t)
    (name n : String) (value : Word) :
    (env.declare u name value).get? t n =
      if n = name ∧ (env.declare u name value).resolve t name = some u then some value
      else env.get? t n := by
  have ht' : (env.declare u name value).IsLive t := by rwa [IsLive, depth_declare]
  have hroot : ScopeId.root = u ↔ u = .root := eq_comm
  rw [(h.declare u name value).get?_eq ht', (h.declare u name value).resolve_eq ht', h.get?_eq ht,
    bindings_declare hu, bindings_declare hu]
  by_cases hn : n = name
  · subst hn
    by_cases htu : t = u
    · subst htu
      simp [Bindings.contains]
    · by_cases hbound : (env.bindings t).contains n
      · -- hidden by what the scope itself binds
        obtain ⟨w, hw⟩ := Option.isSome_iff_exists.1 hbound
        simp [htu, hbound, hw]
      · have hnone : (env.bindings t).get? n = none := Option.not_isSome_iff_eq_none.1 hbound
        by_cases hglobal : u = .root
        · subst hglobal
          simp [htu, hnone, Bindings.contains]
        · simp [htu, hbound, hnone, hroot, hglobal]
  · have hsame : ∀ v : ScopeId, (if v = u then (env.bindings u).insert name value
        else env.bindings v).get? n = (env.bindings v).get? n := by
      intro v
      split
      · rename_i hv
        rw [Bindings.get?_insert_of_ne _ _ hn, hv]
      · rfl
    rw [hsame, hsame, if_neg (fun hfound ↦ hn hfound.1)]

/-- After a declaration the name is found in the scope it was made in. -/
theorem resolve_declare (h : env.IsTwoLevel) (hs : env.IsLive s) (name : String) (value : Word) :
    (env.declare s name value).resolve s name = some s := by
  have hs' : (env.declare s name value).IsLive s := by rwa [IsLive, depth_declare]
  rw [(h.declare s name value).resolve_eq hs', bindings_declare hs, if_pos rfl, if_pos]
  simp [Bindings.contains]

/-- After an assignment the name is found in the scope that it went to. -/
theorem resolve_set (h : env.IsTwoLevel) (hs : env.IsLive s) (name : String) (value : Word) :
    (env.set s name value).resolve s name = some (env.target s name) := by
  have hlive := h.isLive_target hs name
  have hs' : (env.declare (env.target s name) name value).IsLive s := by
    rwa [IsLive, depth_declare]
  have htarget := h.target_eq hs name
  rw [set, (h.declare _ name value).resolve_eq hs', bindings_declare hlive, bindings_declare hlive]
  by_cases hself : s = env.target s name
  · rw [if_pos hself, ← hself, if_pos]
    simp [Bindings.contains]
  · -- it went to the globals, since the scope does not bind the name
    rw [if_neg hself]
    by_cases hbound : (env.bindings s).contains name
    · rw [if_pos hbound] at htarget
      exact absurd htarget.symm hself
    · rw [if_neg hbound] at htarget
      split at htarget
      · rw [if_neg hbound, htarget, if_pos rfl, if_pos]
        simp [Bindings.contains]
      · exact absurd htarget.symm hself

/-! ### The scopes that are visited -/

/-- The scopes that a climb looks at, in order. -/
def visited (env : Environment) (name : String) : (steps : Nat) → ScopeId → List ScopeId
  | 0, _ => []
  | steps + 1, id =>
    match env.scopes[id.index]? with
    | none => []
    | some scope =>
      if scope.bindings.contains name then [id]
      else
        match scope.parent with
        | none => [id]
        | some parent => id :: env.visited name steps parent

/-- A climb ends at the first of the scopes visited that binds the name. -/
theorem climb_eq_find? (env : Environment) (name : String) (steps : Nat) (s : ScopeId) :
    env.climb name steps s =
      (env.visited name steps s).find? fun t ↦ (env.bindings t).contains name := by
  induction steps generalizing s with
  | zero => rfl
  | succ steps ih =>
    rw [climb, visited]
    cases hscope : env.scopes[s.index]? with
    | none => rfl
    | some scope =>
      have hbindings : env.bindings s = scope.bindings := by
        rw [bindings, hscope]
        rfl
      dsimp only
      by_cases hbound : scope.bindings.contains name
      · simp [hbound, hbindings]
      · cases scope.parent with
        | none => simp [hbound, hbindings]
        | some parent => simp [hbound, hbindings, ih]

/-- From no scope more than two are visited: the scope itself and the globals. -/
theorem length_visited_le (h : env.IsTwoLevel) (name : String) (steps : Nat) (s : ScopeId) :
    (env.visited name steps s).length ≤ 2 := by
  have hroot : ∀ steps, (env.visited name steps .root).length ≤ 1 := by
    intro steps
    cases steps with
    | zero => exact Nat.zero_le _
    | succ steps =>
      rw [visited]
      cases hscope : env.scopes[ScopeId.root.index]? with
      | none => exact Nat.zero_le _
      | some scope =>
        have hparent : scope.parent = none := h.parent hscope
        simp only [hparent]
        split <;> exact Nat.le_refl _
  cases steps with
  | zero => exact Nat.zero_le _
  | succ steps =>
    rw [visited]
    cases hscope : env.scopes[s.index]? with
    | none => exact Nat.zero_le _
    | some scope =>
      have hparent := h.parent hscope
      dsimp only
      split
      · exact Nat.le_succ 1
      · rw [hparent]
        by_cases hs : s.index = 0
        · rw [if_pos hs]
          exact Nat.le_succ 1
        · rw [if_neg hs]
          exact Nat.succ_le_succ (hroot steps)

end Environment

/-! ### Environments and stacks -/

/-- **Environments are stacks of frames.** Operations that are made one after the other on an empty
environment, through any addresses, are answered as they are on the empty stack, and lead to what is
seen as the same stack. So, in the environment they lead to: what is written under a name through an
address is seen under this name, and only where it is found in the same scope, and the rest is seen
unchanged; no more than two scopes are visited to find a name, and it is found in the first of these
that binds it; and an operation finds a scope gone exactly if it reads or writes a variable through
an address that is no smaller than the number of scopes. -/
theorem environment_is_stack {ops : List Operation} {console : Console} {journal : Journal}
    {answers : List Answer} {m : Machine}
    (h : Operation.inTurn Operation.perform ops ⟨.empty, console, journal⟩ = (answers, m)) :
    Operation.inTurn Operation.onStack ops .empty = (answers, m.env.stack) ∧
      (∀ s t name n value, m.env.IsLive s → m.env.IsLive t →
        (m.env.set s name value).get? t n =
          (if n = name ∧ (m.env.set s name value).resolve t name =
              (m.env.set s name value).resolve s name then some value else m.env.get? t n) ∧
        (m.env.declare s name value).get? t n =
          if n = name ∧ (m.env.declare s name value).resolve t name =
              (m.env.declare s name value).resolve s name then some value else m.env.get? t n) ∧
      (∀ s name, (m.env.visited name m.env.depth s).length ≤ 2 ∧
        m.env.resolve s name = (m.env.visited name m.env.depth s).find? fun t ↦
          (m.env.localValue? t name).isSome) ∧
      ∀ op : Operation, (op.perform m).1 = .failed .staleScope ↔
        ∃ s, op.through? = some s ∧ m.env.depth ≤ s.index := by
  have hstart : (Machine.mk .empty console journal).env.IsTwoLevel := .empty
  obtain ⟨hanswers, hstack, hlevels⟩ := Operation.inTurn_stack ops hstart
  rw [h] at hanswers hstack hlevels
  refine ⟨(Prod.ext hanswers hstack).symm, ?_, ?_, ?_⟩
  · intro s t name n value hs ht
    rw [Environment.resolve_set hlevels hs, Environment.resolve_declare hlevels hs]
    exact ⟨Environment.get?_declare hlevels (hlevels.isLive_target hs name) ht name n value,
      Environment.get?_declare hlevels hs ht name n value⟩
  · intro s name
    refine ⟨Environment.length_visited_le hlevels name _ s, ?_⟩
    simp only [Environment.localValue?_eq]
    exact Environment.climb_eq_find? m.env name m.env.depth s
  · intro op
    simp only [Operation.perform_eq_stale_iff, Environment.IsLive, Nat.not_lt]

/-- Scopes are removed out of order, and an address that was kept comes to mean a scope that is
pushed later. The global is seen through it, and the variable that was there before is not. -/
theorem environment_is_stack_kept_address :
    let ops : List Operation := [.push, .push, .declare ⟨2⟩ "x" .one, .set .root "y" .zero,
      .pop ⟨1⟩, .get ⟨2⟩ "x" 1, .push, .push, .get ⟨2⟩ "x" 2, .set ⟨2⟩ "y" .one, .get ⟨1⟩ "y" 3]
    let answers : List Answer := [.scope ⟨1⟩, .scope ⟨2⟩, .done, .done, .done, .failed .staleScope,
      .scope ⟨1⟩, .scope ⟨2⟩, .failed (.fault ⟨.undefinedVariable "x", 2⟩), .done, .value .one]
    ∃ m, Operation.inTurn Operation.perform ops ⟨.empty, Console.start [] .reliable, .silent⟩ =
        (answers, m) ∧
      Operation.inTurn Operation.onStack ops .empty = (answers, m.env.stack) ∧
      m.env.IsLive ⟨2⟩ ∧ m.env.IsLive .root ∧
      (m.env.set ⟨2⟩ "y" .minusOne).get? .root "y" = some .minusOne ∧
      ((Operation.get ⟨3⟩ "y" 4).perform m).1 = .failed .staleScope := by
  intro ops answers
  obtain ⟨x, hx⟩ : ∃ x, x =
      Operation.inTurn Operation.perform ops ⟨.empty, Console.start [] .reliable, .silent⟩ :=
    ⟨_, rfl⟩
  have hanswers : x.1 = answers := by
    rw [hx]
    decide +kernel
  have hdepth : x.2.env.depth = 3 := by
    rw [hx]
    decide +kernel
  have hsame : (x.2.env.set ⟨2⟩ "y" .minusOne).resolve .root "y" =
      (x.2.env.set ⟨2⟩ "y" .minusOne).resolve ⟨2⟩ "y" := by
    rw [hx]
    decide +kernel
  obtain ⟨_, m⟩ := x
  subst hanswers
  have hlive : m.env.IsLive ⟨2⟩ ∧ m.env.IsLive .root := by
    simp only [Environment.IsLive, hdepth]
    decide
  obtain ⟨hstack, hseen, -, hstale⟩ := environment_is_stack hx.symm
  have hwritten := (hseen ⟨2⟩ .root "y" "y" .minusOne hlive.1 hlive.2).1
  rw [if_pos ⟨rfl, hsame⟩] at hwritten
  exact ⟨m, hx.symm, hstack, hlive.1, hlive.2, hwritten,
    (hstale _).2 ⟨⟨3⟩, rfl, Nat.le_of_eq hdepth⟩⟩

end TinyProc
