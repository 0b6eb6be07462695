import TinyProc.Proofs.Run.Frame
import TinyProc.Proofs.Run.Unbounded

/-!
# Arithmetic never wraps around

A run goes in step with the run of the same program on unbounded numbers, up to the first operation
whose exact result is no word. There it stops, for an overflow on the line of that operation
(`Run.stops_at_first_excess`). If there is no such operation, the two end in the same way and leave
the same machine.

The machine is taken over by a function, `Machine.unbounded`, that reads its words as integers and
adds a list of operations. `Run.Agrees` says what the two endings have to do with each other, and
`Run.Simulates` that they do so wherever a run and its counterpart start. In a sequence the two are
not alike. The run stops where it overflows, but its counterpart goes on with a number that no word
stands for, and nothing can be said about what it does next. It does not have to be: operations are
only ever added (`Unbounded.Appends`), so that the first one beyond the words stays the first.
-/

namespace TinyProc

open Unbounded (firstExcess?)

/-! ### Words as integers -/

/-- Names with words, the words taken as integers. -/
def asIntegers (entries : List (String × Word)) : List (String × Int) :=
  entries.map fun entry ↦ (entry.1, entry.2.val)

/-- A name is searched for in the same way, and what is found is taken as an integer. -/
theorem valueIn?_asIntegers (name : String) (entries : List (String × Word)) :
    Unbounded.valueIn? name (asIntegers entries) =
      (Bindings.valueIn? name entries).map (·.val) := by
  induction entries with
  | nil => rfl
  | cons entry rest ih =>
    by_cases h : name = entry.1
    · simp [asIntegers, Unbounded.valueIn?, Bindings.valueIn?, h]
    · simpa [asIntegers, Unbounded.valueIn?, Bindings.valueIn?, h] using ih

/-- An entry goes to the same place, whether its value is a word or an integer. -/
theorem insertEntry_asIntegers (name : String) (value : Word) (entries : List (String × Word)) :
    Unbounded.insertEntry name value.val (asIntegers entries) =
      asIntegers (Bindings.insertEntry name value entries) := by
  induction entries with
  | nil => rfl
  | cons entry rest ih =>
    by_cases h : name = entry.1
    · simp [asIntegers, Unbounded.insertEntry, Bindings.insertEntry, h]
    · simpa [asIntegers, Unbounded.insertEntry, Bindings.insertEntry, h] using ih

/-- A scope with its words taken as integers. -/
def Scope.unbounded (s : Scope) : Unbounded.Scope where
  entries := asIntegers s.bindings.entries
  parent := s.parent

/-- An environment with its words taken as integers. -/
def Environment.unbounded (env : Environment) : Unbounded.Environment where
  scopes := env.scopes.map Scope.unbounded
  procedures := env.procedures

/-- A machine with its words taken as integers, and with operations that have been carried out. -/
def Machine.unbounded (m : Machine) (performed : List Unbounded.Operation) :
    Unbounded.Machine where
  env := m.env.unbounded
  input := m.console.input
  output := m.console.output.toList.map Word.val
  sink := m.console.sink
  activeCalls := m.console.activeCalls
  performed := performed

namespace Environment

variable (env : Environment) (scope : ScopeId) (name : String)

@[simp] theorem size_unbounded : env.unbounded.scopes.size = env.depth := by
  simp [unbounded, depth]

theorem getElem?_unbounded (i : Nat) :
    env.unbounded.scopes[i]? = (env.scopes[i]?).map Scope.unbounded :=
  Array.getElem?_map

@[simp] theorem push_unbounded : env.unbounded.push = env.push.unbounded := by
  simp [unbounded, Unbounded.Environment.push, push, Scope.unbounded, asIntegers, Bindings.empty]

@[simp] theorem pop_unbounded : env.unbounded.pop scope = (env.pop scope).unbounded := by
  unfold Unbounded.Environment.pop pop
  split
  · rfl
  · simp [unbounded]

/-- From a scope the search goes up through the same parents, since the same names are bound in
them. -/
theorem climb_unbounded (steps : Nat) :
    env.unbounded.climb name steps scope = env.climb name steps scope := by
  induction steps generalizing scope with
  | zero => rfl
  | succ steps ih =>
    rw [Unbounded.Environment.climb, climb, getElem?_unbounded]
    cases h : env.scopes[scope.index]? with
    | none => rfl
    | some s =>
      have hbound : (Unbounded.valueIn? name s.unbounded.entries).isSome =
          s.bindings.contains name := by
        rw [Scope.unbounded, valueIn?_asIntegers, Option.isSome_map]
        rfl
      simp only [Option.map_some, hbound]
      split
      · rfl
      · cases hparent : s.parent with
        | none => simp [Scope.unbounded, hparent]
        | some parent => simpa [Scope.unbounded, hparent] using ih parent

/-- A name is resolved to the same scope. -/
@[simp] theorem resolve_unbounded : env.unbounded.resolve scope name = env.resolve scope name := by
  rw [Unbounded.Environment.resolve, size_unbounded, climb_unbounded, resolve]

/-- A variable is found in both or in neither, and has the same value. -/
@[simp] theorem get?_unbounded :
    env.unbounded.get? scope name = (env.get? scope name).map (·.val) := by
  have hlocal : ∀ t, env.unbounded.localValue? t name = (env.localValue? t name).map (·.val) := by
    intro t
    rw [Unbounded.Environment.localValue?, localValue?, getElem?_unbounded]
    cases env.scopes[t.index]? with
    | none => rfl
    | some s => exact valueIn?_asIntegers name s.bindings.entries
  rw [Unbounded.Environment.get?, resolve_unbounded, get?]
  cases env.resolve scope name with
  | none => rfl
  | some t => exact hlocal t

/-- A declaration of a word can be made on either side. -/
@[simp] theorem declare_unbounded (value : Word) :
    env.unbounded.declare scope name value.val = (env.declare scope name value).unbounded := by
  have hscope : ∀ s : Scope, Scope.unbounded
      { s with bindings := s.bindings.insert name value } =
        { s.unbounded with
          entries := Unbounded.insertEntry name value.val s.unbounded.entries } := by
    intro s
    simp only [Scope.unbounded, insertEntry_asIntegers]
    rfl
  refine congrArg (Unbounded.Environment.mk · env.procedures) (Array.ext_getElem? fun i ↦ ?_)
  show (env.unbounded.scopes.modify scope.index _)[i]? =
    (env.declare scope name value).unbounded.scopes[i]?
  rw [getElem?_unbounded, declare, Array.getElem?_modify, Array.getElem?_modify,
    getElem?_unbounded]
  split
  · cases env.scopes[i]? with
    | none => rfl
    | some s => exact congrArg some (hscope s).symm
  · rfl

/-- An assignment of a word can be made on either side. -/
@[simp] theorem set_unbounded (value : Word) :
    env.unbounded.set scope name value.val = (env.set scope name value).unbounded := by
  rw [Unbounded.Environment.set, resolve_unbounded, declare_unbounded]
  rfl

end Environment

/-- An operator computes of words what it computes of integers, as far as that is a word. -/
theorem Operator.apply_eq_bind (op : Operator) (a b : Word) :
    op.apply a b = (Unbounded.apply op a.val b.val).bind checked := by
  have htruth : ∀ (p : Prop) [Decidable p],
      (.ok (Word.ofBool p) : Except FaultCause Word) = checked (if p then 1 else 0) := by
    intro p _
    by_cases hp : p
    · simp only [hp, decide_true, if_true]
      rfl
    · simp only [hp, decide_false, if_false]
      rfl
  cases op with
  | div =>
    rw [apply, Unbounded.apply]
    split <;> rfl
  | add | sub | mul => rfl
  | _ => exact htruth _

namespace Run

variable {α α' β β' : Type} {f : α → β} {g : α' → β'} {m : Machine}

/-! ### Endings that agree -/

/-- The halt for a result that is no word. -/
def IsOverflow (h : Halt) : Prop :=
  ∃ line, h = .fault ⟨.overflow, line⟩

/-- How a run ends and how it ends with unbounded numbers. Either the two end in the same way, and
no operation has gone beyond the words. Or the run has stopped at the first operation that has. -/
inductive Agrees (f : α → β) :
    EStateM.Result Halt Machine α → EStateM.Result Halt Unbounded.Machine β → Prop
  | ok {a : α} {m : Machine} {performed : List Unbounded.Operation} :
    firstExcess? performed = none → Agrees f (.ok a m) (.ok (f a) (m.unbounded performed))
  | error {h : Halt} {m : Machine} {performed : List Unbounded.Operation} :
    ¬ IsOverflow h → firstExcess? performed = none →
      Agrees f (.error h m) (.error h (m.unbounded performed))
  | overflow {m : Machine} {o : Unbounded.Operation}
    {r : EStateM.Result Halt Unbounded.Machine β} :
    firstExcess? (stateLeft r).performed = some o →
      o.output = m.console.output.toList.map Word.val →
        Agrees f (.error (.fault ⟨.overflow, o.line⟩) m) r

/-- A run and its counterpart with unbounded numbers, which agree wherever they start. -/
structure Simulates (f : α → β) (x : Run α) (y : Unbounded.Action β) : Prop where
  /-- The run leaves as many active calls as it has found. -/
  counts : ∀ m : Machine, (stateLeft (x m)).console.activeCalls = m.console.activeCalls
  /-- They agree, if no operation before them has gone beyond the words. -/
  agrees : ∀ (m : Machine) (performed : List Unbounded.Operation),
    firstExcess? performed = none → Agrees f (x m) (y (m.unbounded performed))

/-- Later operations do not matter for which is the first to go beyond the words. -/
theorem firstExcess?_of_isPrefix {before after : List Unbounded.Operation} {o : Unbounded.Operation}
    (h : before <+: after) (ho : firstExcess? before = some o) : firstExcess? after = some o := by
  obtain ⟨more, rfl⟩ := h
  rw [firstExcess?, List.find?_append, ← firstExcess?, ho]
  rfl

namespace Simulates

theorem pure (a : α) : Simulates f (pure a) (pure (f a)) where
  counts _ := rfl
  agrees _ _ h := .ok h

/-- A halt that is no overflow has the same halt as its counterpart. -/
theorem throw {h : Halt} (hh : ¬ IsOverflow h) :
    Simulates f (throw h : Run α) (throw h : Unbounded.Action β) where
  counts _ := rfl
  agrees _ _ hp := .error hh hp

/-- A sequence agrees with a sequence. Where the run stops for an overflow its counterpart goes on,
with numbers that are no words; of this nothing is known but that it adds operations. -/
theorem bind {x : Run α} {y : Unbounded.Action β} {k : α → Run α'} {l : β → Unbounded.Action β'}
    (hx : Simulates f x y) (hk : ∀ a, Simulates g (k a) (l (f a)))
    (hl : ∀ b, Unbounded.Appends (l b)) : Simulates g (x >>= k) (y >>= l) where
  counts m := by
    have hcounts := hx.counts m
    cases h : x m with
    | ok a m' =>
      rw [h] at hcounts
      rw [bind_of_ok h]
      exact ((hk a).counts m').trans hcounts
    | error e m' =>
      rw [h] at hcounts
      rw [bind_of_error h]
      exact hcounts
  agrees m performed hp := by
    have hagrees := hx.agrees m performed hp
    generalize hy : y (m.unbounded performed) = r at hagrees
    cases h : x m with
    | ok a m' =>
      rw [h] at hagrees
      cases hagrees with
      | ok hp' =>
        rw [bind_of_ok h, bind_of_ok hy]
        exact (hk a).agrees m' _ hp'
    | error e m' =>
      rw [h] at hagrees
      rw [bind_of_error h]
      cases hagrees with
      | error he hp' =>
        rw [bind_of_error hy]
        exact .error he hp'
      | overflow ho houtput =>
        -- the counterpart may have gone on; what it has added comes after the first excess
        refine .overflow (firstExcess?_of_isPrefix ?_ ho) houtput
        rw [← hy]
        exact Unbounded.appends_bind y hl _

/-- A choice that is the same on both sides. The conditions need not be the same proposition. -/
theorem ite {p q : Prop} [Decidable p] [Decidable q] (hpq : p ↔ q) {x x' : Run α}
    {y y' : Unbounded.Action β} (h : Simulates f x y) (h' : Simulates f x' y') :
    Simulates f (if p then x else x') (if q then y else y') := by
  by_cases hp : p
  · rw [if_pos hp, if_pos (hpq.1 hp)]
    exact h
  · rw [if_neg hp, if_neg fun hq ↦ hp (hpq.2 hq)]
    exact h'

end Simulates

/-! ### Single steps -/

/-- Other faults are no overflows. -/
theorem not_isOverflow_fault {cause : FaultCause} (hcause : cause ≠ .overflow) (line : Nat) :
    ¬ IsOverflow (.fault ⟨cause, line⟩) := by
  rintro ⟨line', heq⟩
  cases heq
  exact hcause rfl

/-- A fault that is no overflow is the same fault with unbounded numbers. -/
theorem fail_simulates {cause : FaultCause} (hcause : cause ≠ .overflow) (line : Nat) :
    Simulates f (fail cause line : Run α) (Unbounded.fail cause line) :=
  .throw (not_isOverflow_fault hcause line)

/-- An operation agrees with the exact one, which stops it where the result is no word. -/
theorem operate_simulates (op : Operator) (a b : Word) (line : Nat) :
    Simulates Word.val (orFail (op.apply a b) line) (Unbounded.operate op a.val b.val line) where
  counts m := by
    cases op.apply a b <;> rfl
  agrees m performed hp := by
    rw [op.apply_eq_bind]
    cases hexact : Unbounded.apply op a.val b.val with
    | error cause =>
      -- there is no result to speak of
      have hfail : Unbounded.operate op a.val b.val line (m.unbounded performed) =
          .error (.fault ⟨cause, line⟩) (m.unbounded performed) := by
        rw [Unbounded.operate, hexact]
        rfl
      have hcause : cause ≠ .overflow := by
        rintro rfl
        exact Unbounded.apply_ne_overflow op a.val b.val hexact
      rw [hfail]
      exact (fail_simulates hcause line).agrees m performed hp
    | ok i =>
      obtain ⟨o, ho⟩ : ∃ o : Unbounded.Operation,
          o = ⟨line, i, m.console.output.toList.map Word.val⟩ := ⟨_, rfl⟩
      have hdone : Unbounded.operate op a.val b.val line (m.unbounded performed) =
          .ok i (m.unbounded (performed ++ [o])) := by
        rw [Unbounded.operate, hexact, ho]
        rfl
      have hexcess : firstExcess? (performed ++ [o]) = if InRange i then none else some o := by
        rw [firstExcess?, List.find?_append, ← firstExcess?, hp, ho]
        by_cases hi : InRange i <;> simp [hi]
      rw [hdone]
      by_cases hi : InRange i
      · rw [if_pos hi] at hexcess
        have hword : Word.ofInt? i = some ⟨i, hi⟩ := dif_pos hi
        have hchecked : Operator.checked i = .ok ⟨i, hi⟩ := by
          rw [Operator.checked, hword]
        show Agrees Word.val (orFail (Operator.checked i) line m) _
        rw [hchecked]
        exact Agrees.ok (f := Word.val) (a := ⟨i, hi⟩) hexcess
      · rw [if_neg hi] at hexcess
        have hchecked : Operator.checked i = .error .overflow := by
          rw [Operator.checked, Word.ofInt?_eq_none_iff.2 hi]
        show Agrees Word.val (orFail (Operator.checked i) line m) _
        rw [hchecked]
        have hline : line = o.line := by rw [ho]
        rw [hline]
        exact .overflow hexcess (by rw [ho])

/-- Work that starts with the question whether a scope is live. -/
theorem Simulates.live {s : ScopeId} {k : Environment → Run α} {l : Unit → Unbounded.Action β}
    (hcounts : ∀ m, (stateLeft (k m.env m)).console.activeCalls = m.console.activeCalls)
    (hagrees : ∀ m performed, firstExcess? performed = none →
      Agrees f (k m.env m) (l () (m.unbounded performed))) :
    Simulates f (liveEnv s >>= k) (Unbounded.checkLive s >>= l) where
  counts m := by
    have henv := liveEnv_apply s m
    by_cases hs : m.env.IsLive s
    · rw [if_pos hs] at henv
      rw [bind_of_ok henv]
      exact hcounts m
    · rw [if_neg hs] at henv
      rw [bind_of_error henv]
      rfl
  agrees m performed hp := by
    have henv := liveEnv_apply s m
    have hcheck := Unbounded.checkLive_apply s (m.unbounded performed)
    have hsize : (m.unbounded performed).env.scopes.size = m.env.depth := m.env.size_unbounded
    by_cases hs : m.env.IsLive s
    · rw [if_pos hs] at henv
      rw [if_pos (hsize ▸ hs)] at hcheck
      rw [bind_of_ok henv, bind_of_ok hcheck]
      exact hagrees m performed hp
    · rw [if_neg hs] at henv
      rw [if_neg (hsize ▸ hs)] at hcheck
      rw [bind_of_error henv, bind_of_error hcheck]
      exact .error (by rintro ⟨line, ⟨⟩⟩) hp

/-- A lookup finds the same value, or fails for the same name. -/
theorem lookup_simulates (s : ScopeId) (name : String) (line : Nat) :
    Simulates Word.val (lookup s name line) (Unbounded.lookup s name line) := by
  refine .live (fun m ↦ ?_) fun m performed hp ↦ ?_
  · cases m.env.get? s name <;> rfl
  · have henv : (m.unbounded performed).env = m.env.unbounded := rfl
    rw [get_bind, henv, Environment.get?_unbounded]
    cases m.env.get? s name with
    | some value => exact .ok hp
    | none => exact (fail_simulates (by simp) line).agrees m performed hp

theorem assign_simulates (s : ScopeId) (name : String) (value : Word) :
    Simulates id (assign s name value) (Unbounded.assign s name value.val) := by
  refine .live (fun m ↦ rfl) fun m performed hp ↦ ?_
  show Agrees id _ (.ok () { m.unbounded performed with
    env := m.env.unbounded.set s name value.val })
  rw [Environment.set_unbounded]
  exact .ok hp

theorem declare_simulates (s : ScopeId) (name : String) (value : Word) :
    Simulates id (declare s name value) (Unbounded.declare s name value.val) := by
  refine .live (fun m ↦ rfl) fun m performed hp ↦ ?_
  show Agrees id _ (.ok () { m.unbounded performed with
    env := m.env.unbounded.declare s name value.val })
  rw [Environment.declare_unbounded]
  exact .ok hp

/-- The names of a call are declared one after the other on both sides. -/
theorem declareAll_simulates (s : ScopeId) (entries : List (String × Word)) :
    Simulates id (declareAll s entries) (Unbounded.declareAll s (asIntegers entries)) := by
  induction entries with
  | nil => exact .pure ()
  | cons entry rest ih =>
    exact .bind (declare_simulates s entry.1 entry.2) (fun _ ↦ ih) fun _ ↦
      Unbounded.declareAll_appends s _

/-! ### Input and output -/

/-- There is room on one console exactly if there is room on the other, since as many values have
been displayed. -/
theorem display_simulates (value : Word) (line : Nat) :
    Simulates id (display value line) (Unbounded.display value.val line) where
  counts m := by
    rw [display_apply]
    cases (m.console.display value).1 with
    | none => exact (m.console.display_frame value).1
    | some failure => exact (m.console.display_frame value).1
  agrees m performed hp := by
    have hfull : (m.unbounded performed).isFull = m.console.isFull := by
      have houtput : (m.unbounded performed).output.length = m.console.output.size :=
        List.length_map _
      unfold Unbounded.Machine.isFull
      rw [houtput]
      rfl
    have hpush : (m.unbounded performed).output ++ [value.val] =
        (m.console.output.push value).toList.map Word.val := by
      rw [Array.toList_push, List.map_append]
      rfl
    have hsink : (m.unbounded performed).sink = m.console.sink := rfl
    rw [Unbounded.display_apply, hfull, hpush, List.length_map, Array.length_toList, hsink,
      display_apply, Console.display]
    by_cases hroom : m.console.isFull
    · rw [if_pos hroom, if_pos hroom]
      exact (fail_simulates (by simp) line).agrees m performed hp
    · rw [if_neg hroom, if_neg hroom]
      by_cases hflush : m.console.sink.failingFlush = some (m.console.output.push value).size
      · simp only [if_pos hflush]
        exact .error (not_isOverflow_fault (by simp) _) hp
      · simp only [if_neg hflush]
        exact .ok hp

/-- Reading computes nothing, and so it never overflows: a number on a line that is no word is
refused on both sides. -/
theorem readWord_simulates (target : ReadTarget) :
    Simulates Word.val (readWord target) (Unbounded.readWord target) := by
  have hcause : ∀ name line, Console.readLine name line ≠ .error .overflow := by
    intro name line h
    obtain ⟨-, hcause⟩ | ⟨-, hcause | ⟨_, hcause⟩⟩ := Console.readLine_eq_error h <;> cases hcause
  have hresult : ∀ line, Simulates Word.val
      (orFail (Console.readLine target.name line) target.line) (do
        let value ← Unbounded.orFail (Console.readLine target.name line) target.line
        pure value.val) := by
    intro line
    cases h : Console.readLine target.name line with
    | ok value => exact .pure value
    | error cause =>
      refine fail_simulates ?_ target.line
      rintro rfl
      exact hcause target.name line h
  refine ⟨fun m ↦ ?_, fun m performed hp ↦ ?_⟩
  · exact (hresult (Console.splitLine m.console.input).1).counts
      { m with console := (m.console.read target.name).2 }
  · exact (hresult (Console.splitLine m.console.input).1).agrees
      { m with console := (m.console.read target.name).2 } performed hp

/-- The journal has no counterpart. -/
theorem Simulates.note {x : Run α} {y : Unbounded.Action β} (e : Event) (h : Simulates f x y) :
    Simulates f (note e >>= fun _ ↦ x) y where
  counts m := h.counts { m with journal := m.journal.note e }
  agrees m performed hp := h.agrees { m with journal := m.journal.note e } performed hp

/-- A read is an assignment of what has been read. -/
theorem readInto_simulates (s : ScopeId) (target : ReadTarget) :
    Simulates id (readInto s target) (Unbounded.readInto s target) :=
  .bind (readWord_simulates target) (fun _ ↦ .note _ (assign_simulates s target.name _)) fun _ ↦
    Unbounded.assign_appends s target.name _

theorem readAttached_simulates (s : ScopeId) (attached : Option ReadTarget) :
    Simulates id (readAttached s attached) (Unbounded.readAttached s attached) := by
  cases attached with
  | none => exact .pure ()
  | some target => exact readInto_simulates s target

/-! ### Procedures -/

/-- Whether a procedure can be registered, said by a search for its name. -/
theorem register_of_procedure? (p : Procedure) (m : Machine) :
    register p m = match m.env.procedure? p.name with
      | some _ => .error (.fault ⟨.procedureAlreadyDefined p.name, p.line⟩) m
      | none => .ok () { m with env := { m.env with procedures := m.env.procedures ++ [p] } } := by
  rw [register_eq, Environment.register?]
  cases m.env.procedure? p.name <;> rfl

/-- The same procedure is found, since the procedures are the same. -/
theorem procedure_simulates (name : String) (line : Nat) :
    Simulates id (procedure name line) (Unbounded.procedure name line) where
  counts m := by
    rw [procedure_apply]
    cases m.env.procedure? name <;> rfl
  agrees m performed hp := by
    rw [procedure_apply]
    show Agrees id _ ((match m.env.procedure? name with
      | some p => Pure.pure p
      | none => Unbounded.fail (.unknownProcedure name) line : Unbounded.Action Procedure) _)
    cases m.env.procedure? name with
    | some p => exact .ok hp
    | none => exact .error (not_isOverflow_fault (by simp) _) hp

/-- The check of a call is about names and numbers of arguments, not about values. -/
theorem checkCall_simulates (name : String) (arguments line : Nat) :
    Simulates id (checkCall name arguments line) (Unbounded.checkCall name arguments line) :=
  .bind (procedure_simulates name line)
    (fun _ ↦ .ite Iff.rfl (.pure ()) (fail_simulates (by simp) line))
    fun _ ↦ .ite (.pure ()) (.throw _)

theorem register_simulates (p : Procedure) :
    Simulates id (register p) (Unbounded.register p) := by
  refine ⟨fun m ↦ ?_, fun m performed hp ↦ ?_⟩
  · rw [register_of_procedure?]
    cases m.env.procedure? p.name <;> rfl
  · rw [register_of_procedure?]
    show Agrees id _ ((match m.env.procedure? p.name with
      | some _ => Unbounded.fail (.procedureAlreadyDefined p.name) p.line
      | none => modify _ : Unbounded.Action Unit) _)
    cases m.env.procedure? p.name with
    | some q => exact .error (not_isOverflow_fault (by simp) _) hp
    | none => exact .ok hp

theorem registerAll_simulates (ps : List Procedure) :
    Simulates id (registerAll ps) (Unbounded.registerAll ps) := by
  induction ps with
  | nil => exact .pure ()
  | cons p rest ih =>
    exact .bind (register_simulates p) (fun _ ↦ ih) fun _ ↦ Unbounded.registerAll_appends rest

/-! ### Expressions and statements -/

section Syntax

variable {call : Caller} {call' : Unbounded.Caller} {s : ScopeId}

/-- A way to carry out calls that agrees with one for unbounded numbers. -/
structure CallSimulates (call : Caller) (call' : Unbounded.Caller) : Prop where
  /-- The two agree where the arguments are words. -/
  simulates : ∀ name values line,
    Simulates Word.val (call name values line) (call' name (values.map Word.val) line)
  /-- The counterpart forgets no operation, whatever the arguments. -/
  appends : ∀ name values line, Unbounded.Appends (call' name values line)

mutual

/-- Evaluation agrees with the exact one, as long as the values are words. The parts that come later
are only asked to add operations. -/
theorem eval_simulates (hcall : CallSimulates call call') :
    (e : Expr) → Simulates Word.val (eval call s e) (Unbounded.eval call' s e)
  | .number value => .pure value
  | .variable name line => lookup_simulates s name line
  | .binary op left right line =>
    .bind (eval_simulates hcall left)
      (fun a ↦ .bind (eval_simulates hcall right) (fun b ↦ operate_simulates op a b line)
        fun _ ↦ Unbounded.operate_appends op _ _ line)
      fun _ ↦ .bind (Unbounded.eval_appends hcall.appends right) fun _ ↦
        Unbounded.operate_appends op _ _ line
  | .call name arguments line =>
    .bind (checkCall_simulates name _ line)
      (fun _ ↦ .bind (evalAll_simulates hcall arguments)
        (fun values ↦ hcall.simulates name values line) fun _ ↦ hcall.appends name _ line)
      fun _ ↦ .bind (Unbounded.evalAll_appends hcall.appends arguments) fun _ ↦
        hcall.appends name _ line

/-- Arguments, from left to right. -/
theorem evalAll_simulates (hcall : CallSimulates call call') :
    (es : List Expr) →
      Simulates (List.map Word.val) (evalAll call s es) (Unbounded.evalAll call' s es)
  | [] => .pure []
  | e :: rest =>
    .bind (eval_simulates hcall e)
      (fun value ↦ .bind (evalAll_simulates hcall rest) (fun values ↦ .pure (value :: values))
        fun _ ↦ .pure _)
      fun _ ↦ .bind (Unbounded.evalAll_appends hcall.appends rest) fun _ ↦ .pure _

end

/-- A condition is false on both sides or on neither. -/
theorem eq_zero_iff (value : Word) : value = .zero ↔ value.val = 0 := by
  rw [Word.ext_iff, Word.val_zero]

/-- A loop takes as many rounds on both sides, as long as it does not overflow. -/
theorem repeatWhile_simulates {condition : Run Word} {body : Run Unit}
    {condition' : Unbounded.Action Int} {body' : Unbounded.Action Unit}
    (hcondition : Simulates Word.val condition condition') (hbody : Simulates id body body')
    (hcappends : Unbounded.Appends condition') (hbappends : Unbounded.Appends body')
    (rounds : Nat) :
    Simulates id (repeatWhile condition body rounds)
      (Unbounded.repeatWhile condition' body' rounds) := by
  induction rounds with
  | zero =>
    refine .bind hcondition (fun value ↦ .ite (eq_zero_iff value) (.pure ()) (.throw ?_)) ?_
    · rintro ⟨line, ⟨⟩⟩
    · exact fun _ ↦ .ite (.pure ()) (.throw _)
  | succ rounds ih =>
    have hmore := Unbounded.repeatWhile_appends hcappends hbappends rounds
    refine .bind hcondition (fun value ↦ .ite (eq_zero_iff value) (.pure ()) ?_) ?_
    · exact .bind hbody (fun _ ↦ ih) fun _ ↦ hmore
    · exact fun _ ↦ .ite (.pure ()) (.bind hbappends fun _ ↦ hmore)

mutual

/-- A statement agrees with its counterpart. -/
theorem exec_simulates (hcall : CallSimulates call call') (rounds : Nat) :
    (t : Statement) → Simulates id (exec call rounds s t) (Unbounded.exec call' rounds s t)
  | .assign name value _ =>
    .bind (eval_simulates hcall value) (fun v ↦ assign_simulates s name v) fun _ ↦
      Unbounded.assign_appends s name _
  | .display value attached line =>
    .bind (eval_simulates hcall value)
      (fun v ↦ .bind (display_simulates v line) (fun _ ↦ readAttached_simulates s attached)
        fun _ ↦ Unbounded.readAttached_appends s attached)
      fun _ ↦ .bind (Unbounded.display_appends _ line) fun _ ↦
        Unbounded.readAttached_appends s attached
  | .read target => readInto_simulates s target
  | .branch condition thenBlock elseBlock _ =>
    .bind (eval_simulates hcall condition)
      (fun v ↦ .ite (eq_zero_iff v) (execElse_simulates hcall rounds elseBlock)
        (execBlock_simulates hcall rounds thenBlock))
      fun _ ↦ .ite (Unbounded.execElse_appends hcall.appends rounds elseBlock)
        (Unbounded.execBlock_appends hcall.appends rounds thenBlock)
  | .loop condition body _ =>
    repeatWhile_simulates (eval_simulates hcall condition) (execBlock_simulates hcall rounds body)
      (Unbounded.eval_appends hcall.appends condition)
      (Unbounded.execBlock_appends hcall.appends rounds body) rounds

theorem execBlock_simulates (hcall : CallSimulates call call') (rounds : Nat) :
    (block : List Statement) →
      Simulates id (execBlock call rounds s block) (Unbounded.execBlock call' rounds s block)
  | [] => .pure ()
  | t :: rest =>
    .bind (exec_simulates hcall rounds t) (fun _ ↦ execBlock_simulates hcall rounds rest) fun _ ↦
      Unbounded.execBlock_appends hcall.appends rounds rest

/-- A second block that is missing does nothing, on both sides. -/
theorem execElse_simulates (hcall : CallSimulates call call') (rounds : Nat) :
    (block? : Option (List Statement)) →
      Simulates id (execElse call rounds s block?) (Unbounded.execElse call' rounds s block?)
  | none => .pure ()
  | some block => execBlock_simulates hcall rounds block

end

end Syntax

/-! ### Scopes and calls -/

/-- A scope is released on both sides. -/
theorem Agrees.release {r : EStateM.Result Halt Machine α}
    {r' : EStateM.Result Halt Unbounded.Machine β} (h : Agrees f r r') (s : ScopeId) :
    Agrees f (release s r) (Unbounded.release s r') := by
  cases h with
  | @ok a m performed hp =>
    show Agrees f _ (.ok (f a) { m.unbounded performed with env := m.env.unbounded.pop s })
    rw [Environment.pop_unbounded]
    exact .ok hp
  | @error e m performed he hp =>
    show Agrees f _ (.error e { m.unbounded performed with env := m.env.unbounded.pop s })
    rw [Environment.pop_unbounded]
    exact .error he hp
  | overflow ho houtput =>
    refine .overflow ?_ houtput
    cases r' with
    | ok b m' => exact ho
    | error e m' => exact ho

/-- The machine with one active call less. -/
def withoutCall (m : Machine) : Machine :=
  { m with console := { m.console with activeCalls := m.console.activeCalls - 1 } }

/-- A call that has been counted is taken off the count. -/
theorem uncount_ok {a : α} (h : 0 < m.console.activeCalls) :
    uncount (.ok a m) = .ok a (withoutCall m) := by
  simp only [uncount, Console.leave?, if_pos h]
  rfl

theorem uncount_error {e : Halt} (h : 0 < m.console.activeCalls) :
    uncount (.error e m : EStateM.Result Halt Machine α) = .error e (withoutCall m) := by
  simp only [uncount, Console.leave?, if_pos h]
  rfl

/-- The count is one less afterwards, if there was a call on it. -/
theorem activeCalls_uncount {r : EStateM.Result Halt Machine α}
    (h : 0 < (stateLeft r).console.activeCalls) :
    (stateLeft (uncount r)).console.activeCalls = (stateLeft r).console.activeCalls - 1 := by
  cases r with
  | ok a m =>
    rw [uncount_ok (m := m) h]
    rfl
  | error e m =>
    rw [uncount_error (m := m) h]
    rfl

/-- A call is taken off the count on both sides, if it has been counted. -/
theorem Agrees.uncount {r : EStateM.Result Halt Machine α}
    {r' : EStateM.Result Halt Unbounded.Machine β} (h : Agrees f r r')
    (hcalls : 0 < (stateLeft r).console.activeCalls) :
    Agrees f (uncount r) (Unbounded.uncount r') := by
  cases h with
  | @ok a m performed hp =>
    have hleft : Unbounded.uncount (.ok (f a) (m.unbounded performed)) =
        .ok (f a) ((withoutCall m).unbounded performed) := if_pos hcalls
    rw [uncount_ok (m := m) hcalls, hleft]
    exact .ok hp
  | @error e m performed he hp =>
    have hleft : Unbounded.uncount (.error e (m.unbounded performed) :
          EStateM.Result Halt Unbounded.Machine β) =
        .error e ((withoutCall m).unbounded performed) := if_pos hcalls
    rw [uncount_error (m := m) hcalls, hleft]
    exact .error he hp
  | @overflow m o _ ho houtput =>
    rw [uncount_error (m := m) hcalls]
    refine .overflow ?_ houtput
    rw [Unbounded.performed_uncount]
    exact ho

/-- The work of a call is done in the same new scope on both sides. -/
theorem inFreshScope_simulates {work : ScopeId → Run α} {work' : ScopeId → Unbounded.Action β}
    (hwork : ∀ s, Simulates f (work s) (work' s)) :
    Simulates f (inFreshScope work) (Unbounded.inFreshScope work') where
  counts m := by
    have hcounts := (hwork m.env.nextScope).counts { m with env := m.env.push }
    rw [inFreshScope]
    cases h : work m.env.nextScope { m with env := m.env.push } with
    | ok a m' =>
      rw [h] at hcounts
      exact hcounts
    | error e m' =>
      rw [h] at hcounts
      exact hcounts
  agrees m performed hp := by
    have hagrees := (hwork m.env.nextScope).agrees { m with env := m.env.push } performed hp
    have hpush : Machine.unbounded { m with env := m.env.push } performed =
        { m.unbounded performed with env := m.env.unbounded.push } := by
      rw [Environment.push_unbounded]
      rfl
    have hscope : m.env.nextScope = ⟨(m.unbounded performed).env.scopes.size⟩ :=
      congrArg ScopeId.mk m.env.size_unbounded.symm
    rw [hpush] at hagrees
    rw [inFreshScope, Unbounded.inFreshScope, ← hscope]
    exact hagrees.release m.env.nextScope

/-- The machine with one more active call. -/
def withCall (m : Machine) : Machine :=
  { m with console := { m.console with activeCalls := m.console.activeCalls + 1 } }

theorem asCall_apply (work : Run α) (m : Machine) :
    asCall work m =
      if m.console.activeCalls < Console.maxCalls then uncount (work (withCall m))
      else .error .miscounted m := by
  by_cases h : m.console.activeCalls < Console.maxCalls
  · simp only [asCall, Console.enter?, if_pos h]
    rfl
  · simp only [asCall, Console.enter?, if_neg h]

/-- A call is counted on both sides while it is worked on. It is here that the count has to be kept
by the work, for there to be a call to take off. -/
theorem asCall_simulates {work : Run α} {work' : Unbounded.Action β}
    (hwork : Simulates f work work') : Simulates f (asCall work) (Unbounded.asCall work') := by
  have hcounted : ∀ m, (stateLeft (work (withCall m))).console.activeCalls =
      m.console.activeCalls + 1 := fun m ↦ hwork.counts (withCall m)
  refine ⟨fun m ↦ ?_, fun m performed hp ↦ ?_⟩
  · rw [asCall_apply]
    split
    · rw [activeCalls_uncount (by rw [hcounted]; exact Nat.succ_pos _), hcounted]
      rfl
    · rfl
  · rw [asCall_apply]
    show Agrees f _ (if m.console.activeCalls < Console.maxCalls then
      Unbounded.uncount (work' ((withCall m).unbounded performed)) else _)
    split
    · exact (hwork.agrees _ performed hp).uncount (by rw [hcounted]; exact Nat.succ_pos _)
    · exact .error (by rintro ⟨line, ⟨⟩⟩) hp

/-- The limit on calls is reached on both sides or on neither. -/
theorem checkDepth_simulates (calls line : Nat) :
    Simulates id (checkDepth calls line) (Unbounded.checkDepth calls line) where
  counts m := by
    rw [checkDepth_apply]
    split <;> rfl
  agrees m performed hp := by
    rw [checkDepth_apply]
    show Agrees id _ ((if m.console.activeCalls < calls then Pure.pure ()
      else Unbounded.fail (.callsTooDeep calls) line : Unbounded.Action Unit) _)
    split
    · exact .ok hp
    · exact .error (not_isOverflow_fault (by simp) _) hp

/-- The frame of a call with integers in place of the arguments. -/
theorem asIntegers_frame (p : Procedure) (values : List Word) :
    asIntegers (frame p values) = Unbounded.frame p (values.map Word.val) := by
  have hparams : ∀ params : List String,
      asIntegers (params.zip values) = params.zip (values.map Word.val) := by
    intro params
    rw [asIntegers, List.zip_map_right]
    rfl
  have hlocals : asIntegers (p.locals.map fun name ↦ (name, .zero)) =
      p.locals.map fun name ↦ (name, 0) := by
    rw [asIntegers, List.map_map]
    rfl
  rw [frame, Unbounded.frame, ← hparams, ← hlocals]
  simp [asIntegers]

/-- The body of a procedure, with the declarations in front of it and the lookup behind. -/
theorem runBody_simulates {call : Caller} {call' : Unbounded.Caller}
    (hcall : CallSimulates call call') (rounds : Nat) (p : Procedure) (values : List Word)
    (s : ScopeId) :
    Simulates Word.val (runBody call rounds p values s)
      (Unbounded.runBody call' rounds p (values.map Word.val) s) := by
  have hbody := execBlock_simulates (s := s) hcall rounds p.body
  have hdeclare := declareAll_simulates s (frame p values)
  rw [asIntegers_frame] at hdeclare
  refine .bind hdeclare (fun _ ↦ .bind hbody (fun _ ↦ lookup_simulates s p.name p.line) fun _ ↦
    Unbounded.lookup_appends s p.name p.line) fun _ ↦ ?_
  exact .bind (Unbounded.execBlock_appends hcall.appends rounds p.body) fun _ ↦
    Unbounded.lookup_appends s p.name p.line

/-- **A call agrees with a call**, by induction on the number of calls that may still be nested. -/
theorem invoke_simulates (bounds : Bounds) (n : Nat) :
    CallSimulates (invoke bounds n) (Unbounded.invoke bounds n) := by
  refine ⟨?_, Unbounded.invoke_appends bounds n⟩
  induction n with
  | zero =>
    intro name values line
    exact fail_simulates (by simp) line
  | succ n ih =>
    intro name values line
    have hcall : CallSimulates (invoke bounds n) (Unbounded.invoke bounds n) :=
      ⟨ih, Unbounded.invoke_appends bounds n⟩
    have hbody : ∀ p, Simulates Word.val
        (inFreshScope fun s ↦ asCall (runBody (invoke bounds n) bounds.rounds p values s))
        (Unbounded.inFreshScope fun s ↦ Unbounded.asCall (Unbounded.runBody
          (Unbounded.invoke bounds n) bounds.rounds p (values.map Word.val) s)) :=
      fun p ↦ inFreshScope_simulates fun s ↦
        asCall_simulates (runBody_simulates hcall bounds.rounds p values s)
    have happends : ∀ p, Unbounded.Appends (Unbounded.inFreshScope fun s ↦ Unbounded.asCall
        (Unbounded.runBody (Unbounded.invoke bounds n) bounds.rounds p (values.map Word.val) s)) :=
      fun p ↦ Unbounded.inFreshScope_appends fun s ↦
        Unbounded.asCall_appends (Unbounded.runBody_appends hcall.appends bounds.rounds p _)
    exact .bind (checkDepth_simulates bounds.calls line)
      (fun _ ↦ .bind (procedure_simulates name line) (fun p ↦ .note _ (hbody p)) happends)
      fun _ ↦ .bind (Unbounded.procedure_appends name line) happends

/-- A program agrees with its counterpart, on every machine. -/
theorem runProgram_simulates (bounds : Bounds) (p : Program) :
    Simulates id (runProgram bounds p) (Unbounded.runProgram bounds p) := by
  have hcall := invoke_simulates bounds bounds.calls
  exact .bind (registerAll_simulates p.procedures)
    (fun _ ↦ execBlock_simulates hcall bounds.rounds p.statements)
    fun _ ↦ Unbounded.execBlock_appends hcall.appends bounds.rounds p.statements

/-! ### Programs -/

/-- **Arithmetic never wraps around.** For every program, on every machine and within any bounds: a
run that ends in another way than by an overflow ends in the same way with unbounded numbers, and
leaves the same machine, with the same variables, input and output. A run stops for an overflow on a
line exactly if with unbounded numbers some operation has a result that is no word and the first of
them is on this line; what has been displayed by then is the same. -/
theorem stops_at_first_excess (bounds : Bounds) (p : Program) (m : Machine) :
    let unbounded := Unbounded.runProgram bounds p (m.unbounded [])
    (∀ m', runProgram bounds p m = .ok () m' →
      ∃ performed, unbounded = .ok () (m'.unbounded performed)) ∧
    (∀ h m', runProgram bounds p m = .error h m' → ¬ IsOverflow h →
      ∃ performed, unbounded = .error h (m'.unbounded performed)) ∧
    ∀ line output,
      (∃ m', runProgram bounds p m = .error (.fault ⟨.overflow, line⟩) m' ∧
        m'.console.output.toList.map Word.val = output) ↔
      ∃ o, firstExcess? (stateLeft unbounded).performed = some o ∧ o.line = line ∧
        o.output = output := by
  intro unbounded
  have hagrees : Agrees id (runProgram bounds p m) unbounded :=
    (runProgram_simulates bounds p).agrees m [] rfl
  refine ⟨fun m' h ↦ ?_, fun e m' h he ↦ ?_, fun line output ↦ ⟨?_, ?_⟩⟩
  · rw [h] at hagrees
    generalize unbounded = r at hagrees
    cases hagrees with
    | ok _ => exact ⟨_, rfl⟩
  · rw [h] at hagrees
    generalize unbounded = r at hagrees
    cases hagrees with
    | error _ _ => exact ⟨_, rfl⟩
    | overflow _ _ => exact absurd ⟨_, rfl⟩ he
  · rintro ⟨m', h, houtput⟩
    rw [h] at hagrees
    generalize unbounded = r at hagrees ⊢
    cases hagrees with
    | error he _ => exact absurd ⟨_, rfl⟩ he
    | @overflow _ o _ ho houtput' => exact ⟨o, ho, rfl, houtput'.trans houtput⟩
  · rintro ⟨o, ho, rfl, rfl⟩
    generalize unbounded = r at hagrees ho
    generalize runProgram bounds p m = q at hagrees ⊢
    cases hagrees with
    | ok hp =>
      rw [stateLeft_ok] at ho
      exact absurd (hp.symm.trans ho) nofun
    | error _ hp =>
      rw [stateLeft_error] at ho
      exact absurd (hp.symm.trans ho) nofun
    | @overflow m' o' _ ho' houtput =>
      obtain rfl : o' = o := Option.some.inj (ho'.symm.trans ho)
      exact ⟨m', rfl, houtput.symm⟩

/-- A square that is no word, computed in a call after something has been displayed. -/
theorem stops_at_first_excess_square :
    let square : Procedure :=
      ⟨"f", ["n"], [], [.assign "f" (.binary .mul (.variable "n" 2) (.variable "n" 2) 2) 2], 1⟩
    let big : Word := ⟨4611686018427387904, by decide⟩
    let p : Program := ⟨[square], [.display (.number big) none 4, .assign "x"
      (.binary .sub (.call "f" [.number big] 5) (.call "f" [.number big] 5) 5) 5]⟩
    let m : Machine := ⟨.empty, Console.start [] .reliable, .silent⟩
    ∃ o, firstExcess? (stateLeft
        (Unbounded.runProgram ⟨64, 10⟩ p (m.unbounded []))).performed = some o ∧ o.line = 2 ∧
      o.output = [4611686018427387904] := by
  intro square big p m
  refine ((stops_at_first_excess ⟨64, 10⟩ p m).2.2 2 _).1 ?_
  exact ⟨_, rfl, rfl⟩

end Run

end TinyProc
