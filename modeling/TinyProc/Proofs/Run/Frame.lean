import TinyProc.Proofs.Environment.TwoLevels
import TinyProc.Proofs.Run.Congruence
import TinyProc.Proofs.Sequencing

/-!
# What a run leaves alone

A run in a live scope of an environment with two levels ends, if it ends, with as many scopes and as
many active calls as it began with, with the same procedures, with every other scope but the globals
as it was, with no name unbound, with output only added and input only taken from the front. This
holds of every ending, faults included, and in no run is the address of a dead scope used or the
count of calls driven out of its range.

The facts are collected in one relation between the machines before and after, `Machine.Frame`. It
is a preorder, so that it goes along sequences, and it is indexed by the one scope that may get new
names: the scope a statement runs in, and none for an expression. A call is what makes the index
worth its while. The body may bind new names in the scope of the call only, that scope is gone
afterwards, and so the call as a whole binds no new name anywhere (`Run.invoke_keeps`).

`Run.Keeps` says of a run that it respects the frame whatever machine it starts from. There is one
lemma for each step, the forms of syntax follow since it is a congruence, and the knot is tied along
the recursion of `Run.invoke`.
-/

namespace TinyProc

/-! ### The frame -/

/-- What is left alone between two machines where only the scope `w` may get new names. -/
structure Machine.Frame (w : Option ScopeId) (m m' : Machine) : Prop where
  /-- There are as many scopes. -/
  depth : m'.env.depth = m.env.depth
  /-- The procedures are the same. -/
  procedures : m'.env.procedures = m.env.procedures
  /-- No scope has changed its parent. -/
  parents : ∀ i : Nat, (m'.env.scopes[i]?).map (·.parent) = (m.env.scopes[i]?).map (·.parent)
  /-- Every scope but `w` and the globals holds what it held. -/
  others : ∀ t : ScopeId, t ≠ .root → some t ≠ w → m'.env.bindings t = m.env.bindings t
  /-- Every scope but `w` binds no more names than it bound. -/
  names : ∀ (t : ScopeId) (n : String), some t ≠ w → m'.env.Binds t n → m.env.Binds t n
  /-- Every scope binds the names that it bound. -/
  bound : ∀ (t : ScopeId) (n : String), m.env.Binds t n → m'.env.Binds t n
  /-- There are as many active calls. -/
  activeCalls : m'.console.activeCalls = m.console.activeCalls
  /-- The output has at most become longer. -/
  output : m.console.output.toList <+: m'.console.output.toList
  /-- The input has at most been read further. -/
  input : m'.console.input <:+ m.console.input

/-- A run may start in the scope: there are two levels, and the scope is live. -/
structure Machine.Ready (m : Machine) (s : ScopeId) : Prop where
  /-- There are two levels. -/
  isTwoLevel : m.env.IsTwoLevel
  /-- The scope is live. -/
  isLive : m.env.IsLive s

/-- The machine on which the body of a call starts: one more scope, one more active call. -/
def Machine.enterCall (m : Machine) : Machine :=
  { m with
    env := m.env.push
    console := { m.console with activeCalls := m.console.activeCalls + 1 } }

/-- The machine that is left when the call with the scope `t` is over. -/
def Machine.leaveCall (m : Machine) (t : ScopeId) : Machine :=
  { m with
    env := m.env.pop t
    console := { m.console with activeCalls := m.console.activeCalls - 1 } }

/-- The machine with these procedures. -/
def Machine.withProcedures (m : Machine) (procedures : List Procedure) : Machine :=
  { m with env := { m.env with procedures := procedures } }

/-- The machine with more procedures. -/
def Machine.withRegistered (m : Machine) (procedures : List Procedure) : Machine :=
  { m with env := { m.env with procedures := m.env.procedures ++ procedures } }

namespace Machine.Frame

variable {m m' m'' : Machine} {w : Option ScopeId} {s : ScopeId}

theorem refl (m : Machine) : m.Frame w m where
  depth := rfl
  procedures := rfl
  parents _ := rfl
  others _ _ _ := rfl
  names _ _ _ h := h
  bound _ _ h := h
  activeCalls := rfl
  output := List.prefix_refl _
  input := List.suffix_refl _

/-- One stretch after another. Both may bind names in the same scope only. -/
theorem trans (h : m.Frame w m') (h' : m'.Frame w m'') : m.Frame w m'' where
  depth := h'.depth.trans h.depth
  procedures := h'.procedures.trans h.procedures
  parents i := (h'.parents i).trans (h.parents i)
  others t ht hw := (h'.others t ht hw).trans (h.others t ht hw)
  names t n hw hb := h.names t n hw (h'.names t n hw hb)
  bound t n hb := h'.bound t n (h.bound t n hb)
  activeCalls := h'.activeCalls.trans h.activeCalls
  output := h.output.trans h'.output
  input := h'.input.trans h.input

/-- Where no scope gets new names, the one that might gets none. -/
theorem weaken (h : m.Frame none m') : m.Frame w m' where
  depth := h.depth
  procedures := h.procedures
  parents := h.parents
  others t ht _ := h.others t ht nofun
  names t n _ hb := h.names t n nofun hb
  bound := h.bound
  activeCalls := h.activeCalls
  output := h.output
  input := h.input

theorem isTwoLevel (h : m.Frame w m') (hm : m.env.IsTwoLevel) : m'.env.IsTwoLevel :=
  hm.of_parents h.depth h.parents

/-- What has kept the frame goes on in the same scope. -/
theorem ready (h : m.Frame w m') (hm : m.Ready s) : m'.Ready s where
  isTwoLevel := h.isTwoLevel hm.isTwoLevel
  isLive := by
    rw [Environment.IsLive, h.depth]
    exact hm.isLive

/-- The journal is no part of the frame. -/
theorem withJournal (m : Machine) (journal : Journal) :
    m.Frame w { m with journal := journal } :=
  { refl m with }

/-- A step on the console keeps the frame if it leaves the count and only adds output and takes
input. -/
theorem withConsole {console : Console} (hcalls : console.activeCalls = m.console.activeCalls)
    (houtput : m.console.output.toList <+: console.output.toList)
    (hinput : console.input <:+ m.console.input) : m.Frame w { m with console := console } :=
  { refl m with
    activeCalls := hcalls
    output := houtput
    input := hinput }

/-- A declaration in the scope that may get new names, or of a name that is bound already. -/
theorem declare {t : ScopeId} (ht : m.env.IsLive t) (name : String) (value : Word)
    (hw : some t = w ∨ t = .root ∧ m.env.Binds t name) :
    m.Frame w { m with env := m.env.declare t name value } :=
  { refl (w := w) m with
    depth := Environment.depth_declare ..
    parents := by
      intro i
      simp only [Environment.declare, Array.getElem?_modify]
      split
      · rw [Option.map_map]
        rfl
      · rfl
    others := by
      intro u hu huw
      show (m.env.declare t name value).bindings u = _
      rw [Environment.bindings_declare ht, if_neg]
      rintro rfl
      rcases hw with hw | ⟨hroot, -⟩
      · exact huw hw
      · exact hu hroot
    names := by
      intro u n huw hb
      have hb' : ((m.env.declare t name value).localValue? u n).isSome := hb
      rw [Environment.localValue?_declare m.env ht] at hb'
      split at hb'
      · -- the name declared: it is new in `w` only
        rename_i h
        obtain ⟨rfl, rfl⟩ := h
        rcases hw with hw | ⟨-, hbound⟩
        · exact absurd hw huw
        · exact hbound
      · exact hb'
    bound := by
      intro u n hb
      show ((m.env.declare t name value).localValue? u n).isSome
      rw [Environment.localValue?_declare m.env ht]
      split
      · rfl
      · exact hb }

end Machine.Frame

namespace Console

/-- Displaying adds to the output and does nothing else. -/
theorem display_frame (c : Console) (value : Word) :
    (c.display value).2.activeCalls = c.activeCalls ∧
      c.output.toList <+: (c.display value).2.output.toList ∧
      (c.display value).2.input <:+ c.input := by
  unfold display
  split
  · exact ⟨rfl, List.prefix_refl _, List.suffix_refl _⟩
  · dsimp only
    split <;> simp

/-- Reading takes a line off the input and does nothing else. -/
theorem read_frame (c : Console) (name : String) :
    (c.read name).2.activeCalls = c.activeCalls ∧
      c.output.toList <+: (c.read name).2.output.toList ∧
      (c.read name).2.input <:+ c.input :=
  ⟨rfl, List.prefix_refl _, ⟨_, splitLine_append c.input⟩⟩

end Console

/-! ### Runs that respect the frame -/

/-- A halt that programs can bring about: neither was the address of a dead scope used, nor has the
count of calls left its range. -/
def Halt.IsClean : Halt → Prop
  | fault _ | outOfRounds => True
  | staleScope | miscounted => False

namespace Run

variable {α β : Type} {m m' : Machine} {s : ScopeId} {w : Option ScopeId}

/-- An ending that respects the frame of the machine it began with. -/
def Kept (w : Option ScopeId) (m : Machine) : EStateM.Result Halt Machine α → Prop
  | .ok _ m' => m.Frame w m'
  | .error h m' => h.IsClean ∧ m.Frame w m'

/-- A run that respects the frame wherever it may start in the scope. -/
def Keeps (s : ScopeId) (w : Option ScopeId) (x : Run α) : Prop :=
  ∀ m : Machine, m.Ready s → Kept w m (x m)

/-- A run that keeps the frame, behind something that has kept it. -/
theorem Kept.after {r : EStateM.Result Halt Machine α} (h : m.Frame w m') (hr : Kept w m' r) :
    Kept w m r := by
  cases r with
  | ok a m'' => exact h.trans hr
  | error e m'' => exact ⟨hr.1, h.trans hr.2⟩

/-- A run that binds no new name may be taken for one that might. -/
theorem Kept.weaken {r : EStateM.Result Halt Machine α} (h : Kept none m r) : Kept w m r := by
  cases r with
  | ok a m' => exact Machine.Frame.weaken h
  | error e m' => exact ⟨h.1, h.2.weaken⟩

/-- The frame is respected however the run has ended. -/
theorem frame_of_kept {r : EStateM.Result Halt Machine α} (h : Kept w m r) :
    m.Frame w (stateLeft r) := by
  cases r with
  | ok _ _ => exact h
  | error _ _ => exact h.2

theorem Keeps.weaken {x : Run α} (h : Keeps s none x) : Keeps s w x :=
  fun m hm ↦ (h m hm).weaken

theorem Keeps.pure (a : α) : Keeps s w (pure a : Run α) :=
  fun m _ ↦ Machine.Frame.refl m

/-- A halt keeps the frame, if it is none of those that never happen. -/
theorem Keeps.throw {h : Halt} (hh : h.IsClean) : Keeps s w (throw h : Run α) :=
  fun m _ ↦ ⟨hh, Machine.Frame.refl m⟩

theorem Keeps.bind {x : Run α} {f : α → Run β} (hx : Keeps s w x)
    (hf : ∀ a, Keeps s w (f a)) : Keeps s w (x >>= f) := by
  intro m hm
  have hxm := hx m hm
  cases h : x m with
  | ok a m' =>
    rw [h] at hxm
    rw [bind_of_ok h]
    exact Kept.after hxm (hf a m' (hxm.ready hm))
  | error e m' =>
    rw [h] at hxm
    rw [bind_of_error h]
    exact hxm

theorem Keeps.ite {p : Prop} [Decidable p] {x y : Run α} (hx : Keeps s w x) (hy : Keeps s w y) :
    Keeps s w (if p then x else y) := by
  split
  · exact hx
  · exact hy

/-! ### Single steps -/

/-- A fault changes nothing. -/
theorem fail_keeps (cause : FaultCause) (line : Nat) : Keeps s w (fail cause line : Run α) :=
  .throw trivial

theorem orFail_keeps (result : Except FaultCause α) (line : Nat) :
    Keeps s w (orFail result line) := by
  cases result with
  | ok a => exact .pure a
  | error cause => exact fail_keeps cause line

theorem note_keeps (e : Event) : Keeps s w (note e) :=
  fun m _ ↦ .withJournal m _

/-- The scope is live, so that whoever asks for the environment gets it. -/
theorem liveEnv_bind_apply (hm : m.Ready s) (f : Environment → Run α) :
    (liveEnv s >>= f) m = f m.env m :=
  bind_of_ok (by rw [liveEnv_apply, if_pos hm.isLive])

/-- A lookup changes nothing. It does not find the scope gone, since it is live. -/
theorem lookup_keeps (name : String) (line : Nat) : Keeps s w (lookup s name line) := by
  intro m hm
  rw [lookup, liveEnv_bind_apply hm]
  cases m.env.get? s name with
  | some value => exact .refl m
  | none => exact fail_keeps _ line m hm

/-- In a live scope, an assignment always succeeds. -/
theorem assign_apply (hm : m.Ready s) (name : String) (value : Word) :
    assign s name value m =
      .ok () { m with
        env := m.env.set s name value
        journal := m.journal.note (.assigned name value (m.env.target s name).index) } := by
  rw [assign, liveEnv_bind_apply hm]
  rfl

/-- An assignment that does not stay in the scope goes to a global that is bound already. -/
theorem assign_keeps (name : String) (value : Word) : Keeps s (some s) (assign s name value) := by
  intro m hm
  rw [assign_apply hm]
  have hlive := hm.isTwoLevel.isLive_target hm.isLive name
  refine (Machine.Frame.declare hlive name value ?_).trans (.withJournal _ _)
  rw [hm.isTwoLevel.target_eq hm.isLive]
  split
  · exact .inl rfl
  · split
    · rename_i hglobal
      exact .inr ⟨rfl, Environment.binds_iff.2 hglobal⟩
    · exact .inl rfl

/-- A declaration binds a name in the scope and nowhere else. -/
theorem declare_keeps (name : String) (value : Word) :
    Keeps s (some s) (declare s name value) := by
  intro m hm
  rw [declare, liveEnv_bind_apply hm]
  exact .declare hm.isLive name value (.inl rfl)

/-! ### Input and output -/

theorem display_apply (value : Word) (line : Nat) (m : Machine) :
    display value line m =
      match (m.console.display value).1 with
      | none => .ok () { m with console := (m.console.display value).2 }
      | some failure =>
        .error (.fault ⟨.stream failure, line⟩)
          { m with console := (m.console.display value).2 } := by
  show (match (m.console.display value).1 with
    | none => pure ()
    | some failure => fail (.stream failure) line : Run Unit)
      { m with console := (m.console.display value).2 } = _
  cases (m.console.display value).1 <;> rfl

/-- A display only adds output. -/
theorem display_keeps (value : Word) (line : Nat) : Keeps s w (display value line) := by
  intro m hm
  obtain ⟨hcalls, houtput, hinput⟩ := m.console.display_frame value
  have hframe : m.Frame w { m with console := (m.console.display value).2 } :=
    .withConsole hcalls houtput hinput
  rw [display_apply]
  cases (m.console.display value).1 with
  | none => exact hframe
  | some failure => exact ⟨trivial, hframe⟩

theorem readWord_keeps (target : ReadTarget) : Keeps s w (readWord target) := by
  intro m hm
  obtain ⟨hcalls, houtput, hinput⟩ := m.console.read_frame target.name
  have hframe : m.Frame w { m with console := (m.console.read target.name).2 } :=
    .withConsole hcalls houtput hinput
  show Kept w m (orFail (m.console.read target.name).1 target.line
    { m with console := (m.console.read target.name).2 })
  exact Kept.after hframe (orFail_keeps _ _ _ (hframe.ready hm))

/-- A read takes input and assigns, so that it may bind a name. -/
theorem readInto_keeps (target : ReadTarget) : Keeps s (some s) (readInto s target) :=
  .bind (readWord_keeps target) fun _ ↦
    .bind (note_keeps _) fun _ ↦ assign_keeps target.name _

/-! ### Expressions and statements -/

theorem procedure_apply (name : String) (line : Nat) (m : Machine) :
    procedure name line m =
      match m.env.procedure? name with
      | some p => .ok p m
      | none => .error (.fault ⟨.unknownProcedure name, line⟩) m := by
  show (match m.env.procedure? name with
    | some p => pure p
    | none => fail (.unknownProcedure name) line : Run Procedure) m = _
  cases m.env.procedure? name <;> rfl

theorem register_eq (p : Procedure) (m : Machine) :
    register p m = (match m.env.register? p with
      | some env => modifyEnv fun _ ↦ env
      | none => fail (.procedureAlreadyDefined p.name) p.line : Run Unit) m := rfl

/-- Looking for a procedure changes nothing. -/
theorem procedure_keeps (name : String) (line : Nat) : Keeps s w (procedure name line) := by
  intro m hm
  rw [procedure_apply]
  cases m.env.procedure? name with
  | some p => exact .refl m
  | none => exact ⟨trivial, .refl m⟩

/-- The check of a call changes nothing. -/
theorem checkCall_keeps (name : String) (arguments line : Nat) :
    Keeps s w (checkCall name arguments line) :=
  .bind (procedure_keeps name line) fun _ ↦ .ite (.pure ()) (fail_keeps _ line)

/-- A way to carry out calls that creates no name in any scope, wherever it is used. -/
def CallKeeps (call : Caller) : Prop :=
  ∀ (s : ScopeId) (name : String) (values : List Word) (line : Nat),
    Keeps s none (call name values line)

/-- Evaluation takes steps that respect the frame, whichever scope may get new names. -/
theorem keeps_evalCongruence (s : ScopeId) (w : Option ScopeId) :
    EvalCongruence Eq s fun _ _ x ↦ Keeps s w x where
  pure := .pure
  bind := .bind
  apply _ _ _ _ line _ := orFail_keeps _ line
  lookup name _ line _ := lookup_keeps name line
  checkCall name arguments _ line _ := checkCall_keeps name arguments line

/-- Execution takes steps that respect the frame if its own scope may get new names. -/
theorem keeps_stepCongruence (s : ScopeId) :
    StepCongruence Eq s fun _ _ x ↦ Keeps s (some s) x where
  toEvalCongruence := keeps_evalCongruence s (some s)
  assign := assign_keeps
  declare := declare_keeps
  display value _ line _ := display_keeps value line
  readInto _ := readInto_keeps _

/-- Statements keep the frame, as far as the calls in them do. The rule for loops follows from the
others. -/
theorem keeps_execCongruence (s : ScopeId) (rounds : Nat) :
    ExecCongruence Eq s rounds rounds fun _ _ x ↦ Keeps s (some s) x :=
  (keeps_stepCongruence s).withRounds (.throw trivial) rounds

theorem declareAll_keeps (entries : List (String × Word)) :
    Keeps s (some s) (declareAll s entries) :=
  (keeps_execCongruence s 0).declareAll entries

section Syntax

variable {call : Caller} (hcall : CallKeeps call)
include hcall

/-- Calls leave no name behind, so that they may be made in every scope. -/
theorem CallKeeps.related (s : ScopeId) (w : Option ScopeId) :
    CallersRelated Eq (fun _ _ x ↦ Keeps s w x) call call :=
  callersRelated_eq fun name values line ↦ (hcall s name values line).weaken

/-- An expression creates no name in any scope. The arguments of a call are evaluated in the scope
of the caller, before the call has one of its own. -/
theorem eval_keeps (e : Expr) : Keeps s none (eval call s e) :=
  (keeps_evalCongruence s none).eval (hcall.related s none) e (.refl e)

/-- Arguments bind no new names, like all expressions. -/
theorem evalAll_keeps (es : List Expr) : Keeps s none (evalAll call s es) :=
  (keeps_evalCongruence s none).evalAll (hcall.related s none) es (Expr.Moved.refl_all es)

/-- A statement creates names in its own scope at most. -/
theorem exec_keeps (rounds : Nat) (t : Statement) : Keeps s (some s) (exec call rounds s t) :=
  (keeps_execCongruence s rounds).exec (hcall.related s (some s)) t (.refl t)

/-- The statements of a block may bind names in its scope. -/
theorem execBlock_keeps (rounds : Nat) (block : List Statement) :
    Keeps s (some s) (execBlock call rounds s block) :=
  (keeps_execCongruence s rounds).execBlock (hcall.related s (some s)) block
    (Block.Moved.refl block)

/-- The body of a procedure may bind names in the scope of its call. -/
theorem runBody_keeps (rounds : Nat) (p : Procedure) (values : List Word) :
    Keeps s (some s) (runBody call rounds p values s) :=
  (keeps_execCongruence s rounds).runBody (hcall.related s (some s)) (.refl p) values

end Syntax

/-! ### Calls -/

/-- A run may start in the scope that has just been pushed. -/
theorem ready_push (hm : m.env.IsTwoLevel) (console : Console) (journal : Journal) :
    Machine.Ready ⟨m.env.push, console, journal⟩ m.env.nextScope where
  isTwoLevel := hm.push
  isLive := by
    show m.env.depth < m.env.push.depth
    simp

/-- The scope of a call is the newest one, and live. -/
theorem enterCall_ready (hm : m.env.IsTwoLevel) : m.enterCall.Ready m.env.nextScope :=
  ready_push hm _ _

section LeaveCall

variable {m₂ : Machine}

/-- The call itself is still counted where its body ends. -/
theorem activeCalls_pos (h : m.enterCall.Frame w m₂) : 0 < m₂.console.activeCalls := by
  rw [h.activeCalls]
  exact Nat.succ_pos _

/-- After a call, the scopes above the globals hold what they held. -/
theorem bindings_leaveCall (hm : m.env.IsTwoLevel)
    (h : m.enterCall.Frame (some m.env.nextScope) m₂) {u : ScopeId} (hu : u ≠ .root) :
    (m₂.leaveCall m.env.nextScope).env.bindings u = m.env.bindings u := by
  show (m₂.env.pop m.env.nextScope).bindings u = _
  rw [Environment.bindings_pop (Environment.nextScope_ne_root hm.pos)]
  by_cases hlt : u.index < m.env.depth
  · have hne : some u ≠ some m.env.nextScope := by
      rintro ⟨rfl⟩
      exact Nat.lt_irrefl _ hlt
    have hsame : m₂.env.bindings u = m.env.push.bindings u := h.others u hu hne
    rw [if_pos (show u.index < m.env.nextScope.index from hlt), hsame, Environment.bindings_push]
  · -- no such scope, neither before the call nor after it
    rw [if_neg (show ¬ u.index < m.env.nextScope.index from hlt),
      Environment.bindings_of_le (Nat.le_of_not_lt hlt)]

/-- After a call, every scope binds the names that it bound, and no others. -/
theorem binds_leaveCall (hm : m.env.IsTwoLevel)
    (h : m.enterCall.Frame (some m.env.nextScope) m₂) (u : ScopeId) (n : String) :
    (m₂.leaveCall m.env.nextScope).env.Binds u n ↔ m.env.Binds u n := by
  have hroot := Environment.nextScope_ne_root hm.pos
  by_cases hu : u = .root
  · subst hu
    -- the body may have changed the values of globals, but it has created none
    have hpop : (m₂.env.pop m.env.nextScope).bindings .root = m₂.env.bindings .root := by
      rw [Environment.bindings_pop hroot]
      exact if_pos hm.pos
    have hpush : m.enterCall.env.Binds .root n ↔ m.env.Binds .root n := by
      rw [Environment.binds_iff, Environment.binds_iff]
      show (m.env.push.bindings .root).contains n = true ↔ _
      rw [Environment.bindings_push]
    have hne : some ScopeId.root ≠ some m.env.nextScope :=
      fun heq ↦ hroot (Option.some.inj heq).symm
    rw [Environment.binds_iff]
    show ((m₂.env.pop m.env.nextScope).bindings .root).contains n = true ↔ _
    rw [hpop, ← Environment.binds_iff, ← hpush]
    exact ⟨h.names .root n hne, h.bound .root n⟩
  · rw [Environment.binds_iff, Environment.binds_iff, bindings_leaveCall hm h hu]

/-- Whatever the body has done to the scope of the call is gone with it. -/
theorem frame_leaveCall (hm : m.env.IsTwoLevel)
    (h : m.enterCall.Frame (some m.env.nextScope) m₂) :
    m.Frame none (m₂.leaveCall m.env.nextScope) := by
  have hroot := Environment.nextScope_ne_root hm.pos
  have hindex : m.env.nextScope.index = m.env.depth := rfl
  refine ⟨?_, ?_, ?_, ?_, ?_, ?_, ?_, h.output, h.input⟩
  · have hdepth : m₂.env.depth = m.env.depth + 1 := h.depth.trans (Environment.depth_push m.env)
    show (m₂.env.pop m.env.nextScope).depth = _
    rw [Environment.depth_pop _ hroot, hdepth, hindex]
    omega
  · exact (Environment.procedures_pop ..).trans h.procedures
  · intro i
    show ((m₂.env.pop m.env.nextScope).scopes[i]?).map _ = _
    rw [Environment.getElem?_pop hroot, hindex]
    by_cases hi : i < m.env.depth
    · rw [if_pos hi, h.parents i]
      show (m.env.push.scopes[i]?).map _ = _
      rw [Environment.push, Array.getElem?_push,
        if_neg (show i ≠ m.env.scopes.size from Nat.ne_of_lt hi)]
    · rw [if_neg hi, Array.getElem?_eq_none (Nat.le_of_not_lt hi)]
  · exact fun u hu _ ↦ bindings_leaveCall hm h hu
  · exact fun u n _ ↦ (binds_leaveCall hm h u n).1
  · exact fun u n ↦ (binds_leaveCall hm h u n).2
  · show m₂.console.activeCalls - 1 = _
    rw [h.activeCalls]
    exact Nat.add_sub_cancel ..

end LeaveCall

/-- Work in a scope of its own and as a call of its own, on the machine that it starts on. -/
theorem inFreshScope_asCall_apply {work : ScopeId → Run α}
    (hcalls : m.console.activeCalls < Console.maxCalls) :
    inFreshScope (fun t ↦ asCall (work t)) m =
      release m.env.nextScope (uncount (work m.env.nextScope m.enterCall)) := by
  have henter : m.console.enter? =
      some { m.console with activeCalls := m.console.activeCalls + 1 } := by
    rw [Console.enter?, if_pos hcalls]
  simp only [inFreshScope, asCall, henter]
  rfl

/-- A body that leaves the count where it has found it can be taken off it. -/
theorem release_uncount_ok {t : ScopeId} {a : α} (h : 0 < m.console.activeCalls) :
    release t (uncount (.ok a m)) = .ok a (m.leaveCall t) := by
  simp only [uncount, Console.leave?, if_pos h]
  rfl

theorem release_uncount_error {t : ScopeId} {e : Halt} (h : 0 < m.console.activeCalls) :
    release t (uncount (.error e m : EStateM.Result Halt Machine α)) =
      .error e (m.leaveCall t) := by
  simp only [uncount, Console.leave?, if_pos h]
  rfl

/-- A call binds no new name, whatever its work binds: that is gone with the scope. -/
theorem inFreshScope_asCall_keeps {work : ScopeId → Run α}
    (hwork : ∀ t, Keeps t (some t) (work t)) (hm : m.env.IsTwoLevel)
    (hcalls : m.console.activeCalls < Console.maxCalls) :
    Kept none m (inFreshScope (fun t ↦ asCall (work t)) m) := by
  rw [inFreshScope_asCall_apply hcalls]
  have hkept := hwork _ _ (enterCall_ready hm)
  cases h : work m.env.nextScope m.enterCall with
  | ok a m₂ =>
    rw [h] at hkept
    rw [release_uncount_ok (activeCalls_pos hkept)]
    exact frame_leaveCall hm hkept
  | error e m₂ =>
    rw [h] at hkept
    rw [release_uncount_error (activeCalls_pos hkept.2)]
    exact ⟨hkept.1, frame_leaveCall hm hkept.2⟩

/-- The limit is compared with the count of calls that are active already. -/
theorem checkDepth_apply (calls line : Nat) (m : Machine) :
    checkDepth calls line m =
      if m.console.activeCalls < calls then .ok () m
      else .error (.fault ⟨.callsTooDeep calls, line⟩) m := by
  show (if m.console.activeCalls < calls then pure ()
    else fail (.callsTooDeep calls) line : Run Unit) m = _
  split <;> rfl

/-- The steps of a call: the count is asked, the procedure is found, the body is run. -/
theorem invoke_succ_apply (bounds : Bounds) (n : Nat) (name : String) (values : List Word)
    (line : Nat) (m : Machine) :
    invoke bounds (n + 1) name values line m =
      if m.console.activeCalls < bounds.calls then
        match m.env.procedure? name with
        | none => .error (.fault ⟨.unknownProcedure name, line⟩) m
        | some p =>
          inFreshScope (fun t ↦ asCall (runBody (invoke bounds n) bounds.rounds p values t))
            { m with journal := m.journal.note (.called name values line) }
      else .error (.fault ⟨.callsTooDeep bounds.calls, line⟩) m := by
  by_cases hcalls : m.console.activeCalls < bounds.calls
  · have hcheck : checkDepth bounds.calls line m = .ok () m := by
      rw [checkDepth_apply, if_pos hcalls]
    rw [if_pos hcalls, invoke, bind_of_ok hcheck]
    have hproc := procedure_apply name line m
    cases hp : m.env.procedure? name with
    | none =>
      rw [hp] at hproc
      exact bind_of_error hproc
    | some p =>
      rw [hp] at hproc
      rw [bind_of_ok hproc]
      rfl
  · have hcheck : checkDepth bounds.calls line m =
        .error (.fault ⟨.callsTooDeep bounds.calls, line⟩) m := by
      rw [checkDepth_apply, if_neg hcalls]
    rw [if_neg hcalls, invoke, bind_of_error hcheck]

/-- **A call leaves no trace in the scopes** but the values of globals, however it ends. -/
theorem invoke_keeps {bounds : Bounds} (hbounds : bounds.calls ≤ Console.maxCalls) (n : Nat) :
    CallKeeps (invoke bounds n) := by
  induction n with
  | zero =>
    intro s name values line
    exact fail_keeps _ line
  | succ n ih =>
    intro s name values line m hm
    rw [invoke_succ_apply]
    split
    · rename_i hcalls
      cases m.env.procedure? name with
      | none => exact ⟨trivial, .refl m⟩
      | some p =>
        refine Kept.after (.withJournal m _) (inFreshScope_asCall_keeps ?_ hm.isTwoLevel ?_)
        · exact fun t ↦ runBody_keeps ih bounds.rounds p values
        · exact Nat.lt_of_lt_of_le hcalls hbounds
    · exact ⟨trivial, .refl m⟩

/-! ### Registration -/

/-- Registration adds the procedures, and does nothing else, or ends with a fault. -/
theorem registerAll_cases (procedures : List Procedure) (m : Machine) :
    registerAll procedures m = .ok () (m.withRegistered procedures) ∨
      ∃ f m', registerAll procedures m = .error (.fault f) m' := by
  induction procedures generalizing m with
  | nil =>
    rw [Machine.withRegistered, List.append_nil]
    exact .inl rfl
  | cons p rest ih =>
    have hp := register_eq p m
    rw [Environment.register?] at hp
    cases hfound : m.env.procedure? p.name with
    | some _ =>
      rw [hfound] at hp
      exact .inr ⟨_, _, bind_of_error hp⟩
    | none =>
      rw [hfound] at hp
      rw [registerAll, bind_of_ok hp]
      have hrest := ih (m.withRegistered [p])
      have hadded : (m.withRegistered [p]).withRegistered rest = m.withRegistered (p :: rest) := by
        simp [Machine.withRegistered]
      rw [hadded] at hrest
      exact hrest

/-- A program runs its statements once its procedures are registered, or ends with a fault. -/
theorem runProgram_cases (bounds : Bounds) (p : Program) (m : Machine) :
    runProgram bounds p m =
        runBlock bounds .root p.statements (m.withRegistered p.procedures) ∨
      ∃ f m', runProgram bounds p m = .error (.fault f) m' := by
  obtain hok | ⟨f, m', herror⟩ := registerAll_cases p.procedures m
  · exact .inl (bind_of_ok hok)
  · exact .inr ⟨f, m', bind_of_error herror⟩

/-- The statements of a program start on the globals. -/
theorem ready_withRegistered (hm : m.env.IsTwoLevel) (procedures : List Procedure) :
    (m.withRegistered procedures).Ready .root where
  isTwoLevel := hm.of_parents rfl fun _ ↦ rfl
  isLive := hm.pos

/-! ### The three ways to run something -/

/-- Calls keep the frame if the count can hold as many as the limit allows. -/
theorem call_keeps {bounds : Bounds} (hbounds : bounds.calls ≤ Console.maxCalls) :
    CallKeeps (call bounds) :=
  invoke_keeps hbounds bounds.calls

/-- **Stack discipline.** In every environment that its operations lead to, from every live scope,
with any input, output, sink and number of active calls: an expression, a statement or a block that
ends at all ends with a result or a fault of the program, and respects the frame of its scope. -/
theorem ends_within_frame {bounds : Bounds} (hbounds : bounds.calls ≤ Console.maxCalls)
    {m : Machine} (henv : m.env.Reachable) {s : ScopeId} (hs : m.env.IsLive s) :
    (∀ e : Expr, Kept (some s) m (evaluate bounds s e m)) ∧
      (∀ t : Statement, Kept (some s) m (runStatement bounds s t m)) ∧
      ∀ block : Block, Kept (some s) m (runBlock bounds s block m) := by
  have hm : m.Ready s := ⟨henv.isTwoLevel, hs⟩
  have hcall := call_keeps hbounds
  refine ⟨fun e ↦ ?_, fun t ↦ ?_, fun block ↦ ?_⟩
  · exact (eval_keeps hcall e).weaken m hm
  · exact exec_keeps hcall bounds.rounds t m hm
  · exact execBlock_keeps hcall bounds.rounds block m hm

/-- A call that fails in its body, made in a scope above the globals while another call is counted.
-/
theorem ends_within_frame_failing_call :
    let p : Procedure := ⟨"p", ["a"], [], [.assign "g" (.variable "h" 2) 2], 1⟩
    let env : Environment := { Environment.empty.push with procedures := [p] }
    let m : Machine := ⟨env, { Console.start [] .reliable with activeCalls := 1 }, .silent⟩
    env.Reachable ∧ env.IsLive ⟨1⟩ ∧
      Kept (some ⟨1⟩) m
        (runStatement ⟨64, 10⟩ ⟨1⟩ (.assign "x" (.call "p" [.number .one] 3) 3) m) := by
  intro p env m
  have henv : env.Reachable := .register (.push .empty) rfl
  have hs : env.IsLive ⟨1⟩ := by decide
  exact ⟨henv, hs, (ends_within_frame (by decide) henv hs).2.1 _⟩

end Run

end TinyProc
