import TinyProc.Proofs.Run.Frame

/-!
# The limit on calls is only a limit

A run within some bounds is compared with a run of the same program within wider ones. The two do
the same, step by step and on the same machine, until the first reaches one of its bounds. There it
stops, and whatever the second does from then on, it adds to the output and takes from the input.

This is what `Run.Outlasts` says of two endings. It keeps apart the two bounds of a run: one that is
the same for both runs stops both of them in the same place. So the relation serves twice. With more
rounds and the same limit on calls it says that rounds only decide whether a run ends, and with more
calls that the limit only decides where.

A run that has stopped says nothing about the other, which is why `Run.Outruns` has a second part:
the second run never takes anything back. It also keeps the count of active calls, on which it
depends whether the next call is one too many. With as many calls active, it is a congruence
(`Run.outruns_execCongruence`). Calls have an induction of their own here, since inside them one
more is active: the first part may have come to its end there and the second not, and the second
part is then an instance of the whole, the second run compared with itself (`Run.invoke_outruns`).
-/

namespace TinyProc

/-! ### Consoles -/

/-- A console, and one that it may become with the same calls active. -/
structure Console.Later (c c' : Console) : Prop where
  /-- As many calls are active. -/
  activeCalls : c'.activeCalls = c.activeCalls
  /-- The output has at most become longer. -/
  output : c.output.toList <+: c'.output.toList
  /-- The input has at most been read further. -/
  input : c'.input <:+ c.input

namespace Console.Later

variable {c c' c'' : Console}

theorem refl (c : Console) : c.Later c where
  activeCalls := rfl
  output := List.prefix_refl _
  input := List.suffix_refl _

/-- Two stretches of a run, each of which adds output and takes input. -/
theorem trans (h : c.Later c') (h' : c'.Later c'') : c.Later c'' where
  activeCalls := h'.activeCalls.trans h.activeCalls
  output := h.output.trans h'.output
  input := h'.input.trans h.input

/-- A display adds a line, or fails. -/
theorem display (c : Console) (value : Word) : c.Later (c.display value).2 :=
  let ⟨hcalls, houtput, hinput⟩ := c.display_frame value
  ⟨hcalls, houtput, hinput⟩

/-- A read takes a line, if there is one. -/
theorem read (c : Console) (name : String) : c.Later (c.read name).2 :=
  let ⟨hcalls, houtput, hinput⟩ := c.read_frame name
  ⟨hcalls, houtput, hinput⟩

/-- What happens in a call, as seen from outside. -/
theorem leaveCall {m m' : Machine} (h : m.enterCall.console.Later m'.console) (t : ScopeId) :
    m.console.Later (m'.leaveCall t).console where
  activeCalls := by
    show m'.console.activeCalls - 1 = _
    rw [h.activeCalls]
    exact Nat.add_sub_cancel ..
  output := h.output
  input := h.input

end Console.Later

/-- The halts that a bound brings about. -/
def Halt.IsBound : Halt → Prop
  | fault f => ∃ limit, f.cause = .callsTooDeep limit
  | outOfRounds => True
  | staleScope | miscounted => False

/-- Bounds, and others that allow as much at least. -/
structure Bounds.Within (b b' : Bounds) : Prop where
  /-- Calls may be nested as deep. -/
  calls : b.calls ≤ b'.calls
  /-- Loops may take as many rounds. -/
  rounds : b.rounds ≤ b'.rounds

theorem Bounds.Within.refl (b : Bounds) : b.Within b :=
  ⟨Nat.le_refl _, Nat.le_refl _⟩

namespace Run

variable {α β : Type} {b b' : Bounds} {n : Nat} {m m' : Machine}

/-! ### Endings -/

/-- Halts since one call more would be too many. -/
def tooDeep (b : Bounds) (line : Nat) : Halt :=
  .fault ⟨.callsTooDeep b.calls, line⟩

/-- The endings of a run within the bounds `b` and of the same run within the bounds `b'`. -/
inductive Outlasts (b b' : Bounds) :
    EStateM.Result Halt Machine α → EStateM.Result Halt Machine α → Prop
  /-- Neither has reached a bound. -/
  | ok (a : α) (m : Machine) : Outlasts b b' (.ok a m) (.ok a m)
  /-- Both have halted for the same reason, which is no bound. -/
  | halt {h : Halt} (hh : ¬ h.IsBound) (m : Machine) : Outlasts b b' (.error h m) (.error h m)
  /-- The first has reached the limit on calls, and so has the second if it has the same limit. -/
  | tooDeep {line : Nat} {m : Machine} {r : EStateM.Result Halt Machine α}
    (hlater : m.console.Later (stateLeft r).console)
    (hsame : b'.calls = b.calls → r = .error (tooDeep b line) m) :
    Outlasts b b' (.error (tooDeep b line) m) r
  /-- The first has used up its rounds, and so has the second if it has as many. -/
  | outOfRounds {m : Machine} {r : EStateM.Result Halt Machine α}
    (hlater : m.console.Later (stateLeft r).console)
    (hsame : b'.rounds = b.rounds → r = .error .outOfRounds m) :
    Outlasts b b' (.error .outOfRounds m) r

/-- A computation, started with `n` calls active, that only adds to what is there. -/
def Grows (n : Nat) (x : Run α) : Prop :=
  ∀ m : Machine, m.console.activeCalls = n → m.console.Later (stateLeft (x m)).console

/-- Two computations, started with `n` calls active: the second goes as far as the first at least,
and only adds to what is there. -/
structure Outruns (b b' : Bounds) (n : Nat) (x x' : Run α) : Prop where
  /-- The second takes nothing back. -/
  grows : Grows n x'
  /-- It goes as far as the first at least. -/
  outlasts : ∀ m : Machine, m.console.activeCalls = n → Outlasts b b' (x m) (x' m)

section Combinators

variable {x x' y y' : Run α} {f f' : α → Run β}

theorem Grows.ite {p : Prop} [Decidable p] (hx : Grows n x) (hy : Grows n y) :
    Grows n (if p then x else y) := by
  split
  · exact hx
  · exact hy

/-- The second step of a sequence adds to what the first has left. -/
theorem later_bind (hcalls : (stateLeft (x m)).console.activeCalls = n)
    (hf : ∀ a, Grows n (f a)) :
    (stateLeft (x m)).console.Later (stateLeft ((x >>= f) m)).console := by
  cases h : x m with
  | ok a m' =>
    rw [h] at hcalls
    rw [bind_of_ok h]
    exact hf a m' hcalls
  | error e m' =>
    rw [bind_of_error h]
    exact .refl _

/-- Neither part takes anything back. -/
theorem Grows.bind (hx : Grows n x) (hf : ∀ a, Grows n (f a)) : Grows n (x >>= f) :=
  fun m hm ↦ (hx m hm).trans (later_bind ((hx m hm).activeCalls.trans hm) hf)

namespace Outruns

theorem pure (a : α) : Outruns b b' n (pure a : Run α) (pure a) where
  grows _ _ := .refl _
  outlasts m _ := .ok a m

/-- The same halt, which is not one for lack of calls or rounds. -/
theorem throw {h : Halt} (hh : ¬ h.IsBound) : Outruns b b' n (throw h : Run α) (throw h) where
  grows _ _ := .refl _
  outlasts m _ := .halt hh m

/-- A step that leaves the console alone. -/
theorem modify {f : Machine → Machine} (hf : ∀ m, (f m).console = m.console) :
    Outruns b b' n (modify f : Run Unit) (modify f) where
  grows m _ := by
    show m.console.Later (f m).console
    rw [hf]
    exact .refl _
  outlasts m _ := .ok () (f m)

/-- A sequence. If the first run has stopped for a bound in its first part, the second one grows
from there. -/
theorem bind (hx : Outruns b b' n x x') (hf : ∀ a, Outruns b b' n (f a) (f' a)) :
    Outruns b b' n (x >>= f) (x' >>= f') where
  grows := hx.grows.bind fun a ↦ (hf a).grows
  outlasts m hm := by
    have hcalls := (hx.grows m hm).activeCalls.trans hm
    have hnext := later_bind hcalls fun a ↦ (hf a).grows
    have houtlasts := hx.outlasts m hm
    generalize hr : x m = r at houtlasts
    generalize hr' : x' m = r' at houtlasts hcalls hnext
    cases houtlasts with
    | ok a m₁ =>
      rw [bind_of_ok hr, bind_of_ok hr']
      exact (hf a).outlasts m₁ hcalls
    | halt hh m₁ =>
      rw [bind_of_error hr, bind_of_error hr']
      exact .halt hh m₁
    | tooDeep hlater hsame =>
      rw [bind_of_error hr]
      exact .tooDeep (hlater.trans hnext) fun h ↦ bind_of_error (hr'.trans (hsame h))
    | outOfRounds hlater hsame =>
      rw [bind_of_error hr]
      exact .outOfRounds (hlater.trans hnext) fun h ↦ bind_of_error (hr'.trans (hsame h))

theorem ite {p : Prop} [Decidable p] (h : Outruns b b' n x x') (h' : Outruns b b' n y y') :
    Outruns b b' n (if p then x else y) (if p then x' else y') := by
  split
  · exact h
  · exact h'

end Outruns

end Combinators

/-! ### Single steps -/

theorem not_isBound_fault {cause : FaultCause} (hcause : ∀ limit, cause ≠ .callsTooDeep limit)
    (line : Nat) : ¬ (Halt.fault ⟨cause, line⟩).IsBound :=
  fun ⟨limit, h⟩ ↦ hcause limit h

/-- Faults other than the one for too many calls. -/
theorem fail_outruns {cause : FaultCause} (hcause : ∀ limit, cause ≠ .callsTooDeep limit)
    (line : Nat) : Outruns b b' n (fail cause line : Run α) (fail cause line) :=
  .throw (not_isBound_fault hcause line)

theorem orFail_outruns {result : Except FaultCause α}
    (hresult : ∀ limit, result ≠ .error (.callsTooDeep limit)) (line : Nat) :
    Outruns b b' n (orFail result line) (orFail result line) := by
  cases result with
  | ok a => exact .pure a
  | error cause =>
    exact fail_outruns (fun limit h ↦ hresult limit (congrArg Except.error h)) line

/-- No operator makes calls. -/
theorem apply_ne_callsTooDeep (op : Operator) (left right : Word) (limit : Nat) :
    op.apply left right ≠ .error (.callsTooDeep limit) := by
  intro h
  obtain hcause | hcause := Operator.apply_eq_error h <;> cases hcause

/-- A line that is read is refused for other reasons. -/
theorem readLine_ne_callsTooDeep (name : String) (line : List UInt8) (limit : Nat) :
    Console.readLine name line ≠ .error (.callsTooDeep limit) := by
  intro h
  obtain ⟨-, hcause⟩ | ⟨-, hcause | ⟨_, hcause⟩⟩ := Console.readLine_eq_error h <;> cases hcause

theorem note_outruns (e : Event) : Outruns b b' n (note e) (note e) :=
  .modify fun _ ↦ rfl

theorem modifyEnv_outruns (f : Environment → Environment) :
    Outruns b b' n (modifyEnv f) (modifyEnv f) :=
  .modify fun _ ↦ rfl

/-- A step that looks at the machine first. -/
theorem Outruns.of_apply {x : Run α} (h : ∀ m, ∃ y, x m = y m ∧ Outruns b b' n y y) :
    Outruns b b' n x x where
  grows m hm := by
    obtain ⟨y, hx, hy⟩ := h m
    rw [hx]
    exact hy.grows m hm
  outlasts m hm := by
    obtain ⟨y, hx, hy⟩ := h m
    rw [hx]
    exact hy.outlasts m hm

theorem liveEnv_outruns (s : ScopeId) : Outruns b b' n (liveEnv s) (liveEnv s) :=
  .of_apply fun m ↦ ⟨if m.env.IsLive s then pure m.env else throw .staleScope, rfl,
    .ite (.pure _) (.throw id)⟩

/-- The variables are the same, since the machine is. -/
theorem lookup_outruns (s : ScopeId) (name : String) (line : Nat) :
    Outruns b b' n (lookup s name line) (lookup s name line) := by
  refine .bind (liveEnv_outruns s) fun env ↦ ?_
  cases env.get? s name with
  | some value => exact .pure value
  | none => exact fail_outruns (by simp) line

theorem assign_outruns (s : ScopeId) (name : String) (value : Word) :
    Outruns b b' n (assign s name value) (assign s name value) :=
  .bind (liveEnv_outruns s) fun _ ↦ .bind (note_outruns _) fun _ ↦ modifyEnv_outruns _

theorem declare_outruns (s : ScopeId) (name : String) (value : Word) :
    Outruns b b' n (declare s name value) (declare s name value) :=
  .bind (liveEnv_outruns s) fun _ ↦ modifyEnv_outruns _

/-- A step that looks at the console and replaces it by a later one first. -/
theorem Outruns.of_console {x : Run α} (f : Console → Console) (hf : ∀ c : Console, c.Later (f c))
    (h : ∀ m, ∃ y, x m = y { m with console := f m.console } ∧ Outruns b b' n y y) :
    Outruns b b' n x x where
  grows m hm := by
    obtain ⟨y, hx, hy⟩ := h m
    rw [hx]
    exact (hf m.console).trans (hy.grows { m with console := f m.console }
      ((hf m.console).activeCalls.trans hm))
  outlasts m hm := by
    obtain ⟨y, hx, hy⟩ := h m
    rw [hx]
    exact hy.outlasts _ ((hf m.console).activeCalls.trans hm)

/-- What is displayed is the same, as far as both runs get. -/
theorem display_outruns (value : Word) (line : Nat) :
    Outruns b b' n (display value line) (display value line) := by
  refine .of_console (fun c ↦ (c.display value).2) (.display · value) fun m ↦ ?_
  rw [display_apply]
  cases (m.console.display value).1 with
  | none => exact ⟨_, rfl, .pure ()⟩
  | some failure => exact ⟨_, rfl, fail_outruns (by simp) line⟩

theorem readWord_outruns (target : ReadTarget) :
    Outruns b b' n (readWord target) (readWord target) :=
  .of_console (fun c ↦ (c.read target.name).2) (.read · target.name) fun m ↦
    ⟨orFail (m.console.read target.name).1 target.line, rfl,
      orFail_outruns (readLine_ne_callsTooDeep target.name _) target.line⟩

/-- What is read is the same, as far as both runs get. -/
theorem readInto_outruns (s : ScopeId) (target : ReadTarget) :
    Outruns b b' n (readInto s target) (readInto s target) :=
  .bind (readWord_outruns target) fun _ ↦
    .bind (note_outruns _) fun _ ↦ assign_outruns s target.name _

/-- Procedures are found alike. They are not a matter of bounds. -/
theorem procedure_outruns (name : String) (line : Nat) :
    Outruns b b' n (procedure name line) (procedure name line) := by
  refine .of_apply fun m ↦ ?_
  rw [procedure_apply]
  cases m.env.procedure? name with
  | some p => exact ⟨_, rfl, .pure p⟩
  | none => exact ⟨_, rfl, fail_outruns (by simp) line⟩

theorem checkCall_outruns (name : String) (arguments line : Nat) :
    Outruns b b' n (checkCall name arguments line) (checkCall name arguments line) :=
  .bind (procedure_outruns name line) fun _ ↦ .ite (.pure ()) (fail_outruns (by simp) line)

theorem register_outruns (p : Procedure) : Outruns b b' n (register p) (register p) := by
  refine .of_apply fun m ↦ ?_
  rw [register_eq]
  cases m.env.register? p with
  | some env => exact ⟨_, rfl, modifyEnv_outruns _⟩
  | none => exact ⟨_, rfl, fail_outruns (by simp) p.line⟩

/-- Registration takes neither calls nor rounds. -/
theorem registerAll_outruns (ps : List Procedure) :
    Outruns b b' n (registerAll ps) (registerAll ps) := by
  induction ps with
  | nil => exact .pure ()
  | cons p rest ih => exact .bind (register_outruns p) fun _ ↦ ih

/-! ### Expressions and statements -/

/-- Calls made with `n` calls active. -/
def CallsOutrun (b b' : Bounds) (n : Nat) (call call' : Caller) : Prop :=
  ∀ (name : String) (values : List Word) (line : Nat),
    Outruns b b' n (call name values line) (call' name values line)

/-- A loop takes nothing back, in however many rounds. -/
theorem repeatWhile_grows {condition : Run Word} {body : Run Unit} (hcondition : Grows n condition)
    (hbody : Grows n body) (rounds : Nat) : Grows n (repeatWhile condition body rounds) := by
  induction rounds with
  | zero => exact hcondition.bind fun _ ↦ .ite (fun _ _ ↦ .refl _) fun _ _ ↦ .refl _
  | succ rounds ih => exact hcondition.bind fun _ ↦ .ite (fun _ _ ↦ .refl _) (hbody.bind fun _ ↦ ih)

/-- A loop that may take more rounds. Where the first has used up its own, the second goes on in
some way or other. -/
theorem repeatWhile_outruns {condition condition' : Run Word} {body body' : Run Unit}
    (hcondition : Outruns b b' n condition condition') (hbody : Outruns b b' n body body')
    {rounds rounds' : Nat} (hle : rounds ≤ rounds')
    (hsame : b'.rounds = b.rounds → rounds' = rounds) :
    Outruns b b' n (repeatWhile condition body rounds) (repeatWhile condition' body' rounds') := by
  induction rounds generalizing rounds' with
  | succ rounds ih =>
    obtain ⟨rounds', rfl⟩ : ∃ k, rounds' = k + 1 := ⟨rounds' - 1, by omega⟩
    have hrest := ih (Nat.le_of_succ_le_succ hle) fun h ↦ Nat.succ.inj (hsame h)
    exact .bind hcondition fun _ ↦ .ite (.pure ()) (.bind hbody fun _ ↦ hrest)
  | zero =>
    cases rounds' with
    | zero =>
      refine .bind hcondition fun _ ↦ .ite (.pure ()) ⟨fun _ _ ↦ .refl _, fun m _ ↦ ?_⟩
      exact .outOfRounds (.refl _) fun _ ↦ rfl
    | succ rounds' =>
      have hmore : Grows n (body' >>= fun _ ↦ repeatWhile condition' body' rounds') :=
        hbody.grows.bind fun _ ↦ repeatWhile_grows hcondition.grows hbody.grows rounds'
      refine .bind hcondition fun _ ↦ .ite (.pure ()) ⟨hmore, fun m hm ↦ ?_⟩
      exact .outOfRounds (hmore m hm) fun h ↦ absurd (hsame h) (Nat.succ_ne_zero _)

/-- The steps of evaluation are the same on both sides. The count is asked after the arguments of a
call, when it is what it was before them. -/
theorem outruns_evalCongruence (s : ScopeId) :
    EvalCongruence Eq s fun _ x x' ↦ Outruns b b' n x x' where
  pure := .pure
  bind := .bind
  apply op a c line _ hline := hline ▸ orFail_outruns (apply_ne_callsTooDeep op a c) line
  lookup name line _ hline := hline ▸ lookup_outruns s name line
  checkCall name arguments line _ hline := hline ▸ checkCall_outruns name arguments line

/-- So are those of execution, loops apart. -/
theorem outruns_execCongruence (s : ScopeId) (hb : b.rounds ≤ b'.rounds) :
    ExecCongruence Eq s b.rounds b'.rounds fun _ x x' ↦ Outruns b b' n x x' where
  toEvalCongruence := outruns_evalCongruence s
  assign := assign_outruns s
  declare := declare_outruns s
  display value line _ hline := hline ▸ display_outruns value line
  readInto htarget := htarget.eq ▸ readInto_outruns s _
  loop hcondition hbody := repeatWhile_outruns hcondition hbody hb id

/-- A block goes as far within wider bounds as the calls in it do. -/
theorem execBlock_outruns {call call' : Caller} {s : ScopeId}
    (hcall : CallsOutrun b b' n call call') (hb : b.rounds ≤ b'.rounds) (block : Block) :
    Outruns b b' n (execBlock call b.rounds s block) (execBlock call' b'.rounds s block) :=
  (outruns_execCongruence s hb).execBlock (callersRelated_eq hcall) block (Block.Moved.refl block)

/-! ### Calls -/

/-- However the body of a call has ended, it is taken off the count and its scope is released. -/
theorem stateLeft_release_uncount {t : ScopeId} {r : EStateM.Result Halt Machine α}
    (h : 0 < (stateLeft r).console.activeCalls) :
    stateLeft (release t (uncount r)) = (stateLeft r).leaveCall t := by
  cases r with
  | ok a m => exact congrArg stateLeft (release_uncount_ok h)
  | error e m => exact congrArg stateLeft (release_uncount_error h)

/-- A call that can be counted, from the outside. -/
theorem Outlasts.leaveCall {r r' : EStateM.Result Halt Machine α} {t : ScopeId}
    (h : Outlasts b b' r r') (hcalls : (stateLeft r').console.activeCalls = n + 1) :
    Outlasts b b' (release t (uncount r)) (release t (uncount r')) := by
  have hpos : 0 < (stateLeft r').console.activeCalls := hcalls ▸ Nat.succ_pos n
  -- the first run has stopped in the call, with the count that the second has in the end
  have hstopped : ∀ m : Machine, m.console.Later (stateLeft r').console →
      (0 < m.console.activeCalls ∧
        (m.leaveCall t).console.Later (stateLeft (release t (uncount r'))).console) := by
    intro m hlater
    rw [stateLeft_release_uncount hpos]
    refine ⟨hlater.activeCalls ▸ hpos, ?_, hlater.output, hlater.input⟩
    exact congrArg (· - 1) hlater.activeCalls
  cases h with
  | ok a m =>
    rw [stateLeft_ok] at hpos
    rw [release_uncount_ok hpos]
    exact .ok a _
  | halt hh m =>
    rw [stateLeft_error] at hpos
    rw [release_uncount_error hpos]
    exact .halt hh _
  | tooDeep hlater hsame =>
    obtain ⟨hcounted, hleft⟩ := hstopped _ hlater
    rw [release_uncount_error hcounted]
    refine .tooDeep hleft fun heq ↦ ?_
    rw [hsame heq, release_uncount_error hcounted]
  | outOfRounds hlater hsame =>
    obtain ⟨hcounted, hleft⟩ := hstopped _ hlater
    rw [release_uncount_error hcounted]
    refine .outOfRounds hleft fun heq ↦ ?_
    rw [hsame heq, release_uncount_error hcounted]

/-- A call that cannot be counted changes nothing but that. -/
theorem inFreshScope_asCall_miscounted {work : ScopeId → Run α}
    (h : ¬ m.console.activeCalls < Console.maxCalls) :
    inFreshScope (fun t ↦ asCall (work t)) m =
      .error .miscounted { m with env := m.env.push.pop m.env.nextScope } := by
  have henter : m.console.enter? = none := by rw [Console.enter?, if_neg h]
  simp only [inFreshScope, asCall, henter]
  rfl

/-- The work of a call is compared with one more call active, in both runs. -/
theorem inFreshScope_asCall_outruns {work work' : ScopeId → Run α}
    (hwork : ∀ t, Outruns b b' (n + 1) (work t) (work' t)) :
    Outruns b b' n (inFreshScope fun t ↦ asCall (work t))
      (inFreshScope fun t ↦ asCall (work' t)) := by
  have hcount : ∀ m : Machine, m.console.activeCalls = n →
      m.enterCall.console.activeCalls = n + 1 := fun m hm ↦ congrArg (· + 1) hm
  constructor
  · intro m hm
    by_cases hcalls : m.console.activeCalls < Console.maxCalls
    · have hlater := (hwork m.env.nextScope).grows m.enterCall (hcount m hm)
      rw [inFreshScope_asCall_apply hcalls, stateLeft_release_uncount]
      · exact hlater.leaveCall _
      · rw [hlater.activeCalls]
        exact Nat.succ_pos _
    · rw [inFreshScope_asCall_miscounted hcalls]
      exact .refl _
  · intro m hm
    by_cases hcalls : m.console.activeCalls < Console.maxCalls
    · rw [inFreshScope_asCall_apply hcalls, inFreshScope_asCall_apply hcalls]
      have hbody := hwork m.env.nextScope
      exact (hbody.outlasts m.enterCall (hcount m hm)).leaveCall
        ((hbody.grows m.enterCall (hcount m hm)).activeCalls.trans (hcount m hm))
    · rw [inFreshScope_asCall_miscounted hcalls, inFreshScope_asCall_miscounted hcalls]
      exact .halt id _

/-- No call is carried out where as many are active as may be, whatever number may still be nested.
-/
theorem invoke_of_le (h : b.calls ≤ m.console.activeCalls) (left : Nat) (name : String)
    (values : List Word) (line : Nat) :
    invoke b left name values line m = .error (tooDeep b line) m := by
  cases left with
  | zero => rfl
  | succ left =>
    rw [invoke_succ_apply, if_neg (Nat.not_lt.2 h)]
    rfl

/-- A call that both limits allow. -/
theorem invoke_succ_outruns {left left' : Nat} (hb : b.Within b') (hn : n < b.calls)
    (hcall : CallsOutrun b b' (n + 1) (invoke b left) (invoke b' left')) :
    CallsOutrun b b' n (invoke b (left + 1)) (invoke b' (left' + 1)) := by
  intro name values line
  have hstep : ∀ (b : Bounds) (left : Nat), n < b.calls → ∀ m : Machine,
      m.console.activeCalls = n → invoke b (left + 1) name values line m =
        (procedure name line >>= fun p ↦ note (.called name values line) >>= fun _ ↦
          inFreshScope fun t ↦ asCall (runBody (invoke b left) b.rounds p values t)) m := by
    intro b left hlt m hm
    have hcheck : checkDepth b.calls line m = .ok () m := by
      rw [checkDepth_apply, if_pos (hm ▸ hlt)]
    exact bind_of_ok hcheck
  have hrest : Outruns b b' n
      (procedure name line >>= fun p ↦ note (.called name values line) >>= fun _ ↦
        inFreshScope fun t ↦ asCall (runBody (invoke b left) b.rounds p values t))
      (procedure name line >>= fun p ↦ note (.called name values line) >>= fun _ ↦
        inFreshScope fun t ↦ asCall (runBody (invoke b' left') b'.rounds p values t)) :=
    .bind (procedure_outruns name line) fun p ↦ .bind (note_outruns _) fun _ ↦
      inFreshScope_asCall_outruns fun t ↦
        (outruns_execCongruence t hb.rounds).runBody (callersRelated_eq hcall) (.refl p) values
  have hn' := Nat.lt_of_lt_of_le hn hb.calls
  constructor
  · intro m hm
    rw [hstep b' left' hn' m hm]
    exact hrest.grows m hm
  · intro m hm
    rw [hstep b left hn m hm, hstep b' left' hn' m hm]
    exact hrest.outlasts m hm

/-- **Calls go as far within wider bounds.** On both sides as many calls may still be nested as the
limit leaves, so that it is the count which stops them. -/
theorem invoke_outruns (hb : b.Within b') {left left' : Nat} (hleft : b.calls ≤ n + left)
    (hleft' : b'.calls ≤ n + left') :
    CallsOutrun b b' n (invoke b left) (invoke b' left') := by
  induction left' generalizing b left n with
  | zero =>
    intro name values line
    have hstop : ∀ m : Machine, m.console.activeCalls = n →
        invoke b' 0 name values line m = .error (tooDeep b' line) m :=
      fun m hm ↦ invoke_of_le (hm ▸ hleft') 0 name values line
    constructor
    · intro m hm
      rw [hstop m hm]
      exact .refl _
    · intro m hm
      have hcalls := hb.calls
      rw [hstop m hm, invoke_of_le (by omega)]
      refine .tooDeep (.refl _) fun heq ↦ ?_
      rw [tooDeep, heq, tooDeep]
  | succ left' ih =>
    by_cases hn : n < b.calls
    · obtain ⟨left, rfl⟩ : ∃ k, left = k + 1 := ⟨left - 1, by omega⟩
      exact invoke_succ_outruns hb hn (ih hb (by omega) (by omega))
    · -- the first run stops here, and the second is compared with itself
      intro name values line
      have hgrows : Grows n (invoke b' (left' + 1) name values line) := by
        by_cases hn' : n < b'.calls
        · have hself : CallsOutrun b' b' (n + 1) (invoke b' left') (invoke b' left') :=
            ih (.refl b') (by omega) (by omega)
          exact (invoke_succ_outruns (.refl b') hn' hself name values line).grows
        · intro m hm
          rw [invoke_of_le (by omega)]
          exact .refl _
      refine ⟨hgrows, fun m hm ↦ ?_⟩
      rw [invoke_of_le (by omega)]
      refine .tooDeep (hgrows m hm) fun heq ↦ ?_
      rw [invoke_of_le (by omega), tooDeep, heq, tooDeep]

/-! ### Programs -/

/-- A program within wider bounds. -/
theorem runProgram_outruns (hb : b.Within b') (p : Program) :
    Outruns b b' n (runProgram b p) (runProgram b' p) := by
  have hcall : CallsOutrun b b' n (call b) (call b') :=
    invoke_outruns hb (Nat.le_add_left ..) (Nat.le_add_left ..)
  exact .bind (registerAll_outruns p.procedures) fun _ ↦
    execBlock_outruns hcall hb.rounds p.statements

/-- Why a run has stopped before its end, if it has. -/
def halt? : EStateM.Result Halt Machine α → Option Halt
  | .ok _ _ => none
  | .error h _ => some h

/-- A limit on calls has stopped a run. -/
def IsTooDeep (r : EStateM.Result Halt Machine α) : Prop :=
  ∃ limit line, halt? r = some (.fault ⟨.callsTooDeep limit, line⟩)

/-- Unless a bound of its own has stopped the first run, the second ends in the same way. -/
theorem Outlasts.eq {r r' : EStateM.Result Halt Machine α} (h : Outlasts b b' r r')
    (hrounds : halt? r ≠ some .outOfRounds) (hcalls : b'.calls = b.calls ∨ ¬ IsTooDeep r) :
    r' = r := by
  cases h with
  | ok _ _ => rfl
  | halt _ _ => rfl
  | tooDeep _ hsame => exact hsame (hcalls.resolve_right fun h ↦ h ⟨_, _, rfl⟩)
  | outOfRounds _ _ => exact absurd rfl hrounds

/-- A limit that has stopped the first run is its own, and the second run is further. -/
theorem Outlasts.of_tooDeep {r r' : EStateM.Result Halt Machine α} (h : Outlasts b b' r r')
    {limit line : Nat} (hr : halt? r = some (.fault ⟨.callsTooDeep limit, line⟩)) :
    limit = b.calls ∧ (stateLeft r).console.Later (stateLeft r').console := by
  cases h with
  | ok _ _ => cases hr
  | halt hh _ =>
    cases hr
    exact absurd ⟨limit, rfl⟩ hh
  | tooDeep hlater _ =>
    cases hr
    exact ⟨rfl, hlater⟩
  | outOfRounds _ _ => cases hr

/-- With so many calls allowed to be nested, and with rounds enough, the program ends in this way.
-/
def EndsWith (calls : Nat) (p : Program) (m : Machine) (r : EStateM.Result Halt Machine Unit) :
    Prop :=
  (∃ rounds, runProgram ⟨calls, rounds⟩ p m = r) ∧ halt? r ≠ some .outOfRounds

section Endings

variable {p : Program} {calls calls' : Nat} {r r' : EStateM.Result Halt Machine Unit}

/-- A program that ends within some rounds ends in the same way within more of them. -/
theorem EndsWith.eventually (h : EndsWith calls p m r) :
    ∃ enough, ∀ rounds, enough ≤ rounds → runProgram ⟨calls, rounds⟩ p m = r := by
  obtain ⟨⟨enough, rfl⟩, hrounds⟩ := h
  refine ⟨enough, fun rounds hle ↦ ?_⟩
  have hb : (Bounds.mk calls enough).Within ⟨calls, rounds⟩ := ⟨Nat.le_refl _, hle⟩
  exact ((runProgram_outruns hb p).outlasts m rfl).eq hrounds (.inl rfl)

/-- The rounds decide whether a program ends, and not how. -/
theorem EndsWith.unique (h : EndsWith calls p m r) (h' : EndsWith calls p m r') : r' = r := by
  obtain ⟨enough, henough⟩ := h.eventually
  obtain ⟨enough', henough'⟩ := h'.eventually
  rw [← henough _ (Nat.le_max_left enough enough'), henough' _ (Nat.le_max_right ..)]

/-- A program that ends for another reason than the limit ends in the same way with a wider one. -/
theorem EndsWith.mono (hle : calls ≤ calls') (h : EndsWith calls p m r) (hr : ¬ IsTooDeep r) :
    EndsWith calls' p m r := by
  obtain ⟨⟨rounds, rfl⟩, hrounds⟩ := h
  have hb : (Bounds.mk calls rounds).Within ⟨calls', rounds⟩ := ⟨hle, Nat.le_refl _⟩
  have hsame := ((runProgram_outruns hb p).outlasts m rfl).eq hrounds (.inr hr)
  exact ⟨⟨rounds, hsame⟩, hrounds⟩

/-- Endings with two limits are endings within the same rounds. -/
theorem EndsWith.outlasts (hle : calls ≤ calls') (h : EndsWith calls p m r)
    (h' : EndsWith calls' p m r') : ∃ rounds, Outlasts ⟨calls, rounds⟩ ⟨calls', rounds⟩ r r' := by
  obtain ⟨enough, henough⟩ := h.eventually
  obtain ⟨enough', henough'⟩ := h'.eventually
  have hb : (Bounds.mk calls (max enough enough')).Within ⟨calls', max enough enough'⟩ :=
    ⟨hle, Nat.le_refl _⟩
  refine ⟨max enough enough', ?_⟩
  rw [← henough _ (Nat.le_max_left ..), ← henough' _ (Nat.le_max_right ..)]
  exact (runProgram_outruns hb p).outlasts m rfl

end Endings

/-- **The limit on calls is only a limit.** For every program and on every machine: a program that
ends, and is not stopped by the limit, ends with any wider limit too, in the same way and no other,
and leaves the same machine. A program that is stopped by the limit names this limit, and wherever
it ends with a wider one, it has displayed at least as much and read at least as far. -/
theorem call_limit_only_stops {calls calls' : Nat} (hle : calls ≤ calls') (p : Program)
    (m : Machine) :
    (∀ r, EndsWith calls p m r → ¬ IsTooDeep r → ∀ r', EndsWith calls' p m r' ↔ r' = r) ∧
    ∀ r limit line, EndsWith calls p m r →
      halt? r = some (.fault ⟨.callsTooDeep limit, line⟩) →
        limit = calls ∧ ∀ r', EndsWith calls' p m r' →
          (stateLeft r).console.output.toList <+: (stateLeft r').console.output.toList ∧
            (stateLeft r').console.input <:+ (stateLeft r).console.input := by
  constructor
  · intro r h hr r'
    have hmono := h.mono hle hr
    exact ⟨fun h' ↦ hmono.unique h', fun h' ↦ h' ▸ hmono⟩
  · intro r limit line h hr
    obtain ⟨_, hself⟩ := h.outlasts (Nat.le_refl calls) h
    refine ⟨(hself.of_tooDeep hr).1, fun r' h' ↦ ?_⟩
    obtain ⟨_, hwider⟩ := h.outlasts hle h'
    have hlater := (hwider.of_tooDeep hr).2
    exact ⟨hlater.output, hlater.input⟩

/-- A procedure that calls itself in the argument of a call to itself, and displays and reads on the
way. One call at a time is too few for it, two are enough. -/
theorem call_limit_only_stops_recursion :
    let body : Block := [.display (.variable "n" 2) (some ⟨"x", 2⟩) 2,
      .branch (.variable "n" 3) [.assign "f" (.call "f" [.call "f"
        [.binary .sub (.variable "n" 4) (.number .one) 4] 4] 4) 4] none 3]
    let p : Program :=
      ⟨[⟨"f", ["n"], ["x"], body, 1⟩], [.assign "y" (.call "f" [.number .one] 6) 6]⟩
    let m : Machine := ⟨.empty, Console.start [49, 10, 50, 10, 51, 10, 52] .reliable, .silent⟩
    ∃ r₁ r₂, EndsWith 1 p m r₁ ∧ halt? r₁ = some (.fault ⟨.callsTooDeep 1, 4⟩) ∧
      EndsWith 2 p m r₂ ∧ halt? r₂ = none ∧
      (stateLeft r₁).console.output.toList <+: (stateLeft r₂).console.output.toList ∧
      (stateLeft r₂).console.input <:+ (stateLeft r₁).console.input ∧ EndsWith 64 p m r₂ := by
  intro body p m
  have hhalt₁ : halt? (runProgram ⟨1, 0⟩ p m) = some (.fault ⟨.callsTooDeep 1, 4⟩) := by
    decide +kernel
  have hhalt₂ : halt? (runProgram ⟨2, 0⟩ p m) = none := by decide +kernel
  have h₁ : EndsWith 1 p m (runProgram ⟨1, 0⟩ p m) := ⟨⟨0, rfl⟩, by simp [hhalt₁]⟩
  have h₂ : EndsWith 2 p m (runProgram ⟨2, 0⟩ p m) := ⟨⟨0, rfl⟩, by simp [hhalt₂]⟩
  have hle₁ : 1 ≤ 2 := by decide
  have hle₂ : 2 ≤ 64 := by decide
  obtain ⟨-, hlater⟩ := (call_limit_only_stops hle₁ p m).2 _ 1 4 h₁ hhalt₁
  have hdeep : ¬ IsTooDeep (runProgram ⟨2, 0⟩ p m) := fun ⟨_, _, h⟩ ↦ nomatch hhalt₂.symm.trans h
  have h₃ := ((call_limit_only_stops hle₂ p m).1 _ h₂ hdeep _).2 rfl
  exact ⟨_, _, h₁, hhalt₁, h₂, hhalt₂, (hlater _ h₂).1, (hlater _ h₂).2, h₃⟩

end Run

end TinyProc
