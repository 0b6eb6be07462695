import TinyProc.Proofs.Run.Frame
import TinyProc.Proofs.Run.Reference

/-!
# Scopes cannot be observed

A run in a live scope of an environment with two levels does what the reference interpreter does on
the globals and the bindings of that scope (`Run.refines_reference`). What else is in the array of
scopes, below the scope or above it, makes no difference and is left alone.

The machine is related to the state of the reference interpreter by a function, `Machine.view`: the
state is what can be seen from the scope. `Run.Refines` says that a run, seen from the scope, is a
given computation of the reference interpreter. It goes along sequences because a run respects the
frame (`Run.Keeps`), so that what can be seen before the second step is what the first has left. At
a call the scope changes. The frame once more says that the body has not touched the scope of the
caller, and this is why the reference interpreter can put the caller's frame back.
-/

namespace TinyProc

/-! ### What is seen from a scope -/

/-- The console without its count of active calls. -/
def Console.idle (c : Console) : Console :=
  { c with activeCalls := 0 }

/-- What is seen of a machine from a scope: the globals, the bindings of the scope if it is not the
globals, the input and the output. -/
def Machine.view (m : Machine) (s : ScopeId) : Reference.State where
  globals := m.env.bindings .root
  frame := if s = .root then none else some (m.env.bindings s)
  console := m.console.idle

namespace Machine

variable {m : Machine} {s t : ScopeId}

/-- What a variable is worth is seen. -/
theorem value?_view (hm : m.Ready s) (name : String) :
    (m.view s).value? name = m.env.get? s name := by
  rw [hm.isTwoLevel.get?_eq hm.isLive]
  by_cases hs : s = .root
  · subst hs
    simp [Reference.State.value?, view]
  · simp [Reference.State.value?, view, hs]

/-- What an assignment does is seen. -/
theorem assign_view (hm : m.Ready s) (name : String) (value : Word) :
    (m.view s).assign name value = { m with env := m.env.set s name value }.view s := by
  have hlive := hm.isTwoLevel.isLive_target hm.isLive name
  have hset : ∀ u, (m.env.set s name value).bindings u =
      if u = m.env.target s name then (m.env.bindings u).insert name value
      else m.env.bindings u := by
    intro u
    rw [Environment.set, Environment.bindings_declare hlive]
    split
    · rename_i h
      rw [h]
    · rfl
  by_cases hs : s = .root
  · subst hs
    have htarget : m.env.target .root name = .root := by
      rw [hm.isTwoLevel.target_eq hm.isLive]
      split
      · rfl
      · rfl
    simp [Reference.State.assign, view, hset, htarget]
  · -- bound by the frame, bound by the globals, or new
    have htarget := hm.isTwoLevel.target_eq hm.isLive name
    by_cases hbound : (m.env.bindings s).contains name
    · rw [if_pos hbound] at htarget
      simp [Reference.State.assign, view, hs, hset, htarget, hbound, Ne.symm hs]
    · rw [if_neg hbound] at htarget
      by_cases hglobal : (m.env.bindings .root).contains name
      · rw [if_pos hglobal] at htarget
        simp [Reference.State.assign, view, hs, hset, htarget, hbound, hglobal]
      · rw [if_neg hglobal] at htarget
        simp [Reference.State.assign, view, hs, hset, htarget, hbound, hglobal, Ne.symm hs]

end Machine

/-- A display does not depend on the count of calls. -/
theorem Console.display_idle (c : Console) (value : Word) :
    c.idle.display value = ((c.display value).1, (c.display value).2.idle) := by
  by_cases hfull : c.isFull
  · have hidle : c.idle.isFull = true := hfull
    rw [display, display, if_pos hidle, if_pos hfull]
  · have hidle : ¬ c.idle.isFull = true := hfull
    rw [display, display, if_neg hidle, if_neg hfull]
    by_cases hflush : c.sink.failingFlush = some (c.output.size + 1) <;>
      simp [idle, hflush]

namespace Run

/-! ### Runs seen from a scope -/

variable {α β : Type} {procedures : List Procedure} {calls : Nat} {s : ScopeId}
variable {w : Option ScopeId} {m m' : Machine}

/-- An ending seen from a scope. -/
def seen (s : ScopeId) :
    EStateM.Result Halt Machine α → EStateM.Result Halt Reference.State α
  | .ok a m => .ok a (m.view s)
  | .error h m => .error h (m.view s)

/-- A machine on which a run may start in the scope, with these procedures and so many active calls.
-/
structure Setting (procedures : List Procedure) (calls : Nat) (s : ScopeId) (m : Machine) : Prop
    extends m.Ready s where
  /-- The procedures. -/
  procedures : m.env.procedures = procedures
  /-- The number of active calls. -/
  calls : m.console.activeCalls = calls

/-- The setting stays, since procedures and count are part of the frame. -/
theorem Setting.after (h : Setting procedures calls s m) (hframe : m.Frame w m') :
    Setting procedures calls s m' where
  toReady := hframe.ready h.toReady
  procedures := hframe.procedures.trans h.procedures
  calls := hframe.activeCalls.trans h.calls

/-- A run that, seen from the scope, is a computation of the reference interpreter. -/
def Refines (procedures : List Procedure) (calls : Nat) (s : ScopeId) (x : Run α)
    (y : Reference.Action α) : Prop :=
  ∀ m : Machine, Setting procedures calls s m → seen s (x m) = y (m.view s)

theorem Refines.pure (a : α) : Refines procedures calls s (pure a) (pure a) :=
  fun _ _ ↦ rfl

/-- A halt is seen as the same halt. -/
theorem Refines.throw (h : Halt) :
    Refines procedures calls s (throw h : Run α) (throw h) :=
  fun _ _ ↦ rfl

/-- A sequence refines a sequence. The first run has to respect the frame, for the second starts
where it ends. -/
theorem Refines.bind {x : Run α} {y : Reference.Action α} {f : α → Run β}
    {g : α → Reference.Action β} (hkeeps : Keeps s w x) (hx : Refines procedures calls s x y)
    (hf : ∀ a, Refines procedures calls s (f a) (g a)) :
    Refines procedures calls s (x >>= f) (y >>= g) := by
  intro m hm
  have hkept := hkeeps m hm.toReady
  have hseen := hx m hm
  cases h : x m with
  | ok a m' =>
    rw [h] at hkept hseen
    rw [bind_of_ok h, bind_of_ok hseen.symm]
    exact hf a m' (hm.after hkept)
  | error e m' =>
    rw [h] at hseen
    rw [bind_of_error h, bind_of_error hseen.symm]
    rfl

theorem Refines.ite {p : Prop} [Decidable p] {x x' : Run α} {y y' : Reference.Action α}
    (h : Refines procedures calls s x y) (h' : Refines procedures calls s x' y') :
    Refines procedures calls s (if p then x else x') (if p then y else y') := by
  split
  · exact h
  · exact h'

/-! ### Single steps -/

theorem fail_refines (cause : FaultCause) (line : Nat) :
    Refines procedures calls s (fail cause line : Run α) (Reference.fail cause line) :=
  .throw _

theorem orFail_refines (result : Except FaultCause α) (line : Nat) :
    Refines procedures calls s (orFail result line) (Reference.orFail result line) := by
  cases result with
  | ok a => exact .pure a
  | error cause => exact fail_refines cause line

/-- The chain of scopes from a call is its own scope and the globals, and these are what is seen. -/
theorem lookup_refines (name : String) (line : Nat) :
    Refines procedures calls s (lookup s name line) (Reference.lookup name line) := by
  intro m hm
  rw [lookup, liveEnv_bind_apply hm.toReady]
  rw [Reference.lookup_apply, Machine.value?_view hm.toReady]
  cases m.env.get? s name <;> rfl

/-- An assignment goes to the scope of the call or to the globals, as in the reference. -/
theorem assign_refines (name : String) (value : Word) :
    Refines procedures calls s (assign s name value) (Reference.assign name value) := by
  intro m hm
  rw [assign_apply hm.toReady]
  show _ = EStateM.Result.ok () ((m.view s).assign name value)
  rw [Machine.assign_view hm.toReady]
  rfl

/-- Output is part of what is seen. -/
theorem display_refines (value : Word) (line : Nat) :
    Refines procedures calls s (display value line) (Reference.display value line) := by
  intro m hm
  have hconsole : (m.view s).console = m.console.idle := rfl
  rw [display_apply, Reference.display_apply, hconsole, Console.display_idle]
  cases (m.console.display value).1 <;> rfl

/-- The line is taken off the console that both have. -/
theorem readInto_refines (target : ReadTarget) :
    Refines procedures calls s (readInto s target) (Reference.readInto target) := by
  intro m hm
  have hread := readWord_keeps (w := none) target m hm.toReady
  have hword : readWord target m = orFail (m.console.read target.name).1 target.line
      { m with console := (m.console.read target.name).2 } := rfl
  have href : Reference.readInto target (m.view s) =
      (Reference.orFail (m.console.read target.name).1 target.line >>= fun value ↦
        Reference.assign target.name value)
        ({ m with console := (m.console.read target.name).2 }.view s) := rfl
  rw [href]
  cases hresult : (m.console.read target.name).1 with
  | error cause =>
    rw [hresult] at hword
    exact congrArg (seen s) (bind_of_error hword)
  | ok value =>
    rw [hresult] at hword
    rw [hword] at hread
    rw [readInto, bind_of_ok hword]
    exact assign_refines target.name value _ ((hm.after hread).after (.withJournal (w := none) _ _))

theorem readAttached_refines (attached : Option ReadTarget) :
    Refines procedures calls s (readAttached s attached) (Reference.readAttached attached) := by
  cases attached with
  | none => exact .pure ()
  | some target => exact readInto_refines target

/-- The procedures are handed down in the reference, and found in the environment here. -/
theorem procedure_refines (name : String) (line : Nat) :
    Refines procedures calls s (procedure name line)
      (Reference.procedure procedures name line) := by
  intro m hm
  rw [procedure_apply, Environment.procedure?, hm.procedures, Reference.procedure]
  cases procedures.find? (·.name = name) <;> rfl

theorem checkCall_refines (name : String) (arguments line : Nat) :
    Refines procedures calls s (checkCall name arguments line)
      (Reference.checkCall procedures name arguments line) :=
  .bind (w := none) (procedure_keeps name line) (procedure_refines name line) fun _ ↦
    .ite (.pure ()) (fail_refines _ line)

/-! ### Expressions and statements -/

/-- A way to carry out calls that refines one of the reference interpreter, wherever it is used. -/
def CallRefines (procedures : List Procedure) (calls : Nat) (call : Caller)
    (reference : Reference.Caller) : Prop :=
  ∀ (s : ScopeId) (name : String) (values : List Word) (line : Nat),
    Refines procedures calls s (call name values line) (reference name values line)

section Syntax

variable {call : Caller} {reference : Reference.Caller}

mutual

/-- Expressions, by induction along the syntax. That parts before keep the frame is what lets the
next one start in the same setting. -/
theorem eval_refines (hkeeps : CallKeeps call)
    (hcall : CallRefines procedures calls call reference) :
    (e : Expr) → Refines procedures calls s (eval call s e)
      (Reference.eval procedures reference e)
  | .number value => .pure value
  | .variable name line => lookup_refines name line
  | .binary _ left right line =>
    .bind (eval_keeps hkeeps left) (eval_refines hkeeps hcall left) fun _ ↦
      .bind (eval_keeps hkeeps right) (eval_refines hkeeps hcall right) fun _ ↦
        orFail_refines _ line
  | .call name arguments line =>
    .bind (w := none) (checkCall_keeps name _ line) (checkCall_refines name _ line) fun _ ↦
      .bind (evalAll_keeps hkeeps arguments) (evalAll_refines hkeeps hcall arguments)
        fun values ↦ hcall s name values line

theorem evalAll_refines (hkeeps : CallKeeps call)
    (hcall : CallRefines procedures calls call reference) :
    (es : List Expr) → Refines procedures calls s (evalAll call s es)
      (Reference.evalAll procedures reference es)
  | [] => .pure []
  | e :: rest =>
    .bind (eval_keeps hkeeps e) (eval_refines hkeeps hcall e) fun _ ↦
      .bind (evalAll_keeps hkeeps rest) (evalAll_refines hkeeps hcall rest) fun _ ↦ .pure _

end

/-- Loops have the same rounds in both. -/
theorem repeatWhile_refines {condition : Run Word} {body : Run Unit}
    {condition' : Reference.Action Word} {body' : Reference.Action Unit}
    (hckeeps : Keeps s w condition) (hbkeeps : Keeps s w body)
    (hcondition : Refines procedures calls s condition condition')
    (hbody : Refines procedures calls s body body') (rounds : Nat) :
    Refines procedures calls s (repeatWhile condition body rounds)
      (Reference.repeatWhile condition' body' rounds) := by
  induction rounds with
  | zero => exact .bind hckeeps hcondition fun _ ↦ .ite (.pure ()) (.throw _)
  | succ rounds ih =>
    exact .bind hckeeps hcondition fun _ ↦ .ite (.pure ()) (.bind hbkeeps hbody fun _ ↦ ih)

mutual

/-- Statements, by induction along the syntax. -/
theorem exec_refines (hkeeps : CallKeeps call)
    (hcall : CallRefines procedures calls call reference) (rounds : Nat) :
    (t : Statement) → Refines procedures calls s (exec call rounds s t)
      (Reference.exec procedures reference rounds t)
  | .assign name value _ =>
    .bind (eval_keeps hkeeps value) (eval_refines hkeeps hcall value) fun v ↦
      assign_refines name v
  | .display value attached line =>
    .bind (eval_keeps hkeeps value) (eval_refines hkeeps hcall value) fun v ↦
      .bind (w := none) (display_keeps v line) (display_refines v line) fun _ ↦
        readAttached_refines attached
  | .read target => readInto_refines target
  | .branch condition thenBlock elseBlock _ =>
    .bind (eval_keeps hkeeps condition) (eval_refines hkeeps hcall condition) fun _ ↦
      .ite (execElse_refines hkeeps hcall rounds elseBlock)
        (execBlock_refines hkeeps hcall rounds thenBlock)
  | .loop condition body _ =>
    repeatWhile_refines (eval_keeps hkeeps condition).weaken (execBlock_keeps hkeeps rounds body)
      (eval_refines hkeeps hcall condition) (execBlock_refines hkeeps hcall rounds body) rounds

theorem execBlock_refines (hkeeps : CallKeeps call)
    (hcall : CallRefines procedures calls call reference) (rounds : Nat) :
    (block : List Statement) → Refines procedures calls s (execBlock call rounds s block)
      (Reference.execBlock procedures reference rounds block)
  | [] => .pure ()
  | t :: rest =>
    .bind (exec_keeps hkeeps rounds t) (exec_refines hkeeps hcall rounds t) fun _ ↦
      execBlock_refines hkeeps hcall rounds rest

theorem execElse_refines (hkeeps : CallKeeps call)
    (hcall : CallRefines procedures calls call reference) (rounds : Nat) :
    (block? : Option (List Statement)) → Refines procedures calls s
      (execElse call rounds s block?) (Reference.execElse procedures reference rounds block?)
  | none => .pure ()
  | some block => execBlock_refines hkeeps hcall rounds block

end

end Syntax

/-! ### Calls -/

/-- Binding a list of variables in a scope that is not the globals, as it is seen from the scope. -/
theorem declareAll_apply (hs : s ≠ .root) (entries : List (String × Word))
    (hm : Setting procedures calls s m) :
    ∃ m', declareAll s entries m = .ok () m' ∧ m.Frame (some s) m' ∧
      (∀ entry ∈ entries, m'.env.Binds s entry.1) ∧
      m'.view s =
        (m.view s).withFrame (some (Reference.bindAll entries (m.env.bindings s))) := by
  induction entries generalizing m with
  | nil =>
    refine ⟨m, rfl, .refl m, by simp, ?_⟩
    simp [Machine.view, Reference.State.withFrame, Reference.bindAll, hs]
  | cons entry rest ih =>
    obtain ⟨m₁, hm₁⟩ : ∃ m₁ : Machine, m₁ = { m with env := m.env.declare s entry.1 entry.2 } :=
      ⟨_, rfl⟩
    have hstep : declare s entry.1 entry.2 m = .ok () m₁ := by
      rw [declare, liveEnv_bind_apply hm.toReady, hm₁]
      rfl
    have hframe : m.Frame (some s) m₁ := by
      rw [hm₁]
      exact .declare hm.isLive entry.1 entry.2 (.inl rfl)
    have hbindings : ∀ u, m₁.env.bindings u =
        if u = s then (m.env.bindings s).insert entry.1 entry.2 else m.env.bindings u := by
      intro u
      rw [hm₁]
      exact Environment.bindings_declare hm.isLive entry.1 entry.2 u
    obtain ⟨m', hrest, hframe', hbinds, hview⟩ := ih (hm.after hframe)
    refine ⟨m', (bind_of_ok hstep).trans hrest, hframe.trans hframe', ?_, ?_⟩
    · intro other hother
      rcases List.mem_cons.1 hother with rfl | hmem
      · refine hframe'.bound s other.1 (Environment.binds_iff.2 ?_)
        rw [hbindings, if_pos rfl, Bindings.contains_insert]
        simp
      · exact hbinds other hmem
    · have hglobals : m₁.env.bindings .root = m.env.bindings .root := by
        rw [hbindings, if_neg (Ne.symm hs)]
      have hconsole : m₁.console = m.console := by rw [hm₁]
      rw [hview, hbindings, if_pos rfl]
      simp only [Machine.view, Reference.State.withFrame, hglobals, hconsole]
      rfl

/-- In a call the setting is that of a fresh scope, with one more call counted. -/
theorem Setting.enterCall (hm : Setting procedures calls s m) :
    Setting procedures (calls + 1) m.env.nextScope m.enterCall where
  toReady := enterCall_ready hm.isTwoLevel
  procedures := hm.procedures
  calls := congrArg Nat.succ hm.calls

/-- What is seen where the body of a call starts: the caller's globals and an empty frame. -/
theorem enterCall_view (hm : m.env.IsTwoLevel) (s : ScopeId) :
    m.enterCall.view m.env.nextScope = (m.view s).withFrame (some .empty) := by
  have hroot := Environment.nextScope_ne_root hm.pos
  have hempty : m.env.push.bindings m.env.nextScope = .empty := by
    rw [Environment.bindings_push]
    exact Environment.bindings_of_le (Nat.le_refl m.env.depth)
  show Reference.State.mk (m.env.push.bindings .root)
    (if m.env.nextScope = .root then none else some (m.env.push.bindings m.env.nextScope))
    m.console.idle = _
  rw [if_neg hroot, hempty, Environment.bindings_push]
  rfl

/-- What the caller sees after a call: the globals as the body has left them, and its own frame. -/
theorem leaveCall_view {m₂ : Machine} (hm : m.Ready s)
    (h : m.enterCall.Frame (some m.env.nextScope) m₂) :
    (m₂.leaveCall m.env.nextScope).view s =
      (m₂.view m.env.nextScope).withFrame (m.view s).frame := by
  have hglobals : (m₂.env.pop m.env.nextScope).bindings .root = m₂.env.bindings .root := by
    rw [Environment.bindings_pop (Environment.nextScope_ne_root hm.isTwoLevel.pos)]
    exact if_pos hm.isTwoLevel.isLive_root
  show Reference.State.mk ((m₂.env.pop m.env.nextScope).bindings .root)
    (if s = .root then none else some ((m₂.env.pop m.env.nextScope).bindings s))
    m₂.console.idle = _
  by_cases hs : s = .root
  · simp [Machine.view, Reference.State.withFrame, hs, hglobals]
  · have hframe : (m₂.env.pop m.env.nextScope).bindings s = m.env.bindings s :=
      bindings_leaveCall hm.isTwoLevel h hs
    simp [Machine.view, Reference.State.withFrame, hs, hglobals, hframe]

/-- Where the return slot is bound, the name of the procedure is looked up in it. -/
theorem lookup_returned {p : Procedure} (hs : s ≠ .root) (hm : m.Ready s)
    (hslot : m.env.Binds s p.name) :
    seen s (lookup s p.name p.line m) = Reference.returned p (m.view s) := by
  rw [lookup, liveEnv_bind_apply hm, hm.isTwoLevel.get?_eq hm.isLive]
  rw [Environment.Binds, Environment.localValue?_eq] at hslot
  obtain ⟨value, hvalue⟩ := Option.isSome_iff_exists.1 hslot
  have hframe : (m.view s).frame.bind (·.get? p.name) = some value := by
    simp [Machine.view, hs, hvalue]
  rw [Reference.returned_of_get? hframe, hvalue]
  rfl

/-- The body of a call, seen from the scope of the call. -/
theorem runBody_refines {call : Caller} {reference : Reference.Caller} (hkeeps : CallKeeps call)
    (hcall : CallRefines procedures calls call reference) (rounds : Nat) (p : Procedure)
    (values : List Word) (hs : s ≠ .root) (hempty : m.env.bindings s = .empty)
    (hm : Setting procedures calls s m) :
    seen s (runBody call rounds p values s m) =
      (Reference.execBlock procedures reference rounds p.body >>= fun _ ↦ Reference.returned p)
        ((m.view s).withFrame (some (Reference.newFrame p values))) := by
  obtain ⟨m₁, hdeclare, hframe, hbinds, hview⟩ := declareAll_apply hs (frame p values) hm
  have hm₁ := hm.after hframe
  have hslot : m₁.env.Binds s p.name := hbinds (p.name, .zero) (List.mem_cons_self ..)
  have hnew : Reference.bindAll (frame p values) .empty = Reference.newFrame p values := by
    simp [Reference.bindAll, Reference.newFrame, frame]
  rw [hempty, hnew] at hview
  rw [runBody, bind_of_ok hdeclare, ← hview]
  have hkept := execBlock_keeps hkeeps rounds p.body m₁ hm₁.toReady
  have hseen := execBlock_refines hkeeps hcall rounds p.body m₁ hm₁
  cases h : execBlock call rounds s p.body m₁ with
  | ok a m₂ =>
    rw [h] at hkept hseen
    rw [bind_of_ok h, bind_of_ok hseen.symm]
    -- the body cannot have unbound the return slot, so that the globals are not asked for it
    exact lookup_returned hs (hkept.ready hm₁.toReady) (hkept.bound s p.name hslot)
  | error e m₂ =>
    rw [h] at hseen
    rw [bind_of_error h, bind_of_error hseen.symm]
    rfl

/-- Work in a scope of its own and as a call of its own is, for the caller, work in a frame of its
own. -/
theorem inFreshScope_asCall_refines {work : ScopeId → Run α} {work' : Reference.Action α}
    {frame : Bindings} (hkeeps : ∀ t, Keeps t (some t) (work t)) (hm : m.Ready s)
    (hcalls : m.console.activeCalls < Console.maxCalls)
    (hwork : seen m.env.nextScope (work m.env.nextScope m.enterCall) =
      work' ((m.view s).withFrame (some frame))) :
    seen s (inFreshScope (fun t ↦ asCall (work t)) m) =
      Reference.inFrame frame work' (m.view s) := by
  have hkept := hkeeps _ _ (enterCall_ready hm.isTwoLevel)
  rw [inFreshScope_asCall_apply hcalls, Reference.inFrame, ← hwork]
  cases h : work m.env.nextScope m.enterCall with
  | ok a m₂ =>
    rw [h] at hkept
    rw [release_uncount_ok (activeCalls_pos hkept), seen, leaveCall_view hm hkept]
    rfl
  | error e m₂ =>
    rw [h] at hkept
    rw [release_uncount_error (activeCalls_pos hkept.2), seen, leaveCall_view hm hkept.2]
    rfl

/-- A call of a procedure, seen from the scope of the caller. -/
theorem procedureCall_refines {call : Caller} {reference : Reference.Caller}
    (hkeeps : CallKeeps call) (hcall : CallRefines procedures (calls + 1) call reference)
    (rounds : Nat) (p : Procedure) (values : List Word) (hcalls : calls < Console.maxCalls)
    (hm : Setting procedures calls s m) :
    seen s (inFreshScope (fun t ↦ asCall (runBody call rounds p values t)) m) =
      Reference.inFrame (Reference.newFrame p values)
        (Reference.execBlock procedures reference rounds p.body >>= fun _ ↦ Reference.returned p)
        (m.view s) := by
  have hroot := Environment.nextScope_ne_root hm.isTwoLevel.pos
  have hempty : m.enterCall.env.bindings m.env.nextScope = .empty :=
    (Environment.bindings_push ..).trans (Environment.bindings_of_le (Nat.le_refl m.env.depth))
  have hbody := runBody_refines hkeeps hcall rounds p values hroot hempty hm.enterCall
  rw [enterCall_view hm.isTwoLevel s] at hbody
  refine inFreshScope_asCall_refines (fun t ↦ ?_) hm.toReady (hm.calls ▸ hcalls) hbody
  exact runBody_keeps hkeeps rounds p values

/-- **A call refines a call.** The reference interpreter is told how many calls the count still
allows; the number that `invoke` recurses on only has to be as large. -/
theorem invoke_refines {bounds : Bounds} (hbounds : bounds.calls ≤ Console.maxCalls) (n : Nat)
    (hn : bounds.calls ≤ n + calls) :
    CallRefines procedures calls (invoke bounds n)
      (Reference.invoke procedures bounds (bounds.calls - calls)) := by
  induction n generalizing calls with
  | zero =>
    intro s name values line
    rw [show bounds.calls - calls = 0 by omega]
    exact fail_refines _ line
  | succ n ih =>
    intro s name values line m hm
    rw [invoke_succ_apply, hm.calls]
    split
    · rename_i hcalls
      -- one call less is allowed inside, on both sides
      obtain ⟨k, hk⟩ : ∃ k, bounds.calls - calls = k + 1 := ⟨bounds.calls - calls - 1, by omega⟩
      have hbody : CallRefines procedures (calls + 1) (invoke bounds n)
          (Reference.invoke procedures bounds k) := by
        rw [show k = bounds.calls - (calls + 1) by omega]
        exact ih (by omega)
      have hfind := procedure_refines name line m hm
      rw [procedure_apply] at hfind
      rw [hk]
      cases hp : m.env.procedure? name with
      | none =>
        rw [hp] at hfind
        exact (bind_of_error hfind.symm).symm
      | some p =>
        rw [hp] at hfind
        refine Eq.trans ?_ (bind_of_ok hfind.symm).symm
        exact procedureCall_refines (invoke_keeps hbounds n) hbody bounds.rounds p values
          (by omega) (hm.after (.withJournal (w := none) m _))
    · rw [show bounds.calls - calls = 0 by omega]
      rfl

/-! ### The three ways to run something -/

/-- A call from outside has as many calls left as the limit allows beyond those that are active. -/
theorem call_refines {bounds : Bounds} (hbounds : bounds.calls ≤ Console.maxCalls) :
    CallRefines procedures calls (call bounds)
      (Reference.invoke procedures bounds (bounds.calls - calls)) :=
  invoke_refines hbounds bounds.calls (Nat.le_add_right ..)

/-- **Scopes cannot be observed.** In an environment with two levels, from every live scope and
whatever other scopes are live: an expression, a statement or a block ends as it does in the
reference interpreter on what is seen from the scope, with the same value or the same halt, and with
what the reference interpreter leaves to be seen. What is not seen is left as it was. -/
theorem refines_reference {bounds : Bounds} (hbounds : bounds.calls ≤ Console.maxCalls)
    {m : Machine} (henv : m.env.IsTwoLevel) {s : ScopeId} (hs : m.env.IsLive s) :
    let procedures := m.env.procedures
    let call := Reference.invoke procedures bounds (bounds.calls - m.console.activeCalls)
    (∀ e : Expr,
      seen s (evaluate bounds s e m) = Reference.eval procedures call e (m.view s) ∧
        Kept (some s) m (evaluate bounds s e m)) ∧
      (∀ t : Statement,
        seen s (runStatement bounds s t m) =
            Reference.exec procedures call bounds.rounds t (m.view s) ∧
          Kept (some s) m (runStatement bounds s t m)) ∧
      ∀ block : Block,
        seen s (runBlock bounds s block m) =
            Reference.execBlock procedures call bounds.rounds block (m.view s) ∧
          Kept (some s) m (runBlock bounds s block m) := by
  intro procedures reference
  have hm : Setting procedures m.console.activeCalls s m := ⟨⟨henv, hs⟩, rfl, rfl⟩
  have hkeeps := call_keeps hbounds
  have hcall : CallRefines procedures m.console.activeCalls (call bounds) reference :=
    call_refines hbounds
  refine ⟨fun e ↦ ⟨?_, ?_⟩, fun t ↦ ⟨?_, ?_⟩, fun block ↦ ⟨?_, ?_⟩⟩
  · exact eval_refines hkeeps hcall e m hm
  · exact (eval_keeps hkeeps e).weaken m hm.toReady
  · exact exec_refines hkeeps hcall bounds.rounds t m hm
  · exact exec_keeps hkeeps bounds.rounds t m hm.toReady
  · exact execBlock_refines hkeeps hcall bounds.rounds block m hm
  · exact execBlock_keeps hkeeps bounds.rounds block m hm.toReady

/-- A call within the arguments of a call, where the scope hides a global by a name of its own and
another scope is live above it. -/
theorem refines_reference_nested_call :
    let p : Procedure := ⟨"p", ["a"], ["x"],
      [.assign "g" (.variable "a" 2) 2, .assign "p" (.variable "g" 3) 3], 1⟩
    let globals : Environment := { Environment.empty.declare .root "g" .one with procedures := [p] }
    let env : Environment := (globals.push.declare ⟨1⟩ "g" .zero).push
    let m : Machine := ⟨env, { Console.start [] .reliable with activeCalls := 1 }, .silent⟩
    let t : Statement := .assign "y" (.call "p" [.call "p" [.variable "g" 4] 4] 4) 4
    env.IsTwoLevel ∧ env.IsLive ⟨1⟩ ∧
      seen ⟨1⟩ (runStatement ⟨64, 10⟩ ⟨1⟩ t m) =
        Reference.exec [p] (Reference.invoke [p] ⟨64, 10⟩ 63) 10 t (m.view ⟨1⟩) := by
  intro p globals env m t
  have hglobals : globals.Reachable := .register (.declare "g" .one .empty (by decide)) rfl
  have henv : env.IsTwoLevel :=
    Environment.Reachable.isTwoLevel (.push (.declare "g" .zero (.push hglobals) (by decide)))
  have hs : env.IsLive ⟨1⟩ := by decide
  exact ⟨henv, hs, ((refines_reference (by decide) henv hs).2.1 t).1⟩

end Run

end TinyProc
