import TinyProc.Proofs.Run.Lockstep
import TinyProc.Proofs.Run.Refinement

/-!
# Programs that end alike

Two programs with the same statements, whose procedures correspond to each other, end alike on a
fresh environment (`Run.runProgram_alike`): with halts that belong together or both without one, and
with the same globals, input and output.

Registration comes first, and looks only at the names and lines of procedures. The statements then
run on the globals, where the two programs are the same, so that the translation between them is
`Translation.same`. What the reference interpreter says of the two runs is said of the machines,
since all that a machine holds outside of calls is seen from the globals.
-/

namespace TinyProc

namespace Reference.Translation

/-- Nothing is called otherwise. -/
def same : Translation where
  name := id
  frame := id
  Occurs _ := True

/-- The identity translates every name. -/
theorem same_translates (name : String) : same.Translates name where
  value _ _ := rfl
  bound _ _ _ := rfl
  assign _ _ _ := rfl
  occurs _ _ _ := trivial

end Reference.Translation

/-! ### Registration -/

/-- What is looked at of a procedure when it is registered. -/
def Procedure.header (p : Procedure) : String × Nat :=
  (p.name, p.line)

namespace Run

section Registration

variable (m : Machine)

/-- Registration looks at names only. -/
theorem register_apply (p : Procedure) (registered : List Procedure) :
    register p (m.withProcedures registered) =
      if p.name ∈ registered.map (·.name) then
        .error (.fault ⟨.procedureAlreadyDefined p.name, p.line⟩) (m.withProcedures registered)
      else .ok () (m.withProcedures (registered ++ [p])) := by
  have hfind : (m.withProcedures registered).env.procedure? p.name =
      registered.find? (·.name = p.name) := rfl
  rw [register_eq, Environment.register?, hfind]
  cases h : registered.find? (·.name = p.name) with
  | some q =>
    have hq : q.name = p.name := by simpa using List.find?_some h
    rw [if_pos (hq ▸ List.mem_map_of_mem (List.mem_of_find?_eq_some h))]
    rfl
  | none =>
    have hnew : p.name ∉ registered.map (·.name) := by
      rw [List.mem_map]
      rintro ⟨q, hq, hname⟩
      simpa [hname] using List.find?_eq_none.1 h q hq
    rw [if_neg hnew]
    rfl

/-- Procedures with the same names and lines are all registered, or registration stops at the same
one of them. -/
theorem registerAll_alike {procedures procedures' : List Procedure}
    (registered registered' : List Procedure)
    (hprocedures : procedures'.map (·.header) = procedures.map (·.header))
    (hregistered : registered'.map (·.name) = registered.map (·.name)) :
    (registerAll procedures (m.withProcedures registered) =
        .ok () (m.withProcedures (registered ++ procedures)) ∧
      registerAll procedures' (m.withProcedures registered') =
        .ok () (m.withProcedures (registered' ++ procedures'))) ∨
    ∃ name line left left',
      registerAll procedures (m.withProcedures registered) =
        .error (.fault ⟨.procedureAlreadyDefined name, line⟩) (m.withProcedures left) ∧
      registerAll procedures' (m.withProcedures registered') =
        .error (.fault ⟨.procedureAlreadyDefined name, line⟩) (m.withProcedures left') := by
  induction procedures generalizing procedures' registered registered' with
  | nil =>
    obtain rfl : procedures' = [] := List.map_eq_nil_iff.1 hprocedures
    rw [List.append_nil, List.append_nil]
    exact .inl ⟨rfl, rfl⟩
  | cons p rest ih =>
    obtain ⟨p', rest', rfl, hheader, hrest⟩ := List.map_eq_cons_iff.1 hprocedures
    obtain ⟨hname, hline⟩ := Prod.ext_iff.1 hheader
    have hname : p'.name = p.name := hname
    have hline : p'.line = p.line := hline
    have hp := register_apply m p registered
    have hp' := register_apply m p' registered'
    rw [hregistered, hname, hline] at hp'
    by_cases htaken : p.name ∈ registered.map (·.name)
    · rw [if_pos htaken] at hp hp'
      exact .inr ⟨_, _, _, _, bind_of_error hp, bind_of_error hp'⟩
    · rw [if_neg htaken] at hp hp'
      have hstep : (registered' ++ [p']).map (·.name) = (registered ++ [p]).map (·.name) := by
        simp [hregistered, hname]
      have hih := ih _ _ hrest hstep
      simp only [List.append_assoc, List.singleton_append] at hih
      rw [registerAll, registerAll, bind_of_ok hp, bind_of_ok hp']
      exact hih

end Registration

/-! ### Programs -/

/-- Two runs that end with halts that belong together, or both without a halt, and that leave the
same globals, the same input and the same output. -/
inductive EndAlike (R : Halt → Halt → Prop) :
    EStateM.Result Halt Machine Unit → EStateM.Result Halt Machine Unit → Prop
  | ok {m m' : Machine} (hglobals : m'.env.bindings .root = m.env.bindings .root)
    (hconsole : m'.console = m.console) : EndAlike R (.ok () m) (.ok () m')
  | error {h h' : Halt} {m m' : Machine} (hR : R h h')
    (hglobals : m'.env.bindings .root = m.env.bindings .root)
    (hconsole : m'.console = m.console) : EndAlike R (.error h m) (.error h' m')

section Programs

open Reference (Reflects RelatesReads Corresponds Ends Translation)

variable {R : Halt → Halt → Prop} {procedures procedures' : List Procedure} {bounds : Bounds}

theorem EndAlike.mono {S : Halt → Halt → Prop} {r r' : EStateM.Result Halt Machine Unit}
    (h : EndAlike R r r') (hRS : ∀ h h', R h h' → S h h') : EndAlike S r r' := by
  cases h with
  | ok hglobals hconsole => exact .ok hglobals hconsole
  | error hR hglobals hconsole => exact .error (hRS _ _ hR) hglobals hconsole

/-- Nothing is hidden from the globals but the count of active calls. -/
theorem of_view_root {m m' : Machine} (hview : m'.view .root = m.view .root)
    (hcalls : m'.console.activeCalls = m.console.activeCalls) :
    m'.env.bindings .root = m.env.bindings .root ∧ m'.console = m.console := by
  refine ⟨congrArg Reference.State.globals hview, ?_⟩
  have hidle : m'.console.idle = m.console.idle := congrArg Reference.State.console hview
  have hconsole : ∀ c : Console, c = { c.idle with activeCalls := c.activeCalls } := fun _ ↦ rfl
  rw [hconsole m'.console, hconsole m.console, hidle, hcalls]

/-- What is seen of a run tells how it has ended. -/
theorem eq_ok_of_seen {α : Type} {s : ScopeId} {a : α} {σ : Reference.State}
    {r : EStateM.Result Halt Machine α} (h : seen s r = .ok a σ) :
    ∃ m, r = .ok a m ∧ m.view s = σ := by
  cases r with
  | ok b m =>
    cases h
    exact ⟨m, rfl, rfl⟩
  | error e m => cases h

theorem eq_error_of_seen {α : Type} {s : ScopeId} {e : Halt} {σ : Reference.State}
    {r : EStateM.Result Halt Machine α} (h : seen s r = .error e σ) :
    ∃ m, r = .error e m ∧ m.view s = σ := by
  cases r with
  | ok b m => cases h
  | error e' m =>
    cases h
    exact ⟨m, rfl, rfl⟩

/-- Seen from the globals, a machine is its globals, its input and its output, up to the count. -/
theorem endAlike_of_seen {r r' : EStateM.Result Halt Machine Unit}
    (h : Ends .same R (seen .root r) (seen .root r'))
    (hcalls : (stateLeft r').console.activeCalls = (stateLeft r).console.activeCalls) :
    EndAlike R r r' := by
  generalize hs : seen .root r = s at h
  generalize hs' : seen .root r' = s' at h
  cases h with
  | ok _ =>
    obtain ⟨m, rfl, hm⟩ := eq_ok_of_seen hs
    obtain ⟨m', rfl, hm'⟩ := eq_ok_of_seen hs'
    obtain ⟨hglobals, hconsole⟩ := of_view_root (hm'.trans hm.symm) hcalls
    exact .ok hglobals hconsole
  | error hR =>
    obtain ⟨m, rfl, hm⟩ := eq_error_of_seen hs
    obtain ⟨m', rfl, hm'⟩ := eq_error_of_seen hs'
    obtain ⟨hglobals, hconsole⟩ := of_view_root (hm'.trans hm.symm) hcalls
    exact .error hR hglobals hconsole

/-- The statements of a program, on an environment in which only procedures have been registered. -/
theorem runBlock_root (hbounds : bounds.calls ≤ Console.maxCalls) {m : Machine}
    (hm : m.env.IsTwoLevel) (procedures : List Procedure) (statements : Block) :
    seen .root (runBlock bounds .root statements (m.withProcedures procedures)) =
        Reference.execBlock procedures
          (Reference.invoke procedures bounds (bounds.calls - m.console.activeCalls))
          bounds.rounds statements (m.view .root) ∧
      (stateLeft (runBlock bounds .root statements
        (m.withProcedures procedures))).console.activeCalls = m.console.activeCalls := by
  have hset : Setting procedures m.console.activeCalls .root (m.withProcedures procedures) :=
    ⟨⟨⟨hm.pos, hm.parent⟩, hm.isLive_root⟩, rfl, rfl⟩
  refine ⟨execBlock_refines (call_keeps hbounds) (call_refines hbounds) bounds.rounds statements
    _ hset, ?_⟩
  have hkept := execBlock_keeps (call_keeps hbounds) bounds.rounds statements _ hset.toReady
  exact (frame_of_kept hkept).activeCalls

/-- **Corresponding procedures make no difference** to the statements of a program. -/
theorem runProgram_alike (hbounds : bounds.calls ≤ Console.maxCalls) (hR : Reflects R)
    (hcorresponds : Corresponds R procedures procedures')
    (hheaders : procedures'.map (·.header) = procedures.map (·.header)) {statements : Block}
    (hreads : RelatesReads .same R (Statement.readsAll statements)) (console : Console)
    (journal : Journal) :
    EndAlike R (runProgram bounds ⟨procedures, statements⟩ ⟨.empty, console, journal⟩)
      (runProgram bounds ⟨procedures', statements⟩ ⟨.empty, console, journal⟩) := by
  obtain ⟨m, hm⟩ : ∃ m : Machine, m = ⟨.empty, console, journal⟩ := ⟨_, rfl⟩
  have hstart : m = m.withProcedures [] := by rw [hm]; rfl
  rw [← hm, hstart, runProgram, runProgram]
  obtain ⟨hok, hok'⟩ | ⟨name, line, left, left', herror, herror'⟩ :=
    registerAll_alike m [] [] hheaders rfl
  · rw [bind_of_ok hok, bind_of_ok hok', List.nil_append, List.nil_append]
    have hlevels : m.env.IsTwoLevel := hm ▸ .empty
    obtain ⟨hseen, hcalls⟩ := runBlock_root hbounds hlevels procedures statements
    obtain ⟨hseen', hcalls'⟩ := runBlock_root hbounds hlevels procedures' statements
    refine endAlike_of_seen ?_ (hcalls'.trans hcalls.symm)
    rw [hseen, hseen']
    have hlockstep := Reference.execBlock_lockstep hR hcorresponds.sameArities
      (Reference.invoke_lockstep hR hcorresponds bounds (bounds.calls - m.console.activeCalls)
        .same) bounds.rounds statements (fun name _ ↦ Translation.same_translates name) hreads
    have hid : Statement.renameAll Translation.same.name statements = statements :=
      Statement.renameAll_id statements
    rw [hid] at hlockstep
    exact hlockstep (m.view .root) trivial
  · rw [bind_of_error herror, bind_of_error herror']
    exact .error (hR _ (by simp [Reference.exhausted])) rfl rfl

end Programs

end Run

end TinyProc
