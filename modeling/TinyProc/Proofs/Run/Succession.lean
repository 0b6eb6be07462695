import TinyProc.Proofs.Run.Composition

/-!
# Programs one after the other

Two programs that are run one after the other, in one environment and at one console, do what a
single program does that has the procedures of both and then the statements of both
(`Run.succession_is_merging`).

The two ways differ in when the procedures of the second program are registered. That they are there
too early makes no difference to the statements of the first: a run only asks for procedures by
name, it finds the ones it has found before, and it finds one more only where it has stopped for
lack of one. This is `Run.Unaffected`, a property that follows the ways in which runs are put
together.
-/

namespace TinyProc

/-- Two programs as one: the procedures of both, then the statements of both. -/
def Program.append (p q : Program) : Program where
  procedures := p.procedures ++ q.procedures
  statements := p.statements ++ q.statements

/-- A procedure that is registered later is found if there is none of the same name before. -/
theorem Environment.procedure?_append (env : Environment) (procedures : List Procedure)
    (name : String) :
    (env.withProcedures (env.procedures ++ procedures)).procedure? name =
      (env.procedure? name).or (procedures.find? (·.name = name)) :=
  List.find?_append

namespace Run

variable {α : Type} {m : Machine} {procedures : List Procedure} {calls : Nat} {p q : Program}

/-! ### Registration -/

/-- Procedures with new names, each with its own, are all registered. -/
theorem registerAll_of_new (hdistinct : (procedures.map (·.name)).Nodup)
    (hnew : ∀ d ∈ procedures, m.env.procedure? d.name = none) :
    registerAll procedures m = .ok () (m.withRegistered procedures) := by
  induction procedures generalizing m with
  | nil =>
    rw [Machine.withRegistered, List.append_nil]
    rfl
  | cons d rest ih =>
    obtain ⟨hd, hrest⟩ := List.forall_mem_cons.1 hnew
    rw [List.map_cons, List.nodup_cons] at hdistinct
    have hregister : register d m = .ok () (m.withRegistered [d]) := by
      rw [register_eq, Environment.register?, hd]
      rfl
    have hstill : ∀ e ∈ rest, (m.withRegistered [d]).env.procedure? e.name = none := by
      intro e he
      have hne : d.name ≠ e.name := fun heq ↦ hdistinct.1 (heq ▸ List.mem_map_of_mem he)
      refine (m.env.procedure?_append [d] e.name).trans ?_
      rw [hrest e he, Option.none_or, List.find?_singleton, if_neg (by simpa using hne)]
    rw [registerAll, bind_of_ok hregister, ih hdistinct.2 hstill]
    simp [Machine.withRegistered]

/-- A run that leaves the procedures as they are. -/
def KeepsProcedures (α : Type) (x : Run α) : Prop :=
  ∀ m : Machine, (stateLeft (x m)).env.procedures = m.env.procedures

/-- No run of statements touches the procedures. -/
theorem keepsProcedures_compositional : Compositional KeepsProcedures where
  pure _ _ := rfl
  bind := stateLeft_bind (R := fun m m' ↦ m'.env.procedures = m.env.procedures)
    fun h h' ↦ h'.trans h
  fail _ _ _ := rfl
  outOfRounds _ := rfl
  lookup s name line := (lookup_oblivious s name line).procedures_eq
  assign s name value := (assign_oblivious s name value).procedures_eq
  declare s name value := (declare_oblivious s name value).procedures_eq
  display value line := (display_oblivious value line).procedures_eq
  readInto s target := (readInto_oblivious s target).procedures_eq
  procedure name line m := by
    rw [procedure_apply]
    cases m.env.procedure? name <;> rfl
  checkDepth calls line := (checkDepth_oblivious calls line).procedures_eq
  noteCall _ _ _ _ := rfl
  inCall hcount hwork m := by
    rw [inCall_apply hcount]
    split
    · rw [stateLeft_mapMachine]
      exact (Environment.procedures_pop ..).trans (hwork m.env.nextScope m.enterCall)
    · exact Environment.procedures_pop ..

/-! ### More procedures -/

/-- A run has stopped at the call of one of the procedures, since it was not registered. -/
def Lacks (procedures : List Procedure) (r : EStateM.Result Halt Machine α) : Prop :=
  ∃ d ∈ procedures, ∃ line, halt? r = some (.fault ⟨.unknownProcedure d.name, line⟩)

/-- With the procedures registered too, the run ends as it does without them, unless it has stopped
for lack of one of them. -/
def Unaffected (procedures : List Procedure) (α : Type) (x : Run α) : Prop :=
  ∀ m : Machine, Lacks procedures (x m) ∨
    x (m.withRegistered procedures) = mapMachine (·.withRegistered procedures) (x m)

/-- A run that comes to its end has lacked no procedure. -/
theorem not_lacks_ok {a : α} : ¬ Lacks procedures (.ok a m : EStateM.Result Halt Machine α) := by
  rintro ⟨_, _, _, h⟩
  cases h

/-- What is lacked is told by the fault alone. -/
theorem lacks_mapMachine {f : Machine → Machine} {r : EStateM.Result Halt Machine α} :
    Lacks procedures (mapMachine f r) ↔ Lacks procedures r := by
  simp only [Lacks, halt?_mapMachine]

/-- If the first part lacks a procedure, then so does the whole, and nothing is said of it. -/
theorem Unaffected.bind {β : Type} {x : Run α} {f : α → Run β} (hx : Unaffected procedures α x)
    (hf : ∀ a, Unaffected procedures β (f a)) : Unaffected procedures β (x >>= f) := by
  intro m
  cases h : x m with
  | ok a m' =>
    have hsame := (hx m).resolve_left (h ▸ not_lacks_ok)
    rw [h] at hsame
    rw [bind_of_ok h, bind_of_ok hsame]
    exact hf a m'
  | error e m' =>
    have hstep := hx m
    rw [h] at hstep
    rw [bind_of_error h]
    exact hstep.imp id bind_of_error

/-- What does not look at the procedures is not affected by more of them. -/
theorem Oblivious.unaffected {x : Run α} (hx : Oblivious α x) : Unaffected procedures α x :=
  fun m ↦ .inr (hx.mapProcedures (· ++ procedures) m)

/-- A procedure that is found is found again in front of more. This is the only step that looks for
one. -/
theorem procedure_unaffected (name : String) (line : Nat) :
    Unaffected procedures Procedure (procedure name line) := by
  intro m
  have hfind : (m.withRegistered procedures).env.procedure? name =
      (m.env.procedure? name).or (procedures.find? (·.name = name)) :=
    m.env.procedure?_append procedures name
  rw [procedure_apply, procedure_apply, hfind]
  cases m.env.procedure? name with
  | some p => exact .inr rfl
  | none =>
    cases hmore : procedures.find? (·.name = name) with
    | none => exact .inr rfl
    | some d =>
      have hname : d.name = name := by simpa using List.find?_some hmore
      exact .inl ⟨d, List.mem_of_find?_eq_some hmore, line, by rw [hname]; rfl⟩

/-- A call, given its work. -/
theorem inCall_unaffected {work : ScopeId → Run α} (hcount : ∀ t, KeepsCount α (work t))
    (hwork : ∀ t, Unaffected procedures α (work t)) :
    Unaffected procedures α (inFreshScope fun t ↦ asCall (work t)) := by
  intro m
  by_cases hcalls : m.console.activeCalls < Console.maxCalls
  · refine (hwork m.env.nextScope m.enterCall).imp (fun hlacks ↦ ?_) fun hsame ↦
      inCall_mapProcedures hcount (· ++ procedures) m fun _ ↦ hsame
    rwa [inCall_apply hcount, if_pos hcalls, lacks_mapMachine]
  · exact .inr (inCall_mapProcedures hcount (· ++ procedures) m fun h ↦ absurd h hcalls)

theorem unaffected_compositional (procedures : List Procedure) :
    Compositional (Unaffected procedures) where
  pure a := (Oblivious.pure a).unaffected
  bind := Unaffected.bind
  fail _ line := (fail_oblivious _ line).unaffected
  outOfRounds := Oblivious.unaffected fun _ _ ↦ rfl
  lookup s name line := (lookup_oblivious s name line).unaffected
  assign s name value := (assign_oblivious s name value).unaffected
  declare s name value := (declare_oblivious s name value).unaffected
  display value line := (display_oblivious value line).unaffected
  readInto s target := (readInto_oblivious s target).unaffected
  procedure := procedure_unaffected
  checkDepth calls line := (checkDepth_oblivious calls line).unaffected
  noteCall _ _ _ := Oblivious.unaffected fun _ _ ↦ rfl
  inCall := inCall_unaffected

/-! ### One program after another -/

/-- A program that comes to its end has registered its procedures, and has run its statements where
they are registered. -/
theorem statements_of_runProgram {bounds : Bounds} {m₁ : Machine}
    (hp : runProgram bounds p m = .ok () m₁) :
    m₁.env.procedures = m.env.procedures ++ p.procedures ∧
      runBlock bounds .root p.statements (m.withRegistered p.procedures) = .ok () m₁ := by
  obtain hstatements | ⟨_, _, herror⟩ := runProgram_cases bounds p m
  · rw [hp] at hstatements
    have hkept := keepsProcedures_compositional.runBlock bounds .root p.statements
      (m.withRegistered p.procedures)
    rw [← hstatements] at hkept
    exact ⟨hkept, hstatements.symm⟩
  · rw [hp] at herror
    cases herror

/-- Where the first program comes to its end, the two in one do what the second does from there. -/
theorem runProgram_append {bounds : Bounds} {m₁ : Machine}
    (hdistinct : ((p.procedures ++ q.procedures).map (·.name)).Nodup)
    (hnew : ∀ d ∈ p.procedures ++ q.procedures, m.env.procedure? d.name = none)
    (hp : runProgram bounds p m = .ok () m₁) :
    runProgram bounds (p.append q) m = runProgram bounds q m₁ := by
  obtain ⟨hprocedures, hstatements⟩ := statements_of_runProgram hp
  have hmerged : registerAll (p.append q).procedures m =
      .ok () (m.withRegistered (p.procedures ++ q.procedures)) :=
    registerAll_of_new hdistinct hnew
  have hsecond : registerAll q.procedures m₁ = .ok () (m₁.withRegistered q.procedures) := by
    rw [List.map_append, List.nodup_append] at hdistinct
    obtain ⟨-, hdistinct, hdisjoint⟩ := hdistinct
    refine registerAll_of_new hdistinct fun d hd ↦ ?_
    rw [Environment.procedure?, hprocedures]
    refine (m.env.procedure?_append p.procedures d.name).trans ?_
    rw [hnew d (List.mem_append_right _ hd), Option.none_or, List.find?_eq_none]
    intro e he heq
    have hname : e.name = d.name := by simpa using heq
    exact hdisjoint _ (List.mem_map_of_mem he) _ (List.mem_map_of_mem hd) hname
  -- the statements of the first program do not mind the procedures of the second
  have hearly : runBlock bounds .root p.statements
      (m.withRegistered (p.procedures ++ q.procedures)) =
        .ok () (m₁.withRegistered q.procedures) := by
    have hmore := (unaffected_compositional q.procedures).runBlock bounds .root p.statements
      (m.withRegistered p.procedures)
    rw [hstatements] at hmore
    have hboth : (m.withRegistered p.procedures).withRegistered q.procedures =
        m.withRegistered (p.procedures ++ q.procedures) := by
      simp [Machine.withRegistered]
    rw [← hboth]
    exact hmore.resolve_left not_lacks_ok
  calc runProgram bounds (p.append q) m
      = runBlock bounds .root (p.statements ++ q.statements)
          (m.withRegistered (p.procedures ++ q.procedures)) := bind_of_ok hmerged
    _ = (runBlock bounds .root p.statements >>= fun _ ↦ runBlock bounds .root q.statements)
          (m.withRegistered (p.procedures ++ q.procedures)) :=
        congrFun (execBlock_append ..) _
    _ = runBlock bounds .root q.statements (m₁.withRegistered q.procedures) := bind_of_ok hearly
    _ = runProgram bounds q m₁ := by rw [runProgram, bind_of_ok hsecond]

/-- **Programs in succession are one program.** If the procedures of two programs have new names,
each its own, and the first program comes to its end, then the second goes on from there as the two
in one program do from the beginning: it ends in the same way and leaves the same machine, or
neither of them ends. The reason is that more procedures make no difference to any run that has not
stopped for lack of one of them. -/
theorem succession_is_merging (calls : Nat) (m : Machine) :
    (∀ (p q : Program) (m₁ : Machine),
      ((p.procedures ++ q.procedures).map (·.name)).Nodup →
      (∀ d ∈ p.procedures ++ q.procedures, m.env.procedure? d.name = none) →
      EndsWith calls p m (.ok () m₁) →
        ∀ r, EndsWith calls q m₁ r ↔ EndsWith calls (p.append q) m r) ∧
    ∀ (procedures : List Procedure) (m' : Machine), registerAll procedures m = .ok () m' →
      ∀ (rounds : Nat) (s : ScopeId),
        (∀ e, ¬ Lacks procedures (evaluate ⟨calls, rounds⟩ s e m) →
          evaluate ⟨calls, rounds⟩ s e m' =
            mapMachine (·.withRegistered procedures) (evaluate ⟨calls, rounds⟩ s e m)) ∧
        (∀ t, ¬ Lacks procedures (runStatement ⟨calls, rounds⟩ s t m) →
          runStatement ⟨calls, rounds⟩ s t m' =
            mapMachine (·.withRegistered procedures) (runStatement ⟨calls, rounds⟩ s t m)) ∧
        ∀ block, ¬ Lacks procedures (runBlock ⟨calls, rounds⟩ s block m) →
          runBlock ⟨calls, rounds⟩ s block m' =
            mapMachine (·.withRegistered procedures) (runBlock ⟨calls, rounds⟩ s block m) := by
  constructor
  · intro p q m₁ hdistinct hnew hp r
    obtain ⟨enough, henough⟩ := hp.eventually
    have hsame : ∀ rounds, enough ≤ rounds →
        runProgram ⟨calls, rounds⟩ (p.append q) m = runProgram ⟨calls, rounds⟩ q m₁ :=
      fun rounds hle ↦ runProgram_append hdistinct hnew (henough rounds hle)
    constructor
    · intro h
      obtain ⟨enough', henough'⟩ := h.eventually
      refine ⟨⟨max enough enough', ?_⟩, h.2⟩
      rw [hsame _ (Nat.le_max_left ..)]
      exact henough' _ (Nat.le_max_right ..)
    · intro h
      obtain ⟨enough', henough'⟩ := h.eventually
      refine ⟨⟨max enough enough', ?_⟩, h.2⟩
      rw [← hsame _ (Nat.le_max_left ..)]
      exact henough' _ (Nat.le_max_right ..)
  · intro procedures m' hregistered rounds s
    have hm' : m' = m.withRegistered procedures := by
      obtain hok | ⟨_, _, herror⟩ := registerAll_cases procedures m
      · cases hregistered.symm.trans hok
        rfl
      · cases hregistered.symm.trans herror
    subst hm'
    have hunaffected := unaffected_compositional procedures
    exact ⟨fun e ↦ (hunaffected.evaluate _ s e m).resolve_left,
      fun t ↦ (hunaffected.runStatement _ s t m).resolve_left,
      fun block ↦ (hunaffected.runBlock _ s block m).resolve_left⟩

theorem eq_ok_of_halt? {r : EStateM.Result Halt Machine Unit} (h : halt? r = none) :
    r = .ok () (stateLeft r) := by
  cases r with
  | ok _ _ => rfl
  | error _ _ => cases h

/-- The first program displays and reads, and its procedure calls itself. The second one calls that
procedure from its own and has a fault in the end. The statement of the first program is run with
the procedure of the second in place, too. -/
theorem succession_is_merging_fault :
    let f : Procedure := ⟨"f", ["n"], [], [.branch (.variable "n" 2) [.assign "f" (.binary .add
      (.variable "n" 2) (.call "f" [.binary .sub (.variable "n" 2) (.number .one) 2] 2) 2) 2]
      none 2], 1⟩
    let g : Procedure := ⟨"g", [], [], [.assign "g" (.call "f" [.variable "x" 2] 2) 2], 1⟩
    let p : Program := ⟨[f], [.display (.number .one) (some ⟨"x", 4⟩) 4]⟩
    let q : Program := ⟨[g], [.display (.call "g" [] 4) none 4, .display (.variable "y" 5) none 5]⟩
    let m : Machine := ⟨.empty, Console.start [51, 10] .reliable, .silent⟩
    ∃ m₁ m₂ r, EndsWith 64 p m (.ok () m₁) ∧
      halt? r = some (.fault ⟨.undefinedVariable "y", 5⟩) ∧
      EndsWith 64 q m₁ r ∧ EndsWith 64 (p.append q) m r ∧
      registerAll [g] m = .ok () m₂ ∧
      runBlock ⟨64, 0⟩ .root p.statements m₂ =
        mapMachine (·.withRegistered [g]) (runBlock ⟨64, 0⟩ .root p.statements m) := by
  intro f g p q m
  have hhalt : halt? (runProgram ⟨64, 0⟩ p m) = none := by decide +kernel
  have hp : EndsWith 64 p m (.ok () (stateLeft (runProgram ⟨64, 0⟩ p m))) :=
    ⟨⟨0, eq_ok_of_halt? hhalt⟩, nofun⟩
  have hhalt' : halt? (runProgram ⟨64, 0⟩ q (stateLeft (runProgram ⟨64, 0⟩ p m))) =
      some (.fault ⟨.undefinedVariable "y", 5⟩) := by decide +kernel
  have hq : EndsWith 64 q (stateLeft (runProgram ⟨64, 0⟩ p m)) _ := ⟨⟨0, rfl⟩, by simp [hhalt']⟩
  have hlacks : ¬ Lacks [g] (runBlock ⟨64, 0⟩ .root p.statements m) := by
    rintro ⟨_, _, _, h⟩
    have hnone : halt? (runBlock ⟨64, 0⟩ .root p.statements m) = none := by decide +kernel
    exact nomatch hnone.symm.trans h
  obtain ⟨hmerged, hmore⟩ := succession_is_merging 64 m
  exact ⟨_, _, _, hp, hhalt', hq,
    (hmerged p q _ (by decide) (by decide) hp _).1 hq, rfl,
    (hmore [g] _ rfl 0 .root).2.2 p.statements hlacks⟩

end Run

end TinyProc
