import Mathlib.Data.List.Induction
import TinyProc.Proofs.Environment.Stack
import TinyProc.Proofs.Run.Succession

/-!
# Registration stops at the first name that is taken

The procedures of a program are registered one at a time. A declaration collides if its name is
registered already or is that of a declaration before it, and registration stops at the first that
does, with the ones before it registered (`Run.registration_is_exact`). So what is left behind
depends on where the first collision is, and the two kinds of collision may be mixed.
`Environment.Accepts` says of declarations that none of them collides. Whether one more declaration
is accepted behind others is a single question (`Environment.accepts_concat_iff`), and registration
asks just this one at every step (`Run.register_behind`).

Nothing but registration touches the procedures, and registration only appends to them. Hence a name
keeps its declaration in every session, whatever is run in it and however that ends
(`Run.session_extends`).
-/

namespace TinyProc

/-! ### Collisions -/

namespace Environment

variable {env : Environment} {before declarations : List Procedure} {d q : Procedure}
  {name : String}

/-- The name of a declaration is registered, or one of the declarations before it has it. -/
def Collides (env : Environment) (before : List Procedure) (d : Procedure) : Prop :=
  (∃ q, env.procedure? d.name = some q) ∨ ∃ e ∈ before, e.name = d.name

/-- No declaration collides. -/
def Accepts (env : Environment) (declarations : List Procedure) : Prop :=
  ∀ before d after, declarations = before ++ d :: after → ¬ env.Collides before d

theorem accepts_nil : env.Accepts [] := by
  intro before d after h
  simp at h

/-- One more declaration behind others: it must not collide, and neither must they. -/
theorem accepts_concat_iff :
    env.Accepts (declarations ++ [d]) ↔
      env.Accepts declarations ∧ ¬ env.Collides declarations d := by
  constructor
  · intro h
    refine ⟨fun before e after hsplit ↦ h before e (after ++ [d]) ?_, h declarations d [] rfl⟩
    rw [hsplit, List.append_assoc, List.cons_append]
  · rintro ⟨haccepts, hd⟩ before e after hsplit
    cases after using List.reverseRecOn with
    | nil =>
      obtain ⟨rfl, heq⟩ := List.append_inj' hsplit rfl
      cases heq
      exact hd
    | append_singleton after last =>
      rw [← List.cons_append, ← List.append_assoc] at hsplit
      exact haccepts before e after (List.append_inj' hsplit rfl).1

/-- If some declaration collides, then there is a first one that does. -/
theorem accepts_or_first (env : Environment) (declarations : List Procedure) :
    env.Accepts declarations ∨
      ∃ before d after, declarations = before ++ d :: after ∧ env.Collides before d ∧
        env.Accepts before := by
  induction declarations using List.reverseRecOn with
  | nil => exact .inl accepts_nil
  | append_singleton declarations d ih =>
    obtain haccepts | ⟨before, e, after, rfl, hcollides, haccepts⟩ := ih
    · by_cases hd : env.Collides declarations d
      · exact .inr ⟨declarations, d, [], rfl, hd, haccepts⟩
      · exact .inl (accepts_concat_iff.2 ⟨haccepts, hd⟩)
    · exact .inr ⟨before, e, after ++ [d], by simp, hcollides, haccepts⟩

/-- A declaration collides behind others just if its name is found when they are registered. -/
theorem collides_iff_procedure? :
    env.Collides before d ↔
      ∃ q, (env.withProcedures (env.procedures ++ before)).procedure? d.name = some q := by
  simp only [← Option.isSome_iff_exists, procedure?_append, Option.isSome_or, Bool.or_eq_true,
    List.find?_isSome, decide_eq_true_eq, Collides]

/-- Where declarations are accepted, exactly these are found besides what was found before. -/
theorem Accepts.procedure?_eq_some_iff (h : env.Accepts declarations) :
    (env.withProcedures (env.procedures ++ declarations)).procedure? name = some q ↔
      env.procedure? name = some q ∨ q ∈ declarations ∧ q.name = name := by
  rw [procedure?_append, Option.or_eq_some_iff]
  refine or_congr_right ⟨?_, ?_⟩
  · rintro ⟨-, hfind⟩
    exact ⟨List.mem_of_find?_eq_some hfind, by simpa using List.find?_some hfind⟩
  · rintro ⟨hmem, rfl⟩
    obtain ⟨before, after, rfl⟩ := List.append_of_mem hmem
    obtain ⟨hnew, hbefore⟩ := not_or.1 (h before q after rfl)
    refine ⟨Option.eq_none_iff_forall_ne_some.2 (not_exists.1 hnew), ?_⟩
    refine List.find?_eq_some_iff_append.2 ⟨by simp, before, after, rfl, fun e he ↦ ?_⟩
    simpa using fun hname ↦ hbefore ⟨e, he, hname⟩

end Environment

/-! ### Registering -/

namespace Run

variable {m : Machine} {before declarations : List Procedure} {d : Procedure}

/-- A declaration is registered behind others unless it collides. -/
theorem register_behind (m : Machine) (before : List Procedure) (d : Procedure) :
    (m.env.Collides before d → register d (m.withRegistered before) =
      .error (.fault ⟨.procedureAlreadyDefined d.name, d.line⟩) (m.withRegistered before)) ∧
    (¬ m.env.Collides before d → register d (m.withRegistered before) =
      .ok () (m.withRegistered (before ++ [d]))) := by
  have hcollides : m.env.Collides before d ↔
      ∃ q, (m.withRegistered before).env.procedure? d.name = some q :=
    Environment.collides_iff_procedure?
  rw [hcollides, register_eq, Environment.register?]
  cases (m.withRegistered before).env.procedure? d.name with
  | some q => exact ⟨fun _ ↦ rfl, fun hnone ↦ absurd ⟨q, rfl⟩ hnone⟩
  | none =>
    refine ⟨fun hsome ↦ ?_, fun _ ↦ ?_⟩
    · simp at hsome
    · simp [Machine.withRegistered]

theorem registerAll_append (a b : List Procedure) :
    registerAll (a ++ b) = registerAll a >>= fun _ ↦ registerAll b := by
  induction a with
  | nil => rfl
  | cons d rest ih => rw [List.cons_append, registerAll, registerAll, ih, bind_assoc]

/-- Declarations that are accepted are all registered. -/
theorem registerAll_of_accepts (h : m.env.Accepts declarations) :
    registerAll declarations m = .ok () (m.withRegistered declarations) := by
  induction declarations using List.reverseRecOn with
  | nil =>
    rw [Machine.withRegistered, List.append_nil]
    rfl
  | append_singleton declarations d ih =>
    obtain ⟨haccepts, hd⟩ := Environment.accepts_concat_iff.1 h
    rw [registerAll_append, bind_of_ok (ih haccepts)]
    exact bind_of_ok ((register_behind m declarations d).2 hd)

/-- Registration stops at the first declaration that collides. -/
theorem registerAll_of_collides (hbefore : m.env.Accepts before) (hd : m.env.Collides before d)
    (after : List Procedure) :
    registerAll (before ++ d :: after) m =
      .error (.fault ⟨.procedureAlreadyDefined d.name, d.line⟩) (m.withRegistered before) := by
  rw [registerAll_append, bind_of_ok (registerAll_of_accepts hbefore)]
  exact bind_of_error ((register_behind m before d).1 hd)

/-! ### Sessions -/

/-- What can be asked for in a session. -/
inductive Request
  /-- A program, to be run. -/
  | program (p : Program)
  /-- A procedure, to be registered. -/
  | procedure (d : Procedure)
  /-- A block, to be run in a scope. -/
  | block (s : ScopeId) (statements : Block)
  /-- A statement, to be run in a scope. -/
  | statement (s : ScopeId) (t : Statement)
  /-- An expression, to be evaluated in a scope. -/
  | expression (s : ScopeId) (e : Expr)
  /-- An operation on the environment. -/
  | operation (op : Operation)

/-- A request as a run. -/
def Request.run (bounds : Bounds) : Request → Run Unit
  | .program p => runProgram bounds p
  | .procedure d => register d
  | .block s statements => runBlock bounds s statements
  | .statement s t => runStatement bounds s t
  | .expression s e => do
    let _ ← evaluate bounds s e
    pure ()
  | .operation op => do
    let _ ← op.run
    pure ()

/-- The machine after requests one after the other. That one of them fails does not end the session.
-/
def session (bounds : Bounds) : List Request → Machine → Machine
  | [], m => m
  | request :: rest, m => session bounds rest (stateLeft (request.run bounds m))

/-- A run that at most appends to the procedures. -/
def ExtendsProcedures (α : Type) (x : Run α) : Prop :=
  ∀ m : Machine, m.env.procedures <+: (stateLeft (x m)).env.procedures

section Sessions

variable {α β : Type} {x : Run α} {f : α → Run β}

/-- A run that leaves the procedures alone extends them by none. -/
theorem KeepsProcedures.extends (hx : KeepsProcedures α x) : ExtendsProcedures α x := by
  intro m
  exact (hx m).symm ▸ List.prefix_refl _

theorem ExtendsProcedures.bind (hx : ExtendsProcedures α x) (hf : ∀ a, ExtendsProcedures β (f a)) :
    ExtendsProcedures β (x >>= f) :=
  stateLeft_bind (R := fun m m' ↦ m.env.procedures <+: m'.env.procedures) List.IsPrefix.trans hx hf

/-- A registration appends its procedure, or fails and appends none. -/
theorem register_extends (d : Procedure) : ExtendsProcedures Unit (register d) := by
  intro m
  rw [register_eq, Environment.register?]
  cases m.env.procedure? d.name with
  | some q => exact List.prefix_refl _
  | none => exact List.prefix_append _ _

theorem registerAll_extends (declarations : List Procedure) :
    ExtendsProcedures Unit (registerAll declarations) := by
  induction declarations with
  | nil => exact fun m ↦ List.prefix_refl _
  | cons d rest ih => exact (register_extends d).bind fun _ ↦ ih

/-- Declaring names and assigning to them is no registration. -/
theorem operation_keepsProcedures (op : Operation) : KeepsProcedures Answer op.run := by
  have h := keepsProcedures_compositional
  cases op with
  | push => exact fun _ ↦ rfl
  | pop s => exact fun _ ↦ Environment.procedures_pop ..
  | get s name line => exact h.bind (h.lookup s name line) fun _ ↦ h.pure _
  | set s name value => exact h.bind (h.assign s name value) fun _ ↦ h.pure _
  | declare s name value => exact h.bind (h.declare s name value) fun _ ↦ h.pure _

/-- One request at most appends to the procedures. -/
theorem Request.run_extends (bounds : Bounds) (request : Request) :
    ExtendsProcedures Unit (request.run bounds) := by
  have h := keepsProcedures_compositional
  cases request with
  | program p =>
    exact (registerAll_extends p.procedures).bind fun _ ↦ (h.runBlock bounds .root _).extends
  | procedure d => exact register_extends d
  | block s statements => exact (h.runBlock bounds s statements).extends
  | statement s t => exact (h.runStatement bounds s t).extends
  | expression s e => exact (h.bind (h.evaluate bounds s e) fun _ ↦ h.pure ()).extends
  | operation op => exact (h.bind (operation_keepsProcedures op) fun _ ↦ h.pure ()).extends

/-- So does a session. -/
theorem session_extends (bounds : Bounds) (requests : List Request) (m : Machine) :
    m.env.procedures <+: (session bounds requests m).env.procedures := by
  induction requests generalizing m with
  | nil => exact List.prefix_refl _
  | cons request rest ih => exact (request.run_extends bounds m).trans (ih _)

end Sessions

/-- **Registration is exact.** Registering the procedures of a program fails just if one of them
collides: its name is registered already, or it is that of one before it. There is a first one then,
and the program stops with its name and line. Nothing has changed but that the declarations before
it are registered: exactly these are found besides what was found before. If none collides, then all
are registered and the statements are run. In any session, a name that is registered keeps its
declaration, and this is the one that it was registered with. -/
theorem registration_is_exact (bounds : Bounds) (p : Program) (m : Machine) :
    ((∃ halt m', registerAll p.procedures m = .error halt m') ↔
      ∃ before d after, p.procedures = before ++ d :: after ∧ m.env.Collides before d) ∧
    ((∃ before d after, p.procedures = before ++ d :: after ∧ m.env.Collides before d) →
      ∃ before d after, p.procedures = before ++ d :: after ∧ m.env.Collides before d ∧
        m.env.Accepts before) ∧
    (∀ before d after, p.procedures = before ++ d :: after → m.env.Collides before d →
      m.env.Accepts before →
        runProgram bounds p m = .error (.fault ⟨.procedureAlreadyDefined d.name, d.line⟩)
          (m.withRegistered before) ∧
        ∀ name q, (m.withRegistered before).env.procedure? name = some q ↔
          m.env.procedure? name = some q ∨ q ∈ before ∧ q.name = name) ∧
    (m.env.Accepts p.procedures →
      runProgram bounds p m = runBlock bounds .root p.statements (m.withRegistered p.procedures)) ∧
    (∀ requests name q, m.env.procedure? name = some q →
      (session bounds requests m).env.procedure? name = some q) ∧
    ∀ requests d, m.env.procedure? d.name = none →
      (session bounds (.procedure d :: requests) m).env.procedure? d.name = some d := by
  have hfirst : (∃ before d after, p.procedures = before ++ d :: after ∧ m.env.Collides before d) →
      ∃ before d after, p.procedures = before ++ d :: after ∧ m.env.Collides before d ∧
        m.env.Accepts before := by
    rintro ⟨before, d, after, hsplit, hd⟩
    exact (m.env.accepts_or_first p.procedures).resolve_left fun h ↦ h before d after hsplit hd
  have hkept (requests : List Request) {m : Machine} {name : String} {q : Procedure}
      (h : m.env.procedure? name = some q) :
      (session bounds requests m).env.procedure? name = some q :=
    (session_extends bounds requests m).find?_eq_some h
  refine ⟨⟨?_, fun hcollision ↦ ?_⟩, hfirst, fun before d after hsplit hd haccepts ↦ ⟨?_, ?_⟩,
    fun haccepts ↦ ?_, fun requests _ _ ↦ hkept requests, fun requests d hnew ↦ hkept requests ?_⟩
  · rintro ⟨halt, m', herror⟩
    obtain haccepts | ⟨before, d, after, hsplit, hd, -⟩ := m.env.accepts_or_first p.procedures
    · rw [registerAll_of_accepts haccepts] at herror
      cases herror
    · exact ⟨before, d, after, hsplit, hd⟩
  · obtain ⟨before, d, after, hsplit, hd, haccepts⟩ := hfirst hcollision
    rw [hsplit]
    exact ⟨_, _, registerAll_of_collides haccepts hd after⟩
  · rw [runProgram, hsplit]
    exact bind_of_error (registerAll_of_collides haccepts hd after)
  · exact fun name q ↦ haccepts.procedure?_eq_some_iff
  · exact bind_of_ok (registerAll_of_accepts haccepts)
  · have hregister : register d m = .ok () (m.withRegistered [d]) := by
      rw [register_eq, Environment.register?, hnew]
      rfl
    show (stateLeft (register d m)).env.procedure? d.name = some d
    rw [hregister]
    refine (m.env.procedure?_append [d] d.name).trans ?_
    simp [hnew]

/-- A program declares a name twice and then one that an earlier program has registered. It stops at
the second declaration of the name, and later requests replace neither. -/
theorem registration_is_exact_mixed :
    let f : Procedure := ⟨"f", [], [], [], 1⟩
    let g : Procedure := ⟨"g", ["a"], [], [], 1⟩
    let g' : Procedure := ⟨"g", [], ["b"], [], 2⟩
    let f' : Procedure := ⟨"f", ["c"], [], [], 3⟩
    let p : Program := ⟨[g, g', f'], [.display (.number .one) none 4]⟩
    let m : Machine := ⟨{ Environment.empty with procedures := [f] }, .start [] .reliable, .silent⟩
    runProgram ⟨64, 0⟩ p m =
        .error (.fault ⟨.procedureAlreadyDefined "g", 2⟩) (m.withRegistered [g]) ∧
      (session ⟨64, 0⟩ [.program p, .procedure f', .program ⟨[], []⟩] m).env.procedure? "f" =
        some f ∧
      (session ⟨64, 0⟩ [.procedure g, .procedure g', .program p] m).env.procedure? "g" =
        some g := by
  intro f g g' f' p m
  have hnew : m.env.procedure? g.name = none := rfl
  have hg : m.env.Accepts [g] := by
    refine Environment.accepts_concat_iff.2 ⟨Environment.accepts_nil, ?_⟩
    simp [Environment.Collides, hnew]
  have hg' : m.env.Collides [g] g' := .inr ⟨g, List.mem_singleton_self g, rfl⟩
  obtain ⟨-, -, hstops, -, hkept, hregistered⟩ := registration_is_exact ⟨64, 0⟩ p m
  exact ⟨(hstops [g] g' [f'] rfl hg' hg).1, hkept _ _ _ rfl, hregistered _ g rfl⟩

end Run

end TinyProc
