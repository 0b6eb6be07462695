import TinyProc.Proofs.Run.CallScopes
import TinyProc.Proofs.Syntax.Declarations

/-!
# Undefined variables

A run that is stopped by an undefined variable has entered that variable, in a scope from which it
cannot be seen (`Run.exists_misses`). A run that is stopped has entered a part that is stopped in a
step of its own (`Run.exists_haltsItself`), so it is enough to go through these steps. None but a
look-up raises the fault, and the look-up at the end of a call does not, since its name is bound
there (`Run.HaltsItself.misses`).

Hence what a call looks up among the names it has bound is always found, and all that is written for
the case that it is not is never reached (`Run.calls_find_what_they_bind`).
-/

namespace TinyProc

/-- A variable is entered on a line in a scope from which no value of it is seen. -/
def Entry.Misses (c : Entry) (name : String) (line : Nat) : Prop :=
  c.part = .expr (.variable name line) ∧ c.machine.env.get? c.scope name = none

namespace Run

variable {α β : Type} {bounds : Bounds} {s : ScopeId} {left line : Nat} {m : Machine}
  {name : String} {c : Entry}

/-! ### Steps that do not look up -/

/-- A run that is never stopped by an undefined variable. -/
def NeverMisses (x : Run α) : Prop :=
  ∀ m name line, halt? (x m) ≠ some (.fault ⟨.undefinedVariable name, line⟩)

/-- If neither part raises the fault, the sequence does not. -/
theorem NeverMisses.bind {x : Run α} {f : α → Run β} (hx : NeverMisses x)
    (hf : ∀ a, NeverMisses (f a)) : NeverMisses (x >>= f) := by
  intro m name line hbind
  obtain hfirst | ⟨a, m', -, hsecond⟩ := halt?_bind_eq_some hbind
  · exact hx m name line hfirst
  · exact hf a m' name line hsecond

theorem assign_neverMisses (name : String) (value : Word) : NeverMisses (assign s name value) := by
  intro m _ _
  rw [assign_eq]
  split <;> simp [halt?]

/-- Operators work on values, not on names. -/
theorem apply_neverMisses (op : Operator) (a b : Word) (line : Nat) :
    NeverMisses (orFail (op.apply a b) line) := by
  intro m _ _
  cases hresult : op.apply a b with
  | ok value => nofun
  | error cause => obtain rfl | rfl := Operator.apply_eq_error hresult <;> nofun

theorem display_neverMisses (value : Word) (line : Nat) : NeverMisses (display value line) := by
  intro m _ _
  rw [display_apply]
  cases (m.console.display value).1 <;> nofun

/-- A read assigns, and looks nothing up. -/
theorem readLine_ne_undefined (name' : String) (bytes : List UInt8) :
    Console.readLine name' bytes ≠ .error (.undefinedVariable name) := by
  intro h
  obtain ⟨-, hcause⟩ | ⟨-, hcause | ⟨_, hcause⟩⟩ := Console.readLine_eq_error h <;> cases hcause

/-- A read fails for the input only. -/
theorem readInto_neverMisses (target : ReadTarget) : NeverMisses (readInto s target) := by
  intro m name line
  rw [readInto_eq]
  cases hread : (m.console.read target.name).1 with
  | ok value => exact assign_neverMisses target.name value _ name line
  | error cause =>
    intro hhalt
    cases hhalt
    exact readLine_ne_undefined target.name _ hread

theorem readAttached_neverMisses (attached : Option ReadTarget) :
    NeverMisses (readAttached s attached) := by
  cases attached with
  | none => exact fun _ _ _ ↦ nofun
  | some target => exact readInto_neverMisses target

theorem procedure_neverMisses (name : String) (line : Nat) :
    NeverMisses (procedure name line) := by
  intro m _ _
  rw [procedure_apply]
  cases m.env.procedure? name <;> nofun

/-- What a call may lack is a procedure, which is another fault. -/
theorem checkCall_neverMisses (name : String) (arguments line : Nat) :
    NeverMisses (checkCall name arguments line) := by
  refine (procedure_neverMisses name line).bind fun p m _ _ ↦ ?_
  split <;> nofun

theorem checkDepth_neverMisses (calls line : Nat) : NeverMisses (checkDepth calls line) := by
  intro m _ _
  rw [checkDepth_apply]
  split <;> nofun

/-! ### Down to the variable -/

/-- What is done for a call around its body looks up nothing but the return slot, which is bound. -/
theorem not_haltsInCall (hbounds : bounds.calls ≤ Console.maxCalls) (hm : m.env.IsTwoLevel)
    {callee : String} {values : List Word} {callLine : Nat} :
    ¬ HaltsInCall bounds (.fault ⟨.undefinedVariable name, line⟩) callee values callLine m
      left := by
  have hroot := Environment.nextScope_ne_root hm.pos
  intro hcall
  cases hcall with
  | tooDeep hh => cases hh
  | depth hdepth => exact checkDepth_neverMisses _ _ _ _ _ hdepth
  | unknown _ hprocedure => exact procedure_neverMisses _ _ _ _ _ hprocedure
  | uncounted _ _ _ hh => cases hh
  | frame _ _ _ hframe =>
    obtain ⟨m', hdeclared, -⟩ :=
      declareAll_apply hroot (frame _ values) ⟨ready_push hm _ _, rfl, rfl⟩
    rw [hdeclared] at hframe
    cases hframe
  | slot _ _ _ hframe hbody hslot =>
    obtain ⟨m', hdeclared, hhalt⟩ := halt?_body_of_runBody (invoke_keeps hbounds _) hroot
      (ready_push hm _ _) ((halt?_bind_of_ok hframe).trans ((halt?_bind_of_ok hbody).trans hslot))
    cases hframe.symm.trans hdeclared
    rw [hbody] at hhalt
    cases hhalt

/-- A part that is stopped by an undefined variable in a step of its own is the variable. -/
theorem HaltsItself.misses (hbounds : bounds.calls ≤ Console.maxCalls)
    (hc : c.machine.Ready c.scope)
    (hitself : HaltsItself bounds (.fault ⟨.undefinedVariable name, line⟩) c) :
    c.Misses name line := by
  cases hitself with
  | lookup hlookup =>
    rw [lookup_eq, if_pos hc.isLive] at hlookup
    split at hlookup <;> cases hlookup
    exact ⟨rfl, ‹_›⟩
  | apply _ _ happly => exact absurd happly (apply_neverMisses _ _ _ _ _ _ _)
  | check hcheck => exact absurd hcheck (checkCall_neverMisses _ _ _ _ _ _)
  | call _ harguments hcall =>
    have hcaller := (evalAll_keeps (invoke_keeps hbounds _) _).frame hc harguments
    exact absurd hcall (not_haltsInCall hbounds (hcaller.isTwoLevel hc.isTwoLevel))
  | assign _ hassign => exact absurd hassign (assign_neverMisses _ _ _ _ _)
  | display _ hdisplay => exact absurd hdisplay (display_neverMisses _ _ _ _ _)
  | readAttached _ _ hread => exact absurd hread (readAttached_neverMisses _ _ _ _)
  | read hread => exact absurd hread (readInto_neverMisses _ _ _ _)
  | outOfRounds _ hh => cases hh

/-- **Undefined variables have been entered.** Where a part is stopped by an undefined variable, the
variable has been entered on the way, on the line of the fault and in a scope from which it is not
seen. -/
theorem exists_misses (hbounds : bounds.calls ≤ Console.maxCalls) (hc : c.machine.Ready c.scope)
    (hhalt : c.halt? bounds = some (.fault ⟨.undefinedVariable name, line⟩)) :
    ∃ c', Relation.ReflTransGen (Enters bounds) c c' ∧ c'.Misses name line := by
  obtain ⟨c', hreached, hitself⟩ := exists_haltsItself hhalt
  exact ⟨c', hreached, hitself.misses hbounds (handed_of_reached hbounds hreached hc).ready⟩

/-! ### Calls -/

/-- The names of a procedure are found in the scope of its call. The machine is that on which the
body starts. -/
structure FindsOwnNames (bounds : Bounds) (p : Procedure) (values : List Word) (t : ScopeId)
    (m : Machine) : Prop where
  /-- The scope is not that of the globals. -/
  ne_root : t ≠ .root
  /-- It holds what has been declared, entry by entry. -/
  bindings : m.env.bindings t = ⟨frame p values⟩
  /-- When the body is through, the return slot is found in the scope itself. -/
  returns : ∀ left m', execBlock (invoke bounds left) bounds.rounds t p.body m = .ok () m' →
    ∃ value, m'.env.resolve t p.name = some t ∧ m'.env.localValue? t p.name = some value ∧
      lookup t p.name p.line m' = .ok value m'
  /-- A variable that is missed in the scope is none of those that the procedure binds. -/
  missed : ∀ left c, Relation.ReflTransGen (Enters bounds) ⟨.block p.body, t, left, m⟩ c →
    c.scope = t → ∀ name line, c.Misses name line → name ∉ p.boundNames

/-- The frame binds all the names of the procedure, and no run unbinds any. -/
theorem findsOwnNames {p : Procedure} {values : List Word} {t : ScopeId}
    (hbounds : bounds.calls ≤ Console.maxCalls) (ht : t ≠ .root) (hm : m.Ready t)
    (hlength : values.length = p.params.length) (hbindings : m.env.bindings t = ⟨frame p values⟩) :
    FindsOwnNames bounds p values t m := by
  have hbinds : ∀ n ∈ p.boundNames, m.env.Binds t n := by
    intro n hn
    rw [Environment.binds_iff, hbindings, Bindings.contains_eq_true_iff, map_fst_frame hlength]
    exact hn
  refine ⟨ht, hbindings, fun left m' hbody ↦ ?_, fun left c hreached hscope name line hmisses ↦ ?_⟩
  · exact returns_of_body (invoke_keeps hbounds left) hm (hbinds _ (List.mem_cons_self ..)) hbody
  · intro hname
    have hhanded := handed_of_reached hbounds hreached hm
    obtain ⟨value, -, -, hget, -⟩ :=
      lookup_of_binds (hscope ▸ hhanded.ready) (hhanded.bound t name (hbinds name hname)) line
    rw [← hscope, hmisses.2] at hget
    cases hget

/-- **Calls find what they have counted and bound.** Let all procedures be parsed ones, and let a
run start in a live scope of an environment that its operations lead to. Of every call in it that
passes its check: when the arguments have their values, the procedure is found whose parameters were
counted; every parameter is paired with the value of its own argument; all declarations succeed, and
none meets a name that has just been bound; when the body is through, the return slot is found, and
in the scope of the call; and a variable that is missed in this scope is neither the return slot nor
a parameter nor a local. Undefined variables are reported only where one is missed. -/
theorem calls_find_what_they_bind {bounds : Bounds} (hbounds : bounds.calls ≤ Console.maxCalls)
    {start : Entry} (henv : start.machine.env.Reachable)
    (hs : start.machine.env.IsLive start.scope)
    (hparsed : ∀ p ∈ start.machine.env.procedures, Parser.IsParsed p) :
    (∀ name arguments line s left m,
      Relation.ReflTransGen (Enters bounds) start ⟨.expr (.call name arguments line), s, left, m⟩ →
      checkCall name arguments.length line m = .ok () m →
      ∃ p, m.env.procedure? name = some p ∧ p.params.length = arguments.length ∧
        p.boundNames.Nodup ∧
        ∀ values m', evalAll (invoke bounds left) s arguments m = .ok values m' →
          procedure name line m' = .ok p m' ∧
          (p.params.zip values).map Prod.fst = p.params ∧
          (∀ i x e, p.params[i]? = some x → arguments[i]? = some e → ∃ m₁ value m₂,
            evalAll (invoke bounds left) s (arguments.take i) m = .ok (values.take i) m₁ ∧
            eval (invoke bounds left) s e m₁ = .ok value m₂ ∧
            (p.params.zip values)[i]? = some (x, value)) ∧
          ∃ m'', declareAll m'.env.nextScope (frame p values)
              (Machine.enterCall { m' with
                journal := m'.journal.note (.called name values line) }) = .ok () m'' ∧
            FindsOwnNames bounds p values m'.env.nextScope m'') ∧
    ∀ c, Relation.ReflTransGen (Enters bounds) start c → ∀ name line,
      c.halt? bounds = some (.fault ⟨.undefinedVariable name, line⟩) →
        ∃ c', Relation.ReflTransGen (Enters bounds) c c' ∧ c'.Misses name line := by
  have hstart : start.machine.Ready start.scope := ⟨henv.isTwoLevel, hs⟩
  refine ⟨fun name arguments line s left m hreached hcheck ↦ ?_, fun c hreached name line ↦
    exists_misses hbounds (handed_of_reached hbounds hreached hstart).ready⟩
  have hhanded := handed_of_reached hbounds hreached hstart
  obtain ⟨⟨p, hp, harity⟩, -⟩ := checkCall_eq_ok hcheck
  have hdistinct : p.boundNames.Nodup :=
    (hparsed p (hhanded.procedures ▸ List.mem_of_find?_eq_some hp)).nodup
  refine ⟨p, hp, harity, hdistinct, fun values m' harguments ↦ ?_⟩
  obtain ⟨hlength, hvalues⟩ := evalAll_eq_ok harguments
  have hcaller := (evalAll_keeps (invoke_keeps hbounds left) arguments).frame hhanded.ready
    harguments
  have htwo := hcaller.isTwoLevel hhanded.ready.isTwoLevel
  refine ⟨?_, List.map_fst_zip (by omega), fun i x e hx he ↦ ?_, ?_⟩
  · have hsame : m'.env.procedure? name = some p := by
      rw [Environment.procedure?, hcaller.procedures]
      exact hp
    rw [procedure_apply, hsame]
  · obtain ⟨m₁, value, m₂, hbefore, hvalue, hat⟩ := hvalues i e he
    refine ⟨m₁, value, m₂, hbefore, hvalue, ?_⟩
    rw [List.getElem?_zip_eq_some]
    exact ⟨hx, hat⟩
  · obtain ⟨m'', hdeclared, hready, hbindings⟩ :=
      declareAll_frame htwo _ _ hdistinct (hlength.trans harity.symm)
    exact ⟨m'', hdeclared, findsOwnNames hbounds (Environment.nextScope_ne_root htwo.pos) hready
      (hlength.trans harity.symm) hbindings⟩

/-- The body of a call hides a global, calls a procedure whose parameter has the name of the caller,
and then misses a variable. -/
theorem calls_find_what_they_bind_missing :
    let ts : List Lexeme :=
      [⟨.keyword .procedureKw, 1⟩, ⟨.identifier "g", 1⟩, ⟨.symbol .leftParen, 1⟩,
        ⟨.identifier "f", 1⟩, ⟨.symbol .rightParen, 1⟩, ⟨.identifier "g", 1⟩,
        ⟨.symbol .colonEquals, 1⟩, ⟨.identifier "f", 1⟩, ⟨.keyword .endKw, 1⟩,
        ⟨.keyword .procedureKw, 2⟩, ⟨.identifier "f", 2⟩, ⟨.symbol .leftParen, 2⟩,
        ⟨.identifier "a", 2⟩, ⟨.symbol .comma, 2⟩, ⟨.identifier "b", 2⟩, ⟨.symbol .rightParen, 2⟩,
        ⟨.keyword .varKw, 2⟩, ⟨.identifier "x", 2⟩, ⟨.symbol .semicolon, 2⟩, ⟨.identifier "x", 3⟩,
        ⟨.symbol .colonEquals, 3⟩, ⟨.identifier "g", 3⟩, ⟨.symbol .leftParen, 3⟩,
        ⟨.identifier "b", 3⟩, ⟨.symbol .rightParen, 3⟩, ⟨.symbol .plus, 3⟩, ⟨.identifier "y", 3⟩,
        ⟨.keyword .endKw, 4⟩, ⟨.keyword .readKw, 5⟩, ⟨.identifier "a", 5⟩, ⟨.eof, 6⟩]
    let g : Procedure := ⟨"g", ["f"], [], [.assign "g" (.variable "f" 1) 1], 1⟩
    let f : Procedure := ⟨"f", ["a", "b"], ["x"],
      [.assign "x" (.binary .add (.call "g" [.variable "b" 3] 3) (.variable "y" 3) 3) 3], 2⟩
    let env : Environment :=
      { Environment.empty.declare .root "a" .one with procedures := [g, f] }
    let m : Machine := ⟨env, .start [] .reliable, .silent⟩
    let arguments : List Expr := [.number .zero, .number .one]
    let start : Entry := ⟨.expr (.call "f" arguments 5), .root, 64, m⟩
    Parser.parse Parser.program ts = .ok (⟨[g, f], [.read ⟨"a", 5⟩]⟩, []) ∧ env.Reachable ∧
      env.IsLive .root ∧ checkCall "f" arguments.length 5 m = .ok () m ∧
      evalAll (invoke ⟨64, 0⟩ 64) .root arguments m = .ok [.zero, .one] m ∧
      procedure "f" 5 m = .ok f m ∧
      (∃ m', m'.env.bindings ⟨1⟩ =
          ⟨[("f", .zero), ("a", .zero), ("b", .one), ("x", .zero)]⟩ ∧
        FindsOwnNames ⟨64, 0⟩ f [.zero, .one] ⟨1⟩ m') ∧
      start.halt? ⟨64, 0⟩ = some (.fault ⟨.undefinedVariable "y", 3⟩) ∧
      ∃ c, Relation.ReflTransGen (Enters ⟨64, 0⟩) start c ∧ c.Misses "y" 3 := by
  intro ts g f env m arguments start
  have hparse : Parser.parse Parser.program ts = .ok (⟨[g, f], [.read ⟨"a", 5⟩]⟩, []) := rfl
  have henv : env.Reachable := by
    have hdeclared : (Environment.empty.declare .root "a" .one).Reachable :=
      .declare "a" .one .empty (by decide)
    exact .register (p := f) (.register (p := g) hdeclared rfl) rfl
  have hs : env.IsLive .root := by decide
  have hcheck : checkCall "f" arguments.length 5 m = .ok () m := rfl
  have hvalues : evalAll (invoke ⟨64, 0⟩ 64) .root arguments m = .ok [.zero, .one] m := rfl
  have hhalt : start.halt? ⟨64, 0⟩ = some (.fault ⟨.undefinedVariable "y", 3⟩) := by
    decide +kernel
  obtain ⟨hcalls, hmisses⟩ := @calls_find_what_they_bind ⟨64, 0⟩ (by decide) start henv hs
    (Parser.isParsed_of_program hparse)
  obtain ⟨p, hp, -, -, hbinds⟩ := hcalls "f" arguments 5 .root 64 m .refl hcheck
  obtain rfl : f = p := Option.some.inj hp
  obtain ⟨hfound, -, -, m', -, hown⟩ := hbinds _ m hvalues
  exact ⟨hparse, henv, hs, hcheck, hvalues, hfound, ⟨m', hown.bindings, hown⟩, hhalt,
    hmisses start .refl "y" 3 hhalt⟩

end Run

end TinyProc
