import TinyProc.Proofs.Run.Succession
import TinyProc.Proofs.Syntax.Separation

/-!
# An attached read is a following read

A display with a read attached to it does what the display does without it and the read after it.
So a program and the same program with its reads separated end in the same way, with the same output
and variables and with the same input left (`Run.attached_read_is_following_read`).

In a block this is an equation between runs, whatever way calls are carried out
(`Run.execBlock_separateAll`). What is left is that the procedures that calls find are not the same:
with the program, the ones it registers have been changed. Separating the reads of all procedures
that are registered, those of earlier programs too, gives a change of the machine that every run
commutes with (`Run.CommutesWithSeparation`). The two programs are then compared on the machine
where all reads are separated.
-/

namespace TinyProc

/-- The machine with the reads of all procedures separated. -/
def Machine.separated (m : Machine) : Machine :=
  m.mapProcedures (·.map (·.separate))

/-- Separating reads renames no procedure. -/
theorem Environment.procedure?_separated (m : Machine) (name : String) :
    m.separated.env.procedure? name = (m.env.procedure? name).map (·.separate) :=
  List.find?_map ..

namespace Run

variable {α β : Type} {m : Machine}

/-! ### Blocks -/

section Blocks

variable (call : Caller) (rounds : Nat) (s : ScopeId)

theorem execBlock_singleton (t : Statement) :
    execBlock call rounds s [t] = exec call rounds s t := by
  rw [execBlock, execBlock]
  exact bind_pure_unit

mutual

/-- A statement does what it does with the reads in it as statements of their own. -/
theorem execBlock_separate :
    (t : Statement) → execBlock call rounds s t.separate = exec call rounds s t
  | .assign name value line => execBlock_singleton ..
  | .display value none line => execBlock_singleton ..
  | .display value (some target) line => by
    rw [Statement.separate, execBlock, execBlock_singleton, exec, exec, exec]
    simp only [bind_assoc]
    rfl
  | .read target => execBlock_singleton ..
  | .branch condition thenBlock elseBlock line => by
    rw [Statement.separate, execBlock_singleton, exec, exec, execBlock_separateAll thenBlock,
      execElse_separateElse elseBlock]
  | .loop condition body line => by
    rw [Statement.separate, execBlock_singleton, exec, exec, execBlock_separateAll body]

/-- A block with its reads separated is the same run, not only one with the same outcome. So the
equation can be used inside of loops and conditionals. -/
theorem execBlock_separateAll : (block : List Statement) →
    execBlock call rounds s (Statement.separateAll block) = execBlock call rounds s block
  | [] => rfl
  | t :: rest => by
    rw [Statement.separateAll_cons, execBlock_append, execBlock_separate t,
      execBlock_separateAll rest, execBlock]

theorem execElse_separateElse : (block? : Option (List Statement)) →
    execElse call rounds s (Statement.separateElse block?) = execElse call rounds s block?
  | none => rfl
  | some block => execBlock_separateAll block

end

/-- The body of a procedure with its reads separated is the same run. -/
theorem runBody_separate (p : Procedure) (values : List Word) :
    runBody call rounds p.separate values s = runBody call rounds p values s := by
  have hbody : execBlock call rounds s p.separate.body = execBlock call rounds s p.body :=
    execBlock_separateAll call rounds s p.body
  rw [runBody, runBody, hbody]
  rfl

end Blocks

/-! ### Calls -/

/-- One run after another, if both have counterparts where the reads are separated. -/
theorem bind_separated {x x' : Run α} {f f' : α → Run β}
    (hx : x' m.separated = mapMachine (·.separated) (x m))
    (hf : ∀ a m', f' a m'.separated = mapMachine (·.separated) (f a m')) :
    (x' >>= f') m.separated = mapMachine (·.separated) ((x >>= f) m) := by
  cases h : x m with
  | ok a m' =>
    rw [h] at hx
    rw [bind_of_ok h, bind_of_ok hx]
    exact hf a m'
  | error e m' =>
    rw [h] at hx
    rw [bind_of_error h, bind_of_error hx]
    rfl

/-- A run that does the same where the reads of all procedures are separated. -/
def CommutesWithSeparation (α : Type) (x : Run α) : Prop :=
  ∀ m : Machine, x m.separated = mapMachine (·.separated) (x m)

/-- What does not look at the procedures does not see that they have been changed. -/
theorem Oblivious.commutesWithSeparation {x : Run α} (hx : Oblivious α x) :
    CommutesWithSeparation α x :=
  hx.mapProcedures _

/-- A call is checked against the parameters, and they are the same. -/
theorem checkCall_commutesWithSeparation (name : String) (arguments line : Nat) :
    CommutesWithSeparation Unit (checkCall name arguments line) := by
  intro m
  have hfound := procedure_apply name line m
  have hfound' := procedure_apply name line m.separated
  rw [Environment.procedure?_separated] at hfound'
  cases hp : m.env.procedure? name with
  | none =>
    rw [hp] at hfound hfound'
    rw [checkCall, bind_of_error hfound, bind_of_error hfound']
    rfl
  | some p =>
    rw [hp] at hfound hfound'
    have hparams : p.separate.params = p.params := rfl
    rw [checkCall, bind_of_ok hfound, bind_of_ok hfound', hparams]
    split <;> rfl

/-- The check of a call looks at a procedure, but only for its parameters. -/
theorem commutesWithSeparation_sequential : Sequential CommutesWithSeparation where
  pure a := (Oblivious.pure a).commutesWithSeparation
  bind hx hf m := bind_separated (hx m) hf
  fail _ line := (fail_oblivious _ line).commutesWithSeparation
  outOfRounds := Oblivious.commutesWithSeparation fun _ _ ↦ rfl
  lookup s name line := (lookup_oblivious s name line).commutesWithSeparation
  assign s name value := (assign_oblivious s name value).commutesWithSeparation
  declare s name value := (declare_oblivious s name value).commutesWithSeparation
  display value line := (display_oblivious value line).commutesWithSeparation
  readInto s target := (readInto_oblivious s target).commutesWithSeparation
  checkCall := checkCall_commutesWithSeparation

/-- **A call does the same if the reads of all procedures are separated.** The procedure that is
found is another one, but its body does the same, and the calls in it do the same too. -/
theorem invoke_commutesWithSeparation (bounds : Bounds) (left : Nat) (name : String)
    (values : List Word) (line : Nat) :
    CommutesWithSeparation Word (invoke bounds left name values line) := by
  induction left generalizing name values line with
  | zero => exact (fail_oblivious _ line).commutesWithSeparation
  | succ left ih =>
    intro m
    have hconsole : m.separated.console = m.console := rfl
    rw [invoke_succ_apply, invoke_succ_apply, hconsole, Environment.procedure?_separated]
    split
    · cases m.env.procedure? name with
      | none => rfl
      | some p =>
        have hcount (t : ScopeId) :
            KeepsCount Word (runBody (invoke bounds left) bounds.rounds p values t) :=
          keepsCount_compositional.runBody (keepsCount_compositional.invoke bounds left) _ p values
        simp only [Option.map_some, runBody_separate]
        exact inCall_mapProcedures hcount _ ⟨m.env, m.console,
          m.journal.note (.called name values line)⟩ fun _ ↦
            commutesWithSeparation_sequential.runBody ih bounds.rounds p values _
    · rfl

/-! ### Programs -/

/-- Registering looks at names, and separating changes none. -/
theorem register_separate (d : Procedure) (m : Machine) :
    register d.separate m.separated = mapMachine (·.separated) (register d m) := by
  have hfound := Environment.procedure?_separated m d.name
  have hname : d.separate.name = d.name := rfl
  rw [register_eq, register_eq, Environment.register?, Environment.register?, hname, hfound]
  cases m.env.procedure? d.name with
  | some q => rfl
  | none => simp [Machine.separated, Machine.mapProcedures, Machine.withProcedures]

theorem registerAll_separate (procedures : List Procedure) (m : Machine) :
    registerAll (procedures.map (·.separate)) m.separated =
      mapMachine (·.separated) (registerAll procedures m) := by
  induction procedures generalizing m with
  | nil => rfl
  | cons d rest ih => exact bind_separated (register_separate d m) fun _ m' ↦ ih m'

/-- **The reads of a program can be separated** where all others are. -/
theorem runProgram_separate (bounds : Bounds) (p : Program) (m : Machine) :
    runProgram bounds p.separate m.separated =
      mapMachine (·.separated) (runProgram bounds p m) := by
  have hstatements : runBlock bounds .root p.separate.statements =
      runBlock bounds .root p.statements :=
    execBlock_separateAll (call bounds) bounds.rounds .root p.statements
  rw [runProgram, runProgram, hstatements]
  exact bind_separated (registerAll_separate p.procedures m) fun _ ↦
    commutesWithSeparation_sequential.execBlock
      (invoke_commutesWithSeparation bounds bounds.calls) bounds.rounds p.statements

/-- Two endings that differ at most in whether reads are attached in the procedures that are
registered. -/
structure SameEnding (r r' : EStateM.Result Halt Machine α) : Prop where
  /-- The runs have stopped for the same reason, or have both come to their ends. -/
  halt : halt? r' = halt? r
  /-- The same output has been written and the same input is left. -/
  console : (stateLeft r').console = (stateLeft r).console
  /-- The variables have the same values, in every scope. -/
  scopes : (stateLeft r').env.scopes = (stateLeft r).env.scopes
  /-- The same events have been noted. -/
  journal : (stateLeft r').journal = (stateLeft r).journal
  /-- The procedures are the same with reads separated. -/
  procedures : (stateLeft r').env.procedures.map (·.separate) =
    (stateLeft r).env.procedures.map (·.separate)

/-- Two endings are the same if they are with the reads of all procedures separated, which is a
change to the procedures only. -/
theorem sameEnding_of_separated {r r' : EStateM.Result Halt Machine α}
    (h : mapMachine (·.separated) r' = mapMachine (·.separated) r) : SameEnding r r' := by
  have hleft : (stateLeft r').separated = (stateLeft r).separated := by
    simpa using congrArg stateLeft h
  have hhalt : halt? r' = halt? r := by simpa using congrArg halt? h
  have hconsole := congrArg Machine.console hleft
  have hscopes := congrArg (·.env.scopes) hleft
  have hjournal := congrArg Machine.journal hleft
  have hprocedures := congrArg (·.env.procedures) hleft
  exact ⟨hhalt, hconsole, hscopes, hjournal, hprocedures⟩

/-- Neither of two programs ends, or both do, and in the same way. -/
def ActAlike (calls : Nat) (p q : Program) (m : Machine) : Prop :=
  ((∀ r, ¬ EndsWith calls p m r) ∧ ∀ r, ¬ EndsWith calls q m r) ∨
    ∃ r r', EndsWith calls p m r ∧ EndsWith calls q m r' ∧ SameEnding r r'

/-- Programs that are the same with reads separated do the same. -/
theorem actAlike_of_separate_eq {p q : Program} (h : q.separate = p.separate) (calls : Nat)
    (m : Machine) : ActAlike calls p q m := by
  have hsame (rounds : Nat) :
      SameEnding (runProgram ⟨calls, rounds⟩ p m) (runProgram ⟨calls, rounds⟩ q m) := by
    refine sameEnding_of_separated ?_
    rw [← runProgram_separate, ← runProgram_separate, h]
  by_cases hends : ∃ r, EndsWith calls p m r
  · obtain ⟨_, ⟨rounds, rfl⟩, hr⟩ := hends
    rw [← (hsame rounds).halt] at hr
    exact .inr ⟨_, _, ⟨⟨rounds, rfl⟩, (hsame rounds).halt ▸ hr⟩, ⟨⟨rounds, rfl⟩, hr⟩, hsame rounds⟩
  · refine .inl ⟨not_exists.1 hends, ?_⟩
    rintro _ ⟨⟨rounds, rfl⟩, hr⟩
    rw [(hsame rounds).halt] at hr
    exact hends ⟨_, ⟨rounds, rfl⟩, hr⟩

open Grammar

/-- **An attached read is a following read.** On every machine, with any limit on calls, a program
and the same program with reads separated do the same: neither ends, or they end in the same way and
leave the same output, input and variables. So it makes no difference to what a program does whether
a semicolon stands between `display` with its expression and `read`: with it and without it the text
is accepted, or it is not, and the two programs do the same. -/
theorem attached_read_is_following_read (calls : Nat) (m : Machine) :
    (∀ p : Program, ActAlike calls p p.separate m) ∧
    ∀ (front c back semicolon semicolon' rest : List Lexeme) (line line' : Nat) (e : Expr)
      (p : Program), IsExpr .whole c e → Optional (.symbol .semicolon) semicolon →
      Optional (.symbol .semicolon) semicolon' →
      Parser.parse Parser.program (front ++ ⟨.keyword .displayKw, line⟩ ::
        (c ++ (semicolon ++ ⟨.keyword .readKw, line'⟩ :: back))) = .ok (p, rest) →
        ∃ p' rest', Parser.parse Parser.program (front ++ ⟨.keyword .displayKw, line⟩ ::
            (c ++ (semicolon' ++ ⟨.keyword .readKw, line'⟩ :: back))) = .ok (p', rest') ∧
          ActAlike calls p p' m := by
  refine ⟨fun p ↦ actAlike_of_separate_eq p.separate_separate calls m, ?_⟩
  intro front c back semicolon semicolon' rest line line' e p he hsemicolon hsemicolon' h
  obtain ⟨p', rest', hp', hsame⟩ := Parser.parse_respaced he hsemicolon hsemicolon' h
  exact ⟨p', rest', hp', actAlike_of_separate_eq hsame calls m⟩

/-- A procedure that calls itself displays and reads on the way, with a semicolon in between or not.
The second line that it displays cannot be flushed, and then nothing is read. -/
theorem attached_read_is_following_read_failing_flush :
    let front : List Lexeme :=
      [⟨.keyword .procedureKw, 1⟩, ⟨.identifier "f", 1⟩, ⟨.symbol .leftParen, 1⟩,
        ⟨.identifier "n", 1⟩, ⟨.symbol .rightParen, 1⟩, ⟨.keyword .ifKw, 2⟩, ⟨.identifier "n", 2⟩,
        ⟨.keyword .thenKw, 2⟩]
    let back : List Lexeme :=
      [⟨.identifier "x", 4⟩, ⟨.identifier "f", 5⟩, ⟨.symbol .colonEquals, 5⟩, ⟨.identifier "f", 5⟩,
        ⟨.symbol .leftParen, 5⟩, ⟨.identifier "x", 5⟩, ⟨.symbol .rightParen, 5⟩,
        ⟨.keyword .endKw, 6⟩, ⟨.keyword .endKw, 7⟩, ⟨.identifier "y", 8⟩, ⟨.symbol .equals, 8⟩,
        ⟨.identifier "f", 8⟩, ⟨.symbol .leftParen, 8⟩, ⟨.integer .one, 8⟩, ⟨.symbol .rightParen, 8⟩,
        ⟨.eof, 9⟩]
    let stream (semicolon : List Lexeme) : List Lexeme :=
      front ++ ⟨.keyword .displayKw, 3⟩ ::
        ([⟨.identifier "n", 3⟩] ++ (semicolon ++ ⟨.keyword .readKw, 4⟩ :: back))
    let program (first : Block) : Program :=
      ⟨[⟨"f", ["n"], [], [.branch (.variable "n" 2)
        (first ++ [.assign "f" (.call "f" [.variable "x" 5] 5) 5]) none 2], 1⟩],
        [.assign "y" (.call "f" [.number .one] 8) 8]⟩
    let p := program [.display (.variable "n" 3) (some ⟨"x", 4⟩) 3]
    let p' := program [.display (.variable "n" 3) none 3, .read ⟨"x", 4⟩]
    let m : Machine := ⟨.empty, Console.start [55, 10, 56, 10] ⟨none, some 2⟩, .silent⟩
    Parser.parse Parser.program (stream []) = .ok (p, []) ∧
      Parser.parse Parser.program (stream [⟨.symbol .semicolon, 3⟩]) = .ok (p', []) ∧
      ActAlike 64 p p' m ∧
      ∃ r r', EndsWith 64 p m r ∧ EndsWith 64 p.separate m r' ∧ SameEnding r r' ∧
        halt? r = some (.fault ⟨.stream .flushFailed, 3⟩) ∧
        (stateLeft r).console.output.size = 2 ∧ (stateLeft r).console.input = [56, 10] := by
  intro front back stream program p p' m
  have hp : Parser.parse Parser.program (stream []) = .ok (p, []) := rfl
  have hp' : Parser.parse Parser.program (stream [⟨.symbol .semicolon, 3⟩]) = .ok (p', []) := rfl
  have he : IsExpr .whole [⟨.identifier "n", 3⟩] (.variable "n" 3) :=
    .operand (.operand (.operand (.plain (.name "n" 3))))
  obtain ⟨r, hr, hhalt, houtput, hinput⟩ : ∃ r, runProgram ⟨64, 0⟩ p m = r ∧
      halt? r = some (.fault ⟨.stream .flushFailed, 3⟩) ∧
      (stateLeft r).console.output.size = 2 ∧ (stateLeft r).console.input = [56, 10] :=
    ⟨_, rfl, by decide +kernel, by decide +kernel, by decide +kernel⟩
  have hends : EndsWith 64 p m r := ⟨⟨0, hr⟩, by simp [hhalt]⟩
  obtain ⟨hseparate, hsemicolon⟩ := attached_read_is_following_read 64 m
  obtain ⟨_, _, hparse, hsame⟩ :=
    hsemicolon front _ back [] [⟨.symbol .semicolon, 3⟩] [] 3 4 _ p he (.inl rfl) (.inr ⟨3, rfl⟩) hp
  obtain ⟨rfl, -⟩ := Prod.mk.inj (Except.ok.inj (hparse.symm.trans hp'))
  refine ⟨hp, hp', hsame, r, ?_⟩
  obtain ⟨hnever, -⟩ | ⟨_, r', hends', hseparated, hsame'⟩ := hseparate p
  · exact absurd hends (hnever r)
  · obtain rfl := hends.unique hends'
    exact ⟨r', hends, hseparated, hsame', hhalt, houtput, hinput⟩

end Run

end TinyProc
