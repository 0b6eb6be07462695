import TinyProc.Proofs.Syntax.Acceptance

/-!
# Declarations and their local variables

A declaration of a procedure may have a `var` section, which is meant to name the local variables:
at least one of them, by the production

```
procedure name ( [name (, name)*] ) [var name (, name)* ;] statement+ end [;]
```

The parser reads the names after `var` as it reads parameters, and so it accepts the section also
where it names nothing. This is the only way in which a declaration that it accepts can fail to be
derived by the production (`Parser.declared_iff_locals_named`), and it does occur
(`Parser.accepts_without_locals`).

Whether there is a section can be told from the tokens, since no other part of a declaration has the
keyword: expressions and lists of names have no keyword at all, and statements have others.
-/

namespace TinyProc

/-- A token occurs in a list. -/
def Mentions (token : Token) (c : List Lexeme) : Prop :=
  ∃ lexeme ∈ c, lexeme.token = token

section Mentions

variable {token : Token} {lexeme : Lexeme} {c d : List Lexeme}

@[simp] theorem not_mentions_nil : ¬ Mentions token [] := by
  simp [Mentions]

@[simp] theorem mentions_cons :
    Mentions token (lexeme :: c) ↔ lexeme.token = token ∨ Mentions token c := by
  simp [Mentions]

@[simp] theorem mentions_append :
    Mentions token (c ++ d) ↔ Mentions token c ∨ Mentions token d := by
  simp [Mentions, or_and_right, exists_or]

end Mentions

namespace Grammar

variable {α : Type} {c : List Lexeme}

/-! ### Where keywords occur -/

theorem Optional.not_mentions {token token' : Token} (h : Optional token c) (hne : token ≠ token') :
    ¬ Mentions token' c := by
  rcases h with rfl | ⟨line, rfl⟩
  · exact not_mentions_nil
  · simpa using hne

/-- A list mentions a token that is in one of its items, or a comma, or what closes it. -/
theorem CommaList.not_mentions {item : List Lexeme → α → Prop} {closing token : Token}
    {as : List α} (h : CommaList item closing c as)
    (hitem : ∀ c a, item c a → ¬ Mentions token c) (hclosing : closing ≠ token)
    (hcomma : token ≠ .symbol .comma) : ¬ Mentions token c := by
  cases h with
  | empty line => simpa using hclosing
  | filled h =>
    induction h with
    | last line ha => simpa using ⟨hitem _ _ ha, hclosing⟩
    | cons line ha _ ih => simpa using ⟨hitem _ _ ha, Ne.symm hcomma, ih⟩

/-- A list of names mentions no keyword. -/
theorem CommaList.names_not_mention {closing : Symbol} {names : List String} {k : Keyword}
    (h : CommaList IsName (.symbol closing) c names) : ¬ Mentions (.keyword k) c := by
  refine h.not_mentions ?_ nofun nofun
  rintro _ name ⟨line, rfl⟩
  simp

/-- The tokens that expressions are made of. -/
def inExpression : Token → Bool
  | .integer _ | .identifier _ => true
  | .symbol .semicolon | .symbol .colonEquals => false
  | .symbol _ => true
  | .keyword _ | .layout _ | .eof => false

/-- Expressions have no other tokens. -/
theorem IsExpr.not_mentions {token : Token} {t : Tier} {e : Expr} (h : IsExpr t c e)
    (htoken : inExpression token = false) : ¬ Mentions token c := by
  have hne : ∀ token', inExpression token' = true → token' ≠ token := by
    rintro token' htrue rfl
    exact Bool.false_ne_true (htoken.symm.trans htrue)
  induction h using IsExpr.induction with
  | number value line => simpa using hne _ rfl
  | name name line => simpa using hne _ rfl
  | group line line' _ ih => simpa using ⟨hne _ rfl, ih, hne _ rfl⟩
  | call name line line' _ ih =>
    have harguments := ih.not_mentions (fun c e ⟨_, h⟩ ↦ h) (hne _ rfl) (Ne.symm (hne _ rfl))
    simpa using ⟨hne _ rfl, hne _ rfl, harguments⟩
  | plain _ ih => exact ih
  | minus line _ ih => simpa using ⟨hne _ rfl, ih⟩
  | operand _ ih => exact ih
  | @operation _ op _ _ _ _ line _ _ _ ihleft ihright =>
    have hop : inExpression (.symbol op.symbol) = true := by cases op <;> rfl
    simpa using ⟨ihleft, hne _ hop, ihright⟩

/-- All tokens of an expression are such that may be in one. -/
theorem IsExpr.inExpression_of_mem {t : Tier} {e : Expr} (h : IsExpr t c e) {lexeme : Lexeme}
    (hmem : lexeme ∈ c) : inExpression lexeme.token = true :=
  Bool.of_not_eq_false fun hfalse ↦ h.not_mentions hfalse ⟨lexeme, hmem, rfl⟩

/-- Expressions have no keyword. -/
theorem IsExpr.not_mentions_keyword {t : Tier} {e : Expr} (h : IsExpr t c e) (k : Keyword) :
    ¬ Mentions (.keyword k) c :=
  h.not_mentions rfl

/-- A block mentions what one of its statements does, or a semicolon. -/
theorem Sequence.not_mentions {rule : ReadRule} {item : List Lexeme → Statement → Prop}
    {token : Token} {block : Block} (h : Sequence rule item c block)
    (hitem : ∀ c s, item c s → ¬ Mentions token c) (htoken : token ≠ .symbol .semicolon) :
    ¬ Mentions token c := by
  induction h with
  | last hs hsemicolon =>
    simpa using ⟨hitem _ _ hs, hsemicolon.not_mentions (Ne.symm htoken)⟩
  | cons hs hsemicolon _ _ ih =>
    simpa using ⟨hitem _ _ hs, hsemicolon.not_mentions (Ne.symm htoken), ih⟩

/-- No statement has the keyword of a `var` section. -/
theorem IsStatement.not_mentions_var {rule : ReadRule} {s : Statement}
    (h : IsStatement rule c s) : ¬ Mentions (.keyword .varKw) c := by
  induction h using IsStatement.induction with
  | display line he => simpa using he.not_mentions_keyword .varKw
  | displayRead name line line' line'' he => simpa using he.not_mentions_keyword .varKw
  | read name line line' => simp
  | assign name line line' hkeyword hsign he =>
    simpa using ⟨hkeyword.not_mentions nofun, he.not_mentions_keyword .varKw⟩
  | branch line line' line'' he _ ih =>
    simpa using ⟨he.not_mentions_keyword .varKw, ih.not_mentions (fun _ _ ⟨_, h⟩ ↦ h) nofun⟩
  | branchElse line line₁ line₂ line₃ he _ _ ih ih' =>
    simpa using ⟨he.not_mentions_keyword .varKw, ih.not_mentions (fun _ _ ⟨_, h⟩ ↦ h) nofun,
      ih'.not_mentions (fun _ _ ⟨_, h⟩ ↦ h) nofun⟩
  | loop line line' line'' he _ ih =>
    simpa using ⟨he.not_mentions_keyword .varKw, ih.not_mentions (fun _ _ ⟨_, h⟩ ↦ h) nofun⟩

/-! ### Declarations -/

/-- A `var` section that names at least one variable, or none at all. -/
inductive NamesLocals : List Lexeme → List String → Prop
  | none : NamesLocals [] []
  | some {c : List Lexeme} {names : List String} (line : Nat) :
    Items IsName (.symbol .semicolon) c names → NamesLocals (⟨.keyword .varKw, line⟩ :: c) names

/-- The production for declarations. -/
inductive IsDeclaration : List Lexeme → Procedure → Prop
  | intro {c₁ c₂ c₃ semicolon : List Lexeme} {params locals : List String} {block : Block}
    (name : String) (line line₁ line₂ line₃ : Nat) :
    CommaList IsName (.symbol .rightParen) c₁ params → NamesLocals c₂ locals →
      Sequence .free (IsStatement .free) c₃ block → Optional (.symbol .semicolon) semicolon →
        IsDeclaration
          (⟨.keyword .procedureKw, line⟩ :: ⟨.identifier name, line₁⟩ ::
            ⟨.symbol .leftParen, line₂⟩ ::
              (c₁ ++ (c₂ ++ (c₃ ++ ⟨.keyword .endKw, line₃⟩ :: semicolon))))
          ⟨name, params, locals, block, line⟩

theorem Items.values_ne_nil {item : List Lexeme → α → Prop} {closing : Token} {as : List α}
    (h : Items item closing c as) : as ≠ [] := by
  cases h <;> exact List.cons_ne_nil _ _

/-- Without a section there is no `var`. -/
theorem not_mentions_var_of_no_section {c₁ c₂ semicolon : List Lexeme} {params : List String}
    {block : Block} {line line₁ line₂ line₃ : Nat} {name : String}
    (hparams : CommaList IsName (.symbol .rightParen) c₁ params)
    (hbody : Sequence .free (IsStatement .free) c₂ block)
    (hsemicolon : Optional (.symbol .semicolon) semicolon) :
    ¬ Mentions (.keyword .varKw)
      (⟨.keyword .procedureKw, line⟩ :: ⟨.identifier name, line₁⟩ :: ⟨.symbol .leftParen, line₂⟩ ::
        (c₁ ++ ([] ++ (c₂ ++ ⟨.keyword .endKw, line₃⟩ :: semicolon)))) := by
  have hblock := hbody.not_mentions (fun _ _ hs ↦ hs.not_mentions_var) nofun
  have hlast : ¬ Mentions (.keyword .varKw) semicolon := hsemicolon.not_mentions nofun
  simpa using ⟨hparams.names_not_mention, hblock, hlast⟩

section Sections

variable {p : Procedure} (h : IsProcedure .free c p)
include h

/-- Local variables are named in a section. -/
theorem IsProcedure.mentions_var (hlocals : p.locals ≠ []) : Mentions (.keyword .varKw) c := by
  cases h with
  | intro name line line₁ line₂ line₃ _ hsection _ _ =>
    cases hsection with
    | none => exact absurd rfl hlocals
    | some line hnames => simp

/-- A section without local variables is empty. -/
theorem IsProcedure.empty_section (hlocals : p.locals = [])
    (hvar : Mentions (.keyword .varKw) c) :
    ∃ front line line' back,
      c = front ++ ⟨.keyword .varKw, line⟩ :: ⟨.symbol .semicolon, line'⟩ :: back := by
  cases h with
  | @intro c₁ c₂ c₃ semicolon params locals block name line line₁ line₂ line₃ hparams hsection hbody
      hsemicolon =>
    cases hsection with
    | none => exact absurd hvar (not_mentions_var_of_no_section hparams hbody hsemicolon)
    | some line' hnames =>
      cases hnames with
      | empty line'' =>
        exact ⟨⟨.keyword .procedureKw, line⟩ :: ⟨.identifier name, line₁⟩ ::
          ⟨.symbol .leftParen, line₂⟩ :: c₁, line', line'',
          c₃ ++ ⟨.keyword .endKw, line₃⟩ :: semicolon, by simp⟩
      | filled hnames => exact absurd hlocals hnames.values_ne_nil

/-- A procedure is derived by the production if a section, where there is one, names some variable.
-/
theorem IsProcedure.isDeclaration
    (hnamed : Mentions (.keyword .varKw) c → p.locals ≠ []) : IsDeclaration c p := by
  cases h with
  | intro name line line₁ line₂ line₃ hparams hsection hbody hsemicolon =>
    refine .intro name line line₁ line₂ line₃ hparams ?_ hbody hsemicolon
    cases hsection with
    | none => exact .none
    | some line hnames =>
      cases hnames with
      | empty line' => exact absurd rfl (hnamed (by simp))
      | filled hnames => exact .some line hnames

end Sections

/-- In what the production derives, a section names some variable. -/
theorem IsDeclaration.locals_ne_nil {p : Procedure} (h : IsDeclaration c p)
    (hvar : Mentions (.keyword .varKw) c) : p.locals ≠ [] := by
  cases h with
  | intro name line line₁ line₂ line₃ hparams hsection hbody hsemicolon =>
    cases hsection with
    | none => exact absurd hvar (not_mentions_var_of_no_section hparams hbody hsemicolon)
    | some line hnames => exact hnames.values_ne_nil

end Grammar

namespace Parser

open Grammar

/-- What is accepted as a procedure is a procedure. -/
theorem isProcedure_of_parse {ts rest : List Lexeme} {p : Procedure}
    (h : parse procedure ts = .ok (p, rest)) : ∃ c, ts = c ++ rest ∧ IsProcedure .free c p := by
  obtain ⟨j, hok⟩ := parse_eq_ok_iff.1 h
  have hexplained := (procedure_recognises (Nat.le_refl ts.length)).explained ts .silent
    (Nat.le_refl ts.length)
  rw [hok] at hexplained
  obtain ⟨c, hts, hp, -⟩ := hexplained
  exact ⟨c, hts, hp⟩

/-! ### Distinct names -/

/-- The check passes if it finds no repetition. -/
theorem checkDistinct_eq_ok {name : String} {names : List String} {line : Nat} {c c' : Cursor}
    {a : Unit} (h : checkDistinct name names line c = .ok a c') :
    firstRepeated? [name] names = none := by
  cases hrepeated : firstRepeated? [name] names with
  | none => rfl
  | some _ =>
    rw [checkDistinct, hrepeated] at h
    cases h

/-- What is accepted as a procedure binds no name twice. -/
theorem nodup_of_procedure {levels : Nat} {c c' : Cursor} {p : Procedure}
    (h : procedure levels c = .ok p c') : p.boundNames.Nodup := by
  rw [procedure_eq] at h
  obtain ⟨line, _, -, h⟩ := exists_of_bind_eq_ok h
  cases levels with
  | zero => cases h
  | succ levels =>
    obtain ⟨name, _, -, h⟩ := exists_of_bind_eq_ok h
    obtain ⟨_, _, -, h⟩ := exists_of_bind_eq_ok h
    obtain ⟨params, _, -, h⟩ := exists_of_bind_eq_ok h
    obtain ⟨locals, _, -, h⟩ := exists_of_bind_eq_ok h
    obtain ⟨_, _, hdistinct, h⟩ := exists_of_bind_eq_ok h
    -- the names are checked before the body is read, and nothing behind it changes them
    obtain ⟨block, _, -, h⟩ := exists_of_bind_eq_ok h
    obtain ⟨_, _, -, h⟩ := exists_of_bind_eq_ok h
    obtain ⟨_, _, -, h⟩ := exists_of_bind_eq_ok h
    obtain ⟨_, _, -, h⟩ := exists_of_bind_eq_ok h
    cases h
    exact (firstRepeated?_boundNames _).1 (checkDistinct_eq_ok hdistinct)

/-- The procedure is what parsing a declaration has given, from some tokens and with some number of
levels to open. -/
def IsParsed (p : Procedure) : Prop :=
  ∃ levels c c', procedure levels c = .ok p c'

/-- A procedure that has been parsed binds distinct names. -/
theorem IsParsed.nodup {p : Procedure} (h : IsParsed p) : p.boundNames.Nodup := by
  obtain ⟨levels, c, c', h⟩ := h
  exact nodup_of_procedure h

theorem isParsed_of_moreProcedures {levels bound : Nat} {c c' : Cursor} {ps : List Procedure}
    (h : moreProcedures (procedure levels) bound c = .ok ps c') : ∀ p ∈ ps, IsParsed p := by
  induction bound generalizing c c' ps with
  | zero =>
    cases h
    simp
  | succ bound ih =>
    obtain ⟨next?, c₁, -, h⟩ := exists_of_bind_eq_ok h
    cases next? with
    | none =>
      cases h
      simp
    | some next =>
      dsimp only at h
      split at h
      · obtain ⟨first, c₂, hfirst, h⟩ := exists_of_bind_eq_ok h
        obtain ⟨others, c₃, hothers, h⟩ := exists_of_bind_eq_ok h
        cases h
        exact List.forall_mem_cons.2 ⟨⟨levels, c₁, c₂, hfirst⟩, ih hothers⟩
      · cases h
        simp

/-- The procedures of an accepted program are parsed as declarations. -/
theorem isParsed_of_program {ts rest : List Lexeme} {p : Program}
    (h : parse program ts = .ok (p, rest)) : ∀ q ∈ p.procedures, IsParsed q := by
  obtain ⟨j, hok⟩ := parse_eq_ok_iff.1 (parse_program_eq_ok_iff.1 h).2
  obtain ⟨ps, c, hps, hok⟩ := exists_of_bind_eq_ok hok
  obtain ⟨block, c₁, -, hok⟩ := exists_of_bind_eq_ok hok
  obtain ⟨last?, c₂, -, hok⟩ := exists_of_bind_eq_ok hok
  obtain ⟨_, _, -, hps⟩ := exists_of_bind_eq_ok hps
  cases last? with
  | none => cases hok
  | some last =>
    dsimp only at hok
    split at hok
    · cases hok
      exact isParsed_of_moreProcedures hps
    · cases hok

/-! ### Accepted declarations -/

/-- **Accepted declarations name their local variables, if they name any.** What the parser consumes
is a declaration with the name, parameters, local variables and body that it returns. It is derived
by the production just if a `var` section is there only where there are local variables. Otherwise
there are none, and the section is the keyword with a semicolon directly behind it. -/
theorem declared_iff_locals_named {ts rest : List Lexeme} {p : Procedure}
    (h : parse procedure ts = .ok (p, rest)) :
    ∃ c, ts = c ++ rest ∧ IsProcedure .free c p ∧
      (p.locals ≠ [] → Mentions (.keyword .varKw) c) ∧
      (IsDeclaration c p ↔ (Mentions (.keyword .varKw) c → p.locals ≠ [])) ∧
      (¬ IsDeclaration c p → p.locals = [] ∧ ∃ front line line' back,
        c = front ++ ⟨.keyword .varKw, line⟩ :: ⟨.symbol .semicolon, line'⟩ :: back) := by
  obtain ⟨c, hts, hp⟩ := isProcedure_of_parse h
  refine ⟨c, hts, hp, hp.mentions_var, ⟨fun hd ↦ hd.locals_ne_nil, hp.isDeclaration⟩, fun hd ↦ ?_⟩
  obtain ⟨hvar, hlocals⟩ := Classical.not_imp.1 (mt hp.isDeclaration hd)
  have hlocals : p.locals = [] := Classical.not_not.1 hlocals
  exact ⟨hlocals, hp.empty_section hlocals hvar⟩

/-- Two parameters and a local variable, on lines of their own. -/
theorem declared_iff_locals_named_one :
    let c : List Lexeme :=
      [⟨.keyword .procedureKw, 1⟩, ⟨.identifier "f", 1⟩, ⟨.symbol .leftParen, 1⟩,
        ⟨.identifier "a", 1⟩, ⟨.symbol .comma, 1⟩, ⟨.identifier "b", 2⟩, ⟨.symbol .rightParen, 2⟩,
        ⟨.keyword .varKw, 3⟩, ⟨.identifier "x", 3⟩, ⟨.symbol .semicolon, 3⟩, ⟨.keyword .readKw, 4⟩,
        ⟨.identifier "x", 4⟩, ⟨.keyword .endKw, 5⟩]
    let p : Procedure := ⟨"f", ["a", "b"], ["x"], [.read ⟨"x", 4⟩], 1⟩
    parse procedure (c ++ [⟨.eof, 5⟩]) = .ok (p, [⟨.eof, 5⟩]) ∧ IsDeclaration c p := by
  intro c p
  have haccepted : parse procedure (c ++ [⟨.eof, 5⟩]) = .ok (p, [⟨.eof, 5⟩]) := rfl
  obtain ⟨c', hc', -, -, hdeclared, -⟩ := declared_iff_locals_named haccepted
  obtain rfl := List.append_cancel_right hc'
  exact ⟨haccepted, hdeclared.2 fun _ ↦ List.cons_ne_nil _ _⟩

/-- A section without names is accepted, and the production does not derive it. -/
theorem accepts_without_locals :
    let c : List Lexeme :=
      [⟨.keyword .procedureKw, 1⟩, ⟨.identifier "f", 1⟩, ⟨.symbol .leftParen, 1⟩,
        ⟨.symbol .rightParen, 1⟩, ⟨.keyword .varKw, 1⟩, ⟨.symbol .semicolon, 1⟩,
        ⟨.identifier "f", 1⟩, ⟨.symbol .colonEquals, 1⟩, ⟨.integer .one, 1⟩, ⟨.keyword .endKw, 1⟩]
    let p : Procedure := ⟨"f", [], [], [.assign "f" (.number .one) 1], 1⟩
    parse procedure (c ++ [⟨.eof, 1⟩]) = .ok (p, [⟨.eof, 1⟩]) ∧ p.locals = [] ∧
      Mentions (.keyword .varKw) c ∧
        ¬ ∃ c', c ++ [⟨.eof, 1⟩] = c' ++ [⟨.eof, 1⟩] ∧ IsDeclaration c' p := by
  intro c p
  have hvar : Mentions (.keyword .varKw) c := ⟨⟨.keyword .varKw, 1⟩, by simp [c], rfl⟩
  refine ⟨rfl, rfl, hvar, ?_⟩
  rintro ⟨c', hc', hd⟩
  obtain rfl := List.append_cancel_right hc'
  exact hd.locals_ne_nil hvar rfl

end Parser

end TinyProc
