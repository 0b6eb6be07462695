import TinyProc.Proofs.Syntax.RoundTrip

/-!
# What programs are put together from

Everything that is derived outside of expressions is put together in three ways: from tokens that
neither open nor close a level, by writing one list behind another, and by a token that opens a
level, a list, and the token that closes what has been opened. A relation between lists and the
expressions in them that follows these three ways is `Compositional`. If it holds of expressions it
holds of programs (`IsProgram.compose`).
-/

namespace TinyProc

open Grammar

/-! ### The expressions of a program -/

mutual

/-- The expressions that a statement holds. -/
def Statement.expressions : Statement → List Expr
  | .assign _ value _ => [value]
  | .display value _ _ => [value]
  | .read _ => []
  | .branch condition thenBlock elseBlock _ =>
    condition :: (Statement.expressionsAll thenBlock ++ Statement.expressionsElse elseBlock)
  | .loop condition body _ => condition :: Statement.expressionsAll body

/-- The expressions of a block. -/
def Statement.expressionsAll : List Statement → List Expr
  | [] => []
  | s :: rest => s.expressions ++ Statement.expressionsAll rest

/-- The expressions of a block that may be missing. -/
def Statement.expressionsElse : Option (List Statement) → List Expr
  | none => []
  | some block => Statement.expressionsAll block

end

/-- The expressions of a program, those of its procedures included. -/
def Program.expressions (p : Program) : List Expr :=
  p.procedures.flatMap (Statement.expressionsAll ·.body) ++ Statement.expressionsAll p.statements

/-! ### Composition -/

/-- The token that closes what a token opens. -/
def Token.closing? : Token → Option Token
  | .symbol .leftParen => some (.symbol .rightParen)
  | .keyword .ifKw | .keyword .whileKw | .keyword .procedureKw => some (.keyword .endKw)
  | _ => none

/-- What can be closed opens a level. -/
theorem opensLevel_of_closing? {token closing : Token} (h : token.closing? = some closing) :
    token.opensLevel = true := by
  unfold Token.closing? at h
  split at h <;> first | rfl | cases h

/-- What closes a construct closes a level, whichever construct it is. -/
theorem closesLevel_of_closing? {token closing : Token} (h : token.closing? = some closing) :
    closing.closesLevel = true := by
  unfold Token.closing? at h
  split at h <;> cases h <;> rfl

/-- A relation between lists and the expressions in them that follows the ways in which lists are
put together. -/
structure Compositional (R : List Lexeme → List Expr → Prop) : Prop where
  /-- Tokens that neither open nor close a level. -/
  flat {c : List Lexeme} (hc : Flat c) : R c []
  /-- One list behind another. -/
  append {c d : List Lexeme} {es es' : List Expr} (hc : R c es) (hd : R d es') :
    R (c ++ d) (es ++ es')
  /-- A list between a token that opens a level and the one that closes it. -/
  bracket {a b : Lexeme} {c : List Lexeme} {es : List Expr}
    (hab : a.token.closing? = some b.token) (hc : R c es) : R (a :: (c ++ [b])) es

variable {R : List Lexeme → List Expr → Prop} {c : List Lexeme}

theorem Compositional.cons {a : Lexeme} {es : List Expr} (hR : Compositional R) (ha : Flat [a])
    (hc : R c es) : R (a :: c) es :=
  hR.append (hR.flat ha) hc

namespace Grammar

/-! ### Derived lists -/

/-- A list with commas is put together from the items and the token that closes it. -/
theorem CommaList.compose {α : Type} {item : List Lexeme → α → Prop} {closing : Token}
    {as : List α} (h : CommaList item closing c as) (hR : Compositional R) (exprs : α → List Expr)
    (hitem : ∀ c a, item c a → R c (exprs a)) :
    ∃ c₀ line, c = c₀ ++ [⟨closing, line⟩] ∧ R c₀ (as.flatMap exprs) := by
  cases h with
  | empty line => exact ⟨[], line, rfl, hR.flat flat_nil⟩
  | filled h =>
    induction h with
    | @last c a line ha =>
      refine ⟨c, line, rfl, ?_⟩
      rw [List.flatMap_singleton]
      exact hitem c a ha
    | @cons c c' a as line ha _ ih =>
      obtain ⟨c₀, line', rfl, hc₀⟩ := ih
      refine ⟨c ++ ⟨.symbol .comma, line⟩ :: c₀, line', by simp, ?_⟩
      rw [List.flatMap_cons]
      exact hR.append (hitem c a ha) (hR.cons (flat_singleton rfl rfl) hc₀)

/-- Names in a list hold no expression. -/
theorem CommaList.compose_names {closing : Token} {names : List String}
    (h : CommaList IsName closing c names) (hR : Compositional R) :
    ∃ c₀ line, c = c₀ ++ [⟨closing, line⟩] ∧ R c₀ [] := by
  have hname : ∀ c name, IsName c name → R c [] := by
    rintro _ name ⟨line, rfl⟩
    exact hR.flat (flat_singleton rfl rfl)
  obtain ⟨c₀, line, rfl, hc₀⟩ := h.compose hR (fun _ ↦ []) hname
  rw [List.flatMap_eq_nil_iff.2 fun _ _ ↦ rfl] at hc₀
  exact ⟨c₀, line, rfl, hc₀⟩

/-- A block, given that its statements are put together so. The semicolons between them are flat. -/
theorem Sequence.compose {rule : ReadRule} {item : List Lexeme → Statement → Prop} {block : Block}
    (h : Sequence rule item c block) (hR : Compositional R)
    (hitem : ∀ c s, item c s → R c s.expressions) : R c (Statement.expressionsAll block) := by
  have hflat : ∀ {semicolon}, Optional (.symbol .semicolon) semicolon → R semicolon [] :=
    fun hsemicolon ↦ hR.flat (flat_of_optional hsemicolon rfl rfl)
  induction h with
  | last hs hsemicolon => exact hR.append (hitem _ _ hs) (hflat hsemicolon)
  | cons hs hsemicolon _ _ ih =>
    exact hR.append (hitem _ _ hs) (hR.append (hflat hsemicolon) ih)

section Programs

variable {rule : ReadRule} (hR : Compositional R) (hexpr : ∀ c e, IsExpr .whole c e → R c [e])

include hR hexpr

/-- A statement, given that expressions are. Conditionals and loops are brackets with blocks inside.
-/
theorem IsStatement.compose {s : Statement} (h : IsStatement rule c s) : R c s.expressions := by
  induction h using IsStatement.induction with
  | display line he => exact hR.cons (flat_singleton rfl rfl) (hexpr _ _ he)
  | displayRead name line line' line'' he =>
    have hread : R [⟨.keyword .readKw, line'⟩, ⟨.identifier name, line''⟩] [] :=
      hR.cons (flat_singleton rfl rfl) (hR.flat (flat_singleton rfl rfl))
    exact hR.cons (flat_singleton rfl rfl) (hR.append (hexpr _ _ he) hread)
  | read name line line' =>
    exact hR.cons (flat_singleton rfl rfl) (hR.flat (flat_singleton rfl rfl))
  | @assign keyword c sign e name line line' hkeyword hsign he =>
    have hsign : Flat [⟨.symbol sign, line'⟩] := by
      obtain rfl | rfl := hsign <;> exact flat_singleton rfl rfl
    exact hR.append (hR.flat (flat_of_optional hkeyword rfl rfl))
      (hR.cons (flat_singleton rfl rfl) (hR.cons hsign (hexpr _ _ he)))
  | @branch c c' e block line line' line'' he _ ih =>
    have hblock := ih.compose hR fun c s ⟨_, ih⟩ ↦ ih
    have hinside : R (c ++ ⟨.keyword .thenKw, line'⟩ :: c') _ :=
      hR.append (hexpr _ _ he) (hR.cons (flat_singleton rfl rfl) hblock)
    simpa [Statement.expressions, Statement.expressionsElse] using
      hR.bracket (a := ⟨.keyword .ifKw, line⟩) (b := ⟨.keyword .endKw, line''⟩) rfl hinside
  | @branchElse c c' c'' e block block' line line₁ line₂ line₃ he _ _ ih ih' =>
    have hthen := ih.compose hR fun c s ⟨_, ih⟩ ↦ ih
    have helse := ih'.compose hR fun c s ⟨_, ih⟩ ↦ ih
    have hblocks : R (c' ++ ⟨.keyword .elseKw, line₂⟩ :: c'') _ :=
      hR.append hthen (hR.cons (flat_singleton rfl rfl) helse)
    have hinside : R (c ++ ⟨.keyword .thenKw, line₁⟩ ::
        (c' ++ ⟨.keyword .elseKw, line₂⟩ :: c'')) _ :=
      hR.append (hexpr _ _ he) (hR.cons (flat_singleton rfl rfl) hblocks)
    simpa [Statement.expressions, Statement.expressionsElse] using
      hR.bracket (a := ⟨.keyword .ifKw, line⟩) (b := ⟨.keyword .endKw, line₃⟩) rfl hinside
  | @loop c c' e block line line' line'' he _ ih =>
    have hblock := ih.compose hR fun c s ⟨_, ih⟩ ↦ ih
    have hinside : R (c ++ ⟨.keyword .doKw, line'⟩ :: c') _ :=
      hR.append (hexpr _ _ he) (hR.cons (flat_singleton rfl rfl) hblock)
    simpa [Statement.expressions] using
      hR.bracket (a := ⟨.keyword .whileKw, line⟩) (b := ⟨.keyword .endKw, line''⟩) rfl hinside

omit hexpr in
/-- Local variables hold no expression, and their list is flat. -/
theorem IsLocals.compose {names : List String} (h : IsLocals c names) : R c [] := by
  cases h with
  | none => exact hR.flat flat_nil
  | some line h =>
    obtain ⟨c₀, line', rfl, hc₀⟩ := h.compose_names hR
    exact hR.cons (flat_singleton rfl rfl) (hR.append hc₀ (hR.flat (flat_singleton rfl rfl)))

/-- A procedure is a bracket that has another one inside, the parentheses around its parameters. -/
theorem IsProcedure.compose {p : Procedure} (h : IsProcedure rule c p) :
    R c (Statement.expressionsAll p.body) := by
  cases h with
  | @intro c₁ c₂ c₃ semicolon params locals block name line line₁ line₂ line₃ hparams hlocals hbody
      hsemicolon =>
    obtain ⟨c₀, line', rfl, hc₀⟩ := hparams.compose_names hR
    have hlist : R (⟨.symbol .leftParen, line₂⟩ :: (c₀ ++ [⟨.symbol .rightParen, line'⟩])) [] :=
      hR.bracket rfl hc₀
    have hblock : R c₃ (Statement.expressionsAll block) :=
      hbody.compose hR fun _ _ hs ↦ hs.compose hR hexpr
    have hinside : R (⟨.identifier name, line₁⟩ :: _) _ :=
      hR.cons (flat_singleton rfl rfl) (hR.append hlist (hR.append (hlocals.compose hR) hblock))
    have houter : R
        (⟨.keyword .procedureKw, line⟩ :: (_ ++ [⟨.keyword .endKw, line₃⟩]) ++ semicolon) _ :=
      hR.append (hR.bracket rfl hinside) (hR.flat (flat_of_optional hsemicolon rfl rfl))
    simpa using houter

/-- Procedures one behind the other. -/
theorem IsProcedures.compose {ps : List Procedure} (h : IsProcedures rule c ps) :
    R c (ps.flatMap (Statement.expressionsAll ·.body)) := by
  induction h with
  | nil => exact hR.flat flat_nil
  | cons hp _ ih => exact hR.append (hp.compose hR hexpr) ih

/-- A compositional relation that holds of expressions holds of programs. -/
theorem IsProgram.compose {p : Program} (h : IsProgram rule c p) : R c p.expressions := by
  cases h with
  | intro hprocedures hstatements =>
    exact hR.append (hprocedures.compose hR hexpr)
      (hstatements.compose hR fun _ _ hs ↦ hs.compose hR hexpr)

end Programs

end Grammar

end TinyProc
