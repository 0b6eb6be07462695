import TinyProc.Proofs.Syntax.Recognition.Expression

/-!
# Statements and blocks are recognised

The language is the one that leaves it open what a `read` behind a display belongs to. Of a parser
that looks whether there is a `read` it can only be said that it takes one or none; that it takes
one wherever there is one is said when it is shown that nothing is lost by that.
-/

namespace TinyProc.Parser

open Grammar

variable {n : Nat} {expression expression' : Parser Expr}

/-! ### Simple statements -/

/-- An assignment without its keyword: with the keyword or without it, it is a statement. -/
def IsAssignment (c : List Lexeme) (s : Statement) : Prop :=
  ∀ keyword, Optional (.keyword .assignKw) keyword → IsStatement .free (keyword ++ c) s

/-- The variable to be read is a name. Its line is that of the keyword, which has been taken before.
-/
theorem readTarget_recognises (line : Nat) :
    Recognises n (fun c target ↦ IsName c target.name ∧ target.line = line) (readTarget line)
      (fun _ ↦ readTarget line) := by
  refine (identifier_recognises.andThen fun name ↦ .pure (ReadTarget.mk name line)).imp ?_
  rintro c target ⟨c₁, name, c₂, rfl, hname, rfl, rfl⟩
  rw [List.append_nil]
  exact ⟨hname, rfl⟩

/-- A read that is taken or left, with what is returned. -/
def TakenRead (c : List Lexeme) : Option ReadTarget → Prop
  | none => c = []
  | some target => ∃ line, c = [⟨.keyword .readKw, target.line⟩, ⟨.identifier target.name, line⟩]

/-- Nothing or a whole `read` is taken behind a display. -/
theorem attachedRead?_recognises :
    Recognises n TakenRead attachedRead? (fun _ ↦ attachedRead?) := by
  refine .imp (take?_andThen_recognises (.pure none) fun line ↦
    (readTarget_recognises line).andThen fun target ↦ .pure (some target)) ?_
  rintro c target? (⟨rfl, rfl⟩ | ⟨_, _, rfl, _, target, _, rfl, ⟨⟨line', rfl⟩, rfl⟩, rfl, rfl⟩)
  · rfl
  · exact ⟨line', rfl⟩

/-- In the grammar that leaves reads open there are two rules for a display, and which of them
applies is what the parser of the read has decided. -/
theorem display_recognises
    (hexpr : ∀ n, Recognises n (IsExpr .whole) expression (fun _ ↦ expression')) (line : Nat) :
    Recognises n (fun c ↦ IsStatement .free (⟨.keyword .displayKw, line⟩ :: c))
      (display expression line) (fun _ ↦ display expression' line) := by
  refine ((hexpr n).andThen fun value ↦ attachedRead?_recognises.andThen fun attached ↦
    .pure (Statement.display value attached line)).imp ?_
  rintro c s ⟨c₁, value, c₂, rfl, hvalue, c₃, attached, c₄, rfl, hread, rfl, rfl⟩
  rw [List.append_nil]
  cases attached with
  | none =>
    obtain rfl : c₃ = [] := hread
    rw [List.append_nil]
    exact .display line hvalue
  | some target =>
    obtain ⟨line', rfl⟩ := hread
    exact .displayRead target.name line target.line line' hvalue

/-- One of the two signs is taken, and anything else is reported in its place. -/
theorem assignmentSign_recognises (line : Nat) :
    Recognises n
      (fun c _ ↦ ∃ sign line', (sign = .colonEquals ∨ sign = .equals) ∧ c = [⟨.symbol sign, line'⟩])
      (assignmentSign line) (fun _ ↦ assignmentSign line) := by
  refine .of_head ⟨_, (), .equals, 0, .inr rfl, rfl⟩ (fun _ ↦ ⟨_, (), .equals, 0, .inr rfl, rfl⟩)
    fun ⟨token, line'⟩ ts j _ ↦ ?_
  rw [assignmentSign_cons]
  split
  · rename_i hsign
    obtain ⟨sign, hor, rfl⟩ :
        ∃ sign, (sign = .colonEquals ∨ sign = .equals) ∧ token = .symbol sign := by
      rcases hsign with h | h
      · exact ⟨_, .inl rfl, h⟩
      · exact ⟨_, .inr rfl, h⟩
    refine .token ⟨sign, line', hor, rfl⟩ fun _ ts' ↦ ?_
    rw [assignmentSign_cons, if_pos hsign]
  · rename_i hsign
    refine .failAt ⟨_, (), .equals, 0, .inr rfl, rfl⟩ fun _ ts' ↦ ⟨⟨ts', j⟩, ?_⟩
    rw [assignmentSign_cons, if_neg hsign]

/-- The keyword of an assignment makes no difference to what comes behind it, so that this parser
serves with the keyword and without it. -/
theorem assignment_recognises
    (hexpr : ∀ n, Recognises n (IsExpr .whole) expression (fun _ ↦ expression')) :
    Recognises n IsAssignment (assignment expression) (fun _ ↦ assignment expression') := by
  -- the language is not empty: the errors of the parser say that something is missing from it
  have hproductive : ∃ c s, IsAssignment c s :=
    ⟨_, _, fun _ h ↦ .assign "" 0 0 h (.inr rfl) (.wholeNumber .zero 0)⟩
  refine .of_head hproductive (fun _ ↦ hproductive) fun ⟨token, line⟩ ts j _ ↦ ?_
  cases token with
  | identifier name =>
    have hrest := ((assignmentSign_recognises line).andThen fun _ ↦
      (hexpr ts.length).andThen fun value ↦
        .pure (Statement.assign name value line)).explained ts j (Nat.le_refl ts.length)
    refine (hrest.imp ?_).shift fun _ _ ↦ rfl
    rintro c s ⟨c₁, -, c₂, rfl, ⟨sign, line', hsign, rfl⟩, c₃, value, c₄, rfl, hvalue, rfl, rfl⟩
    rw [List.append_nil]
    exact fun keyword hkeyword ↦ .assign name line line' hkeyword hsign hvalue
  | integer _ | keyword _ | symbol _ | layout _ | eof =>
    exact .failAt hproductive fun _ ts' ↦ ⟨⟨ts', j⟩, rfl⟩

/-! ### Blocks -/

/-- A statement and the semicolon behind it, if there is one. -/
def IsLine (c : List Lexeme) (s : Statement) : Prop :=
  ∃ c' semicolon, c = c' ++ semicolon ∧ IsStatement .free c' s ∧
    Optional (.symbol .semicolon) semicolon

/-- A block. -/
abbrev IsBlock : List Lexeme → Block → Prop :=
  Sequence .free (IsStatement .free)

/-- Statements up to the end of a block, possibly none. -/
def IsTail (c : List Lexeme) (block : Block) : Prop :=
  c = [] ∧ block = [] ∨ IsBlock c block

/-- A statement and what follows it in a block are a block. -/
theorem isBlock_of_isTail {c c' : List Lexeme} {s : Statement} {block : Block} (hs : IsLine c s)
    (h : IsTail c' block) : IsBlock (c ++ c') (s :: block) := by
  obtain ⟨c, semicolon, rfl, hs, hsemicolon⟩ := hs
  rcases h with ⟨rfl, rfl⟩ | h
  · rw [List.append_nil]
    exact .last hs hsemicolon
  · rw [List.append_assoc]
    exact .cons hs hsemicolon trivial h

/-- Every statement takes a token from the bound of the loop. -/
theorem isLine_pos {c : List Lexeme} {s : Statement} (h : IsLine c s) : 1 ≤ c.length := by
  obtain ⟨c, semicolon, rfl, hs, -⟩ := h
  have hpos := List.length_pos_iff.2 hs.ne_nil
  rw [List.length_append]
  omega

section Blocks

variable {stmt stmt' : Parser Statement}

/-- A first statement and others. What is known of the others is needed for streams that are shorter
by one token, which the statement has taken. -/
theorem statementThen_recognises {more : Parser Block} (more' : Nat → Parser Block)
    (hstmt : ∀ n, Recognises n IsLine stmt (fun _ ↦ stmt'))
    (hmore : Recognises (n - 1) IsTail more (fun m ↦ more' (m + 1))) :
    Recognises n IsBlock (statementThen stmt more) (fun m ↦ statementThen stmt' (more' m)) := by
  refine ((hstmt n).bind (k := fun _ ↦ 1) (fun _ _ h ↦ isLine_pos h) fun first ↦
    hmore.andThen fun others ↦ .pure (first :: others)).imp ?_
  rintro c block ⟨c₁, s, c₂, rfl, hs, c₃, others, c₄, rfl, hothers, rfl, rfl⟩
  rw [List.append_nil]
  exact isBlock_of_isTail hs hothers

/-- **The loop over statements**, by induction on its bound. It stops at any token that ends blocks,
whatever has opened the block. -/
theorem moreStatements_recognises (hstmt : ∀ n, Recognises n IsLine stmt (fun _ ↦ stmt'))
    (bound : Nat) (hn : n ≤ bound) :
    Recognises n IsTail (moreStatements stmt bound) (moreStatements stmt') := by
  have hproductive : ∃ c block, IsTail c block := ⟨[], [], .inl ⟨rfl, rfl⟩⟩
  induction bound generalizing n with
  | zero => exact .of_head hproductive (fun _ ↦ hproductive) fun _ _ _ hts ↦ by omega
  | succ bound ih =>
    refine .of_head hproductive (fun _ ↦ hproductive) fun t ts j hts ↦ ?_
    rw [moreStatements_cons]
    split
    · rename_i hends
      refine .nothing_cons (.inl ⟨rfl, rfl⟩) fun m ts' ↦ ?_
      rw [moreStatements_cons, if_pos hends]
    · -- another statement takes a token at least, so the bound goes down by one
      rename_i hends
      have hrest := (statementThen_recognises (fun m ↦ moreStatements stmt' (m - 1)) hstmt
        (ih (n := n - 1) (by omega))).explained (t :: ts) j hts
      refine (hrest.imp fun _ _ ↦ .inr).congr_cons fun m ts' ↦ ?_
      rw [moreStatements_cons, if_neg hends]
      rfl

/-- A block is the same loop with the first statement made compulsory. -/
theorem block_recognises (hstmt : ∀ n, Recognises n IsLine stmt (fun _ ↦ stmt')) :
    Recognises n IsBlock (block stmt) (fun _ ↦ block stmt') := by
  have hmore : Recognises (n - 1) IsTail (do moreStatements stmt (← remaining))
      (fun _ ↦ do moreStatements stmt' (← remaining)) :=
    .remaining fun m ↦ moreStatements_recognises hstmt m (Nat.le_refl m)
  have hblock :=
    statementThen_recognises (fun _ ↦ do moreStatements stmt' (← remaining)) hstmt hmore
  refine .of_head hblock.productive (fun _ ↦ hblock.productive) fun t ts j hts ↦ ?_
  rw [block_cons]
  split
  · rename_i hends
    refine .failAt hblock.productive fun _ ts' ↦ ⟨⟨t :: ts', j⟩, ?_⟩
    rw [block_cons, if_pos hends]
  · rename_i hends
    refine (hblock.explained (t :: ts) j hts).congr_cons fun m ts' ↦ ?_
    rw [block_cons, if_neg hends]

end Blocks

/-! ### Statements that hold blocks -/

/-- The parsers of what a conditional or a loop holds recognise their languages. -/
structure RecognisesInterior (interior interior' : Interior) : Prop where
  /-- The condition is an expression. -/
  condition : ∀ n, Recognises n (IsExpr .whole) interior.condition (fun _ ↦ interior'.condition)
  /-- The block is a block. -/
  block : ∀ n, Recognises n IsBlock interior.block (fun _ ↦ interior'.block)

section Interiors

variable {interior interior' : Interior}

/-- An `else` with its block that is taken or left, with what is returned. -/
def TakenElse (c : List Lexeme) : Option Block → Prop
  | none => c = []
  | some block => ∃ line c', c = ⟨.keyword .elseKw, line⟩ :: c' ∧ IsBlock c' block

/-- Nothing or an `else` with its block is taken. -/
theorem elseBlock?_recognises (h : RecognisesInterior interior interior') :
    Recognises n TakenElse (elseBlock? interior) (fun _ ↦ elseBlock? interior') := by
  refine .imp (take?_andThen_recognises (.pure none) fun _ ↦
    (h.block n).andThen fun block ↦ .pure (some block)) ?_
  rintro c block? (⟨rfl, rfl⟩ | ⟨line, _, rfl, c', block, _, rfl, hblock, rfl, rfl⟩)
  · rfl
  · rw [List.append_nil]
    exact ⟨line, c', rfl, hblock⟩

/-- A conditional behind its keyword; the grammar has one rule with a second block and one without.
-/
theorem branch_recognises (h : RecognisesInterior interior interior') (line : Nat) :
    Recognises n (fun c ↦ IsStatement .free (⟨.keyword .ifKw, line⟩ :: c)) (branch interior line)
      (fun _ ↦ branch interior' line) := by
  refine ((h.condition n).andThen fun condition ↦
    (expect_recognises (.keyword .thenKw)).andThen fun _ ↦
      (h.block n).andThen fun thenBlock ↦
        (elseBlock?_recognises h).andThen fun elseBlock ↦
          (expect_recognises (.keyword .endKw)).andThen fun _ ↦
            .pure (Statement.branch condition thenBlock elseBlock line)).imp ?_
  rintro c s ⟨c₁, condition, _, rfl, hcondition, _, line₁, _, rfl, rfl, c₂, thenBlock, _, rfl,
    hthen, c₃, elseBlock, _, rfl, helse, _, line₂, _, rfl, rfl, rfl, rfl⟩
  cases elseBlock with
  | none =>
    obtain rfl : c₃ = [] := helse
    exact .branch line line₁ line₂ hcondition hthen
  | some block =>
    obtain ⟨line₃, c₄, rfl, hblock⟩ := helse
    exact .branchElse line line₁ line₃ line₂ hcondition hthen hblock

/-- A loop behind its keyword. -/
theorem loop_recognises (h : RecognisesInterior interior interior') (line : Nat) :
    Recognises n (fun c ↦ IsStatement .free (⟨.keyword .whileKw, line⟩ :: c)) (loop interior line)
      (fun _ ↦ loop interior' line) := by
  refine ((h.condition n).andThen fun condition ↦
    (expect_recognises (.keyword .doKw)).andThen fun _ ↦
      (h.block n).andThen fun body ↦
        (expect_recognises (.keyword .endKw)).andThen fun _ ↦
          .pure (Statement.loop condition body line)).imp ?_
  rintro c s ⟨c₁, condition, _, rfl, hcondition, _, line₁, _, rfl, rfl, c₂, body, _, rfl, hbody,
    _, line₂, _, rfl, rfl, rfl, rfl⟩
  exact .loop line line₁ line₂ hcondition hbody

end Interiors

/-- What a conditional or a loop holds is recognised, if a level is left for it. -/
def RecognisesInterior? : (interior? interior'? : Option Interior) → Prop
  | none, _ => True
  | some interior, some interior' => RecognisesInterior interior interior'
  | some _, none => False

section Whole

variable {interior? interior'? : Option Interior}

/-- **Every kind of statement is told by its first token.** The two kinds that hold blocks are
recognised where a level is left for them. -/
theorem bareStatement_recognises
    (hexpr : ∀ n, Recognises n (IsExpr .whole) expression (fun _ ↦ expression'))
    (hinterior : RecognisesInterior? interior? interior'?) :
    Recognises n (IsStatement .free) (bareStatement expression interior?)
      (fun _ ↦ bareStatement expression' interior'?) := by
  have hproductive : ∃ c s, IsStatement .free c s := ⟨_, _, .read "" 0 0⟩
  refine .of_head hproductive (fun _ ↦ hproductive) fun ⟨token, line⟩ ts j hts ↦ ?_
  cases token with
  | keyword keyword =>
    cases keyword with
    | displayKw =>
      have hrest := (display_recognises hexpr line).explained ts j (Nat.le_refl ts.length)
      exact hrest.shift fun _ _ ↦ rfl
    | readKw =>
      have hrest := ((readTarget_recognises line).andThen fun target ↦
        .pure (Statement.read target)).explained ts j (Nat.le_refl ts.length)
      refine (hrest.imp ?_).shift fun _ _ ↦ rfl
      rintro c s ⟨c₁, target, c₂, rfl, ⟨⟨line', rfl⟩, rfl⟩, rfl, rfl⟩
      exact .read target.name target.line line'
    | assignKw =>
      have hrest := (assignment_recognises hexpr).explained ts j (Nat.le_refl ts.length)
      refine (hrest.imp fun c s hs ↦ ?_).shift fun _ _ ↦ rfl
      exact hs [⟨.keyword .assignKw, line⟩] (.inr ⟨line, rfl⟩)
    | ifKw =>
      -- with no level left the nesting is too deep, and nothing is claimed
      rcases interior? with _ | interior
      · trivial
      rcases interior'? with _ | interior'
      · exact hinterior.elim
      have hrest := (branch_recognises hinterior line).explained ts j (Nat.le_refl ts.length)
      exact hrest.shift fun _ _ ↦ rfl
    | whileKw =>
      rcases interior? with _ | interior
      · trivial
      rcases interior'? with _ | interior'
      · exact hinterior.elim
      have hrest := (loop_recognises hinterior line).explained ts j (Nat.le_refl ts.length)
      exact hrest.shift fun _ _ ↦ rfl
    | _ => exact .failAt hproductive fun _ ts' ↦ ⟨⟨_, j⟩, rfl⟩
  | identifier name =>
    -- the name is left to the parser of assignments
    have hrest := (assignment_recognises hexpr).explained (⟨.identifier name, line⟩ :: ts) j hts
    exact (hrest.imp fun c s hs ↦ hs [] (.inl rfl)).congr_cons fun _ _ ↦ rfl
  | integer _ | symbol _ | layout _ | eof =>
    exact .failAt hproductive fun _ ts' ↦ ⟨⟨_, j⟩, rfl⟩

/-- The semicolon behind a statement is part of its line and not of the statement. -/
theorem statementWith_recognises
    (hexpr : ∀ n, Recognises n (IsExpr .whole) expression (fun _ ↦ expression'))
    (hinterior : RecognisesInterior? interior? interior'?) :
    Recognises n IsLine (statementWith expression interior?)
      (fun _ ↦ statementWith expression' interior'?) := by
  refine ((bareStatement_recognises hexpr hinterior).andThen fun s ↦
    skipSemicolon_recognises.andThen fun _ ↦
      (Recognises.note (.statement s)).andThen fun _ ↦ .pure s).imp ?_
  rintro c s ⟨c₁, s, _, rfl, hs, c₂, _, _, rfl, hsemicolon, _, _, _, rfl, rfl, rfl, rfl⟩
  exact ⟨c₁, c₂, by simp, hs, hsemicolon⟩

end Whole

/-! ### Levels -/

/-- **Statements are recognised**, by induction on the levels of the first parser; those of
expressions go along. -/
theorem statement_recognises {levels levels' : Nat} (h : levels ≤ levels') :
    Recognises n IsLine (statement levels) (fun _ ↦ statement levels') := by
  induction levels generalizing n levels' with
  | zero =>
    have hnone : RecognisesInterior? none (interior? levels') := trivial
    rw [statement_eq levels']
    exact statementWith_recognises (fun _ ↦ expression_recognises h) hnone
  | succ levels ih =>
    -- the second parser has a level too, and no fewer below it
    obtain ⟨m, rfl⟩ : ∃ m, levels' = m + 1 := ⟨levels' - 1, by omega⟩
    have hinterior : RecognisesInterior ⟨Parser.expression levels, statements levels⟩
        ⟨Parser.expression m, statements m⟩ :=
      ⟨fun _ ↦ expression_recognises (by omega), fun _ ↦ block_recognises fun _ ↦ ih (by omega)⟩
    exact statementWith_recognises (fun _ ↦ expression_recognises h) hinterior

/-- So are blocks, at the same levels. -/
theorem statements_recognises {levels levels' : Nat} (h : levels ≤ levels') :
    Recognises n IsBlock (statements levels) (fun _ ↦ statements levels') :=
  block_recognises fun _ ↦ statement_recognises h

end TinyProc.Parser
