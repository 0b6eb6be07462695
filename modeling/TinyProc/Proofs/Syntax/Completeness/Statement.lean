import TinyProc.Proofs.Syntax.Completeness.Expression

/-!
# Reading what the grammar derives: statements and blocks

Here the rule matters that a `read` behind a display belongs to it: a display without a read is read
as such only where no `read` follows (`Ends`). In a sequence this is what `ReadRule.attached` asks
for, and at the end of a block it holds since what closes a block is no `read`.
-/

namespace TinyProc.Parser

open Grammar

variable {levels : Nat} {c : List Lexeme} {s : Statement}

/-! ### What may follow -/

/-- What follows does not extend a statement without a semicolon. -/
def Ends (s : Statement) (rest : List Lexeme) : Prop :=
  Stops .whole rest ∧ (s.takesRead → ¬ StartsWith (.keyword .readKw) rest)

/-- A token follows that ends a block. -/
def ClosesBlock (rest : List Lexeme) : Prop :=
  ∃ found rest', rest = found :: rest' ∧ found.token.endsBlock

/-- A semicolon ends any statement. -/
theorem ends_semicolon (s : Statement) (line : Nat) (rest : List Lexeme) :
    Ends s (⟨.symbol .semicolon, line⟩ :: rest) :=
  ⟨stops_of_ofToken?_eq_none (by simp) rfl, fun _ ↦ not_startsWith_cons (by simp)⟩

/-- What closes a block ends the statement before it. -/
theorem ClosesBlock.ends {rest : List Lexeme} (h : ClosesBlock rest) (s : Statement) :
    Ends s rest ∧ ¬ StartsWith (.symbol .semicolon) rest := by
  obtain ⟨found, rest', rfl, hends⟩ := h
  have hne : ∀ {token : Token}, token.endsBlock = false → found.token ≠ token := by
    intro token hopen heq
    rw [heq, hopen] at hends
    cases hends
  refine ⟨⟨stops_of_ne_symbol fun _ ↦ hne rfl, fun _ ↦ ?_⟩, ?_⟩
  · exact not_startsWith_cons (hne rfl)
  · exact not_startsWith_cons (hne rfl)

/-- What begins a statement ends the one before it, but for a `read` behind a display. -/
theorem ends_of_startsStatement {found : Lexeme} {rest : List Lexeme}
    (h : startsStatement found.token)
    (hread : s.takesRead → ¬ StartsWith (.keyword .readKw) (found :: rest)) :
    Ends s (found :: rest) ∧ ¬ StartsWith (.symbol .semicolon) (found :: rest) := by
  have hsymbol : ∀ symbol, found.token ≠ .symbol symbol := by
    intro symbol heq
    rw [heq] at h
    cases h
  exact ⟨⟨stops_of_ne_symbol hsymbol, hread⟩, not_startsWith_cons (hsymbol _)⟩

/-! ### Blocks -/

/-- A statement that is read by the parser without the semicolon, if there are as many levels as
tokens. -/
structure Readable (c : List Lexeme) (s : Statement) : Prop where
  /-- It is a statement. -/
  isStatement : IsStatement .attached c s
  /-- It is read. -/
  reads : ∀ {levels}, c.length ≤ levels →
    Reads (bareStatement (expression levels) (interior? levels)) c s (Ends s)

/-- A statement with or without its semicolon. Without it, what follows has to end the statement. -/
theorem statement_reads (h : Readable c s) (hlevels : c.length ≤ levels) {semicolon : List Lexeme}
    (hsemicolon : Optional (.symbol .semicolon) semicolon) :
    Reads (statement levels) (c ++ semicolon) s (fun rest ↦ semicolon = [] →
      Ends s rest ∧ ¬ StartsWith (.symbol .semicolon) rest) := by
  have hskip : Reads (do
      skipSemicolon
      note (.statement s)
      pure s) semicolon s (fun rest ↦ semicolon = [] →
        Ends s rest ∧ ¬ StartsWith (.symbol .semicolon) rest) :=
    ((skipSemicolon_reads hsemicolon).weaken fun rest hrest hnil ↦ (hrest hnil).2).map
      ((Reads.note _).map (.pure s))
  rw [statement_eq]
  refine (h.reads hlevels).bind hskip fun rest hrest ↦ ?_
  rcases hsemicolon with rfl | ⟨line, rfl⟩
  · exact (hrest rfl).1
  · exact ends_semicolon s line rest

/-- The first statement of a sequence is read in front of what follows it in the sequence. -/
theorem statementThen_reads {more : Parser Block} {follow : List Lexeme → Prop}
    {c₁ semicolon c₂ : List Lexeme} {block : Block} (hs : Readable c₁ s)
    (hsemicolon : Optional (.symbol .semicolon) semicolon)
    (htail : c₂ = [] ∧ block = [] ∨
      ReadRule.attached.Allows s semicolon c₂ ∧ Sequence .attached Readable c₂ block)
    (hlevels : c₁.length ≤ levels) (hmore : Reads more c₂ block follow)
    (hfollow : ∀ rest, follow rest → ClosesBlock rest) :
    Reads (statementThen (statement levels) more) (c₁ ++ (semicolon ++ c₂)) (s :: block)
      follow := by
  have hrest : Reads (more >>= fun others ↦ pure (s :: others)) c₂ (s :: block) follow :=
    hmore.map (.pure (s :: block))
  rw [← List.append_assoc]
  refine (statement_reads hs hlevels hsemicolon).bind hrest fun rest hclose hnil ↦ ?_
  -- no semicolon: what ends the statement is the end of the block or the next statement
  rcases htail with ⟨rfl, -⟩ | ⟨hallows, hseq⟩
  · exact (hfollow rest hclose).ends s
  · have hread := fun htakes ↦ hallows htakes hnil
    obtain ⟨found, c', rfl, hstarts⟩ := hseq.head fun _ _ h ↦ h.isStatement
    refine ends_of_startsStatement hstarts fun htakes ↦ ?_
    rintro ⟨line, rest', heq⟩
    cases heq
    exact hread htakes ⟨line, c', rfl⟩

/-- No token is both the first of a statement and the end of a block. -/
theorem not_endsBlock_of_startsStatement {token : Token} (h : startsStatement token) :
    ¬ token.endsBlock := by
  cases token with
  | keyword k =>
    revert h
    cases k <;> decide
  | eof => cases h
  | _ => exact nofun

/-- The statements of a block up to what closes it. The bound of the loop is no smaller than the
stream, which gets shorter with each of them. -/
theorem moreStatements_reads (bound : Nat) {block : Block}
    (h : c = [] ∧ block = [] ∨ Sequence .attached Readable c block) (hlevels : c.length ≤ levels) :
    Reads (moreStatements (statement levels) bound) c block
      (fun rest ↦ ClosesBlock rest ∧ c.length + rest.length ≤ bound) := by
  induction bound generalizing c block with
  | zero =>
    -- the token that closes the block is still there, so the bound was not zero
    rintro rest j ⟨⟨found, rest', rfl, -⟩, hbound⟩
    rw [List.length_cons] at hbound
    omega
  | succ bound ih =>
    rintro rest j ⟨hclose, hbound⟩
    rcases h with ⟨rfl, rfl⟩ | h
    · obtain ⟨found, rest, rfl, hends⟩ := hclose
      refine ⟨j, ?_⟩
      rw [List.nil_append, moreStatements_cons, if_pos hends]
    · obtain ⟨found, c', hc, hstarts⟩ := h.head fun _ _ h ↦ h.isStatement
      obtain ⟨c₁, semicolon, c₂, s, block', rfl, rfl, hs, hsemicolon, htail⟩ := h.uncons
      have hpos := List.length_pos_iff.2 hs.isStatement.ne_nil
      simp only [List.length_append] at hlevels hbound
      have hmore := ih (htail.imp_right And.right) (by omega)
      have hfirst : c₁.length ≤ levels := by omega
      have hread := (statementThen_reads hs hsemicolon htail hfirst hmore fun _ h ↦ h.1) rest j
        ⟨hclose, by omega⟩
      rw [hc] at hread ⊢
      rw [List.cons_append, moreStatements_cons, if_neg (not_endsBlock_of_startsStatement hstarts)]
      exact hread

/-- **Blocks are read** if their statements are. -/
theorem statements_reads {block : Block} (h : Sequence .attached Readable c block) (levels : Nat)
    (hlevels : c.length ≤ levels) : Reads (statements levels) c block ClosesBlock := by
  obtain ⟨found, c', hc, hstarts⟩ := h.head fun _ _ h ↦ h.isStatement
  obtain ⟨c₁, semicolon, c₂, s, block', rfl, rfl, hs, hsemicolon, htail⟩ := h.uncons
  simp only [List.length_append] at hlevels
  have hmore : Reads (do moreStatements (statement levels) (← remaining)) c₂ block' ClosesBlock :=
    .remaining fun bound ↦ moreStatements_reads bound (htail.imp_right And.right) (by omega)
  intro rest j hclose
  have hfirst : c₁.length ≤ levels := by omega
  have hread := (statementThen_reads hs hsemicolon htail hfirst hmore fun _ h ↦ h) rest j hclose
  rw [hc] at hread ⊢
  rw [statements, List.cons_append, block_cons,
    if_neg (not_endsBlock_of_startsStatement hstarts)]
  exact hread

/-! ### Statements -/

section Forms

variable {c' : List Lexeme} {e : Expr} {expression : Parser Expr} {interior? : Option Interior}

theorem attachedRead?_reads (name : String) (line line' : Nat) :
    Reads attachedRead? [⟨.keyword .readKw, line⟩, ⟨.identifier name, line'⟩] (some ⟨name, line⟩)
      Anything :=
  fun _ j _ ↦ ⟨j, rfl⟩

/-- A display is read without a read where none follows. -/
theorem bareStatement_reads_display (line : Nat) (he : Reads expression c e (Stops .whole)) :
    Reads (bareStatement expression interior?) (⟨.keyword .displayKw, line⟩ :: c)
      (.display e none line) (Ends (.display e none line)) := by
  have hnone : Reads attachedRead? [] none (Ends (.display e none line)) :=
    ((take?_reads_none _).weaken fun _ hrest ↦ hrest.2 trivial).map (.pure none)
  have hdisplay : Reads (display expression line) c (.display e none line)
      (Ends (.display e none line)) :=
    (he.weaken fun _ hrest ↦ hrest.1).map (hnone.map (.pure _))
  exact hdisplay.cons fun _ _ ↦ rfl

/-- A display takes the read behind it, in front of anything. -/
theorem bareStatement_reads_displayRead (name : String) (line line' line'' : Nat)
    (he : Reads expression c e (Stops .whole)) :
    Reads (bareStatement expression interior?)
      (⟨.keyword .displayKw, line⟩ ::
        (c ++ [⟨.keyword .readKw, line'⟩, ⟨.identifier name, line''⟩]))
      (.display e (some ⟨name, line'⟩) line) Anything := by
  have hdisplay : Reads (display expression line)
      (c ++ [⟨.keyword .readKw, line'⟩, ⟨.identifier name, line''⟩])
      (.display e (some ⟨name, line'⟩) line) Anything :=
    he.bind ((attachedRead?_reads name line' line'').map (.pure _)) fun rest _ ↦
      stops_of_ofToken?_eq_none (by simp) rfl
  exact hdisplay.cons fun _ _ ↦ rfl

/-- The two signs of an assignment are read alike. -/
theorem assignment_reads {sign : Symbol} (hsign : sign = .colonEquals ∨ sign = .equals)
    (name : String) (line line' : Nat) (he : Reads expression c e (Stops .whole)) :
    Reads (assignment expression) (⟨.identifier name, line⟩ :: ⟨.symbol sign, line'⟩ :: c)
      (.assign name e line) (Stops .whole) := by
  have hvalue : Reads (do
      assignmentSign line
      let value ← expression
      pure (Statement.assign name value line)) (⟨.symbol sign, line'⟩ :: c)
        (Statement.assign name e line) (Stops .whole) := by
    have hrest : Reads (expression >>= fun value ↦ pure (Statement.assign name value line)) c
        (Statement.assign name e line) (Stops .whole) := he.map (.pure _)
    refine hrest.cons fun ts j ↦ ?_
    have hstep : assignmentSign line ⟨⟨.symbol sign, line'⟩ :: ts, j⟩ = .ok () ⟨ts, j⟩ := by
      rw [assignmentSign_cons, if_pos]
      rcases hsign with rfl | rfl
      · exact .inl rfl
      · exact .inr rfl
    exact bind_of_ok hstep
  exact hvalue.cons fun _ _ ↦ rfl

/-- An assignment with or without its keyword, which leaves no trace in the tree. -/
theorem bareStatement_reads_assign {keyword : List Lexeme} {sign : Symbol}
    (hkeyword : Optional (.keyword .assignKw) keyword)
    (hsign : sign = .colonEquals ∨ sign = .equals) (name : String) (line line' : Nat)
    (he : Reads expression c e (Stops .whole)) :
    Reads (bareStatement expression interior?)
      (keyword ++ ⟨.identifier name, line⟩ :: ⟨.symbol sign, line'⟩ :: c) (.assign name e line)
      (Stops .whole) := by
  have hassign := assignment_reads hsign name line line' he
  rcases hkeyword with rfl | ⟨line'', rfl⟩
  · exact fun rest j hrest ↦ hassign rest j hrest
  · exact hassign.cons fun _ _ ↦ rfl

variable {block block' : Block} {inner : Parser Expr} {body : Parser Block}

/-- A conditional is read in front of anything, since `end` closes it. Its condition is ended by
`then`. -/
theorem bareStatement_reads_branch (line line' line'' : Nat)
    (he : Reads inner c e (Stops .whole)) (hblock : Reads body c' block ClosesBlock) :
    Reads (bareStatement expression (some ⟨inner, body⟩))
      (⟨.keyword .ifKw, line⟩ ::
        (c ++ ⟨.keyword .thenKw, line'⟩ :: (c' ++ [⟨.keyword .endKw, line''⟩])))
      (.branch e block none line) Anything := by
  have helse : Reads (elseBlock? ⟨inner, body⟩) [] none
      (fun rest ↦ ¬ StartsWith (.keyword .elseKw) rest) :=
    (take?_reads_none _).map (.pure none)
  have hbranch : Reads (branch ⟨inner, body⟩ line)
      (c ++ ⟨.keyword .thenKw, line'⟩ :: (c' ++ [⟨.keyword .endKw, line''⟩]))
      (.branch e block none line) Anything :=
    he.bind ((expect_reads _ line').andThen (hblock.bind (helse.bind
      ((expect_reads _ line'').map (.pure _)) fun rest _ ↦ not_startsWith_cons (by simp))
      fun rest _ ↦ ⟨_, _, rfl, rfl⟩)) fun rest _ ↦ stops_of_ofToken?_eq_none (by simp) rfl
  exact hbranch.cons fun _ _ ↦ rfl

/-- The first block is closed by `else`, the second one by `end`. -/
theorem bareStatement_reads_branchElse {c'' : List Lexeme} (line line₁ line₂ line₃ : Nat)
    (he : Reads inner c e (Stops .whole)) (hblock : Reads body c' block ClosesBlock)
    (hblock' : Reads body c'' block' ClosesBlock) :
    Reads (bareStatement expression (some ⟨inner, body⟩))
      (⟨.keyword .ifKw, line⟩ ::
        (c ++ ⟨.keyword .thenKw, line₁⟩ ::
          (c' ++ ⟨.keyword .elseKw, line₂⟩ :: (c'' ++ [⟨.keyword .endKw, line₃⟩]))))
      (.branch e block (some block') line) Anything := by
  have helse : Reads (elseBlock? ⟨inner, body⟩) (⟨.keyword .elseKw, line₂⟩ :: c'') (some block')
      ClosesBlock :=
    (take?_reads_some _ line₂).andThen (hblock'.map (.pure _))
  have hbranch : Reads (branch ⟨inner, body⟩ line)
      (c ++ ⟨.keyword .thenKw, line₁⟩ ::
        (c' ++ ((⟨.keyword .elseKw, line₂⟩ :: c'') ++ [⟨.keyword .endKw, line₃⟩])))
      (.branch e block (some block') line) Anything :=
    he.bind ((expect_reads _ line₁).andThen (hblock.bind (helse.bind
      ((expect_reads _ line₃).map (.pure _)) fun rest _ ↦ ⟨_, _, rfl, rfl⟩)
      fun rest _ ↦ ⟨_, _, rfl, rfl⟩)) fun rest _ ↦ stops_of_ofToken?_eq_none (by simp) rfl
  exact hbranch.cons fun _ _ ↦ rfl

/-- A loop is read in front of anything, since `end` closes it. -/
theorem bareStatement_reads_loop (line line' line'' : Nat)
    (he : Reads inner c e (Stops .whole)) (hblock : Reads body c' block ClosesBlock) :
    Reads (bareStatement expression (some ⟨inner, body⟩))
      (⟨.keyword .whileKw, line⟩ ::
        (c ++ ⟨.keyword .doKw, line'⟩ :: (c' ++ [⟨.keyword .endKw, line''⟩])))
      (.loop e block line) Anything := by
  have hloop : Reads (loop ⟨inner, body⟩ line)
      (c ++ ⟨.keyword .doKw, line'⟩ :: (c' ++ [⟨.keyword .endKw, line''⟩]))
      (.loop e block line) Anything :=
    he.bind ((expect_reads _ line').andThen (hblock.bind ((expect_reads _ line'').map (.pure _))
      fun rest _ ↦ ⟨_, _, rfl, rfl⟩)) fun rest _ ↦ stops_of_ofToken?_eq_none (by simp) rfl
  exact hloop.cons fun _ _ ↦ rfl

end Forms

/-- **Statements are read** if there are as many levels as tokens. A statement that holds blocks
passes one level less on to them, and there is one token less at least in them. -/
theorem readable_of_isStatement (h : IsStatement .attached c s) : Readable c s := by
  refine ⟨h, fun {levels} hlevels ↦ ?_⟩
  induction h using IsStatement.induction generalizing levels with
  | display line he =>
    rw [List.length_cons] at hlevels
    exact bareStatement_reads_display line (expression_reads he levels (by omega))
  | displayRead name line line' line'' he =>
    rw [List.length_cons, List.length_append] at hlevels
    have hexpr := expression_reads he levels (by omega)
    exact (bareStatement_reads_displayRead name line line' line'' hexpr).weaken fun _ _ ↦ trivial
  | read name line line' => exact fun _ j _ ↦ ⟨j, rfl⟩
  | assign name line line' hkeyword hsign he =>
    rw [List.length_append, List.length_cons, List.length_cons] at hlevels
    have hexpr := expression_reads he levels (by omega)
    exact (bareStatement_reads_assign hkeyword hsign name line line' hexpr).weaken
      fun _ hrest ↦ hrest.1
  | branch line line' line'' he _ ih =>
    simp only [List.length_cons, List.length_append, List.length_nil] at hlevels
    -- the condition is inside of the level too
    obtain ⟨levels, rfl⟩ : ∃ l, levels = l + 1 := ⟨levels - 1, by omega⟩
    have hexpr := expression_reads he levels (by omega)
    have hblock := statements_reads (ih.imp fun c s ⟨h, hs⟩ ↦ ⟨h, hs⟩) levels (by omega)
    exact (bareStatement_reads_branch line line' line'' hexpr hblock).weaken fun _ _ ↦ trivial
  | branchElse line line₁ line₂ line₃ he _ _ ih ih' =>
    simp only [List.length_cons, List.length_append, List.length_nil] at hlevels
    obtain ⟨levels, rfl⟩ : ∃ l, levels = l + 1 := ⟨levels - 1, by omega⟩
    have hexpr := expression_reads he levels (by omega)
    have hblock := statements_reads (ih.imp fun c s ⟨h, hs⟩ ↦ ⟨h, hs⟩) levels (by omega)
    have hblock' := statements_reads (ih'.imp fun c s ⟨h, hs⟩ ↦ ⟨h, hs⟩) levels (by omega)
    exact (bareStatement_reads_branchElse line line₁ line₂ line₃ hexpr hblock hblock').weaken
      fun _ _ ↦ trivial
  | loop line line' line'' he _ ih =>
    simp only [List.length_cons, List.length_append, List.length_nil] at hlevels
    obtain ⟨levels, rfl⟩ : ∃ l, levels = l + 1 := ⟨levels - 1, by omega⟩
    have hexpr := expression_reads he levels (by omega)
    have hblock := statements_reads (ih.imp fun c s ⟨h, hs⟩ ↦ ⟨h, hs⟩) levels (by omega)
    exact (bareStatement_reads_loop line line' line'' hexpr hblock).weaken fun _ _ ↦ trivial

/-- A block that the grammar derives is read, if there are as many levels as tokens. -/
theorem statements_reads_of_sequence {block : Block}
    (h : Sequence .attached (IsStatement .attached) c block) (levels : Nat)
    (hlevels : c.length ≤ levels) : Reads (statements levels) c block ClosesBlock :=
  statements_reads (h.imp fun _ _ ↦ readable_of_isStatement) levels hlevels

end TinyProc.Parser
