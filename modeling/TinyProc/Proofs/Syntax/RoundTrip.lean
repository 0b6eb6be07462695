import TinyProc.Interpreter
import TinyProc.Proofs.Syntax.Acceptance
import TinyProc.Proofs.Syntax.Nesting
import TinyProc.Proofs.Syntax.Printing
import TinyProc.Proofs.Token.Scanning

/-!
# Parsing undoes printing

A well-formed program that is printed and parsed comes back as it was, lines included, if what is
printed is not nested too deep. That every program parsed from a text is such a program is the other
half. Its numbers and names are those of tokens that scanning delivers, so it is well formed; and it
is printed with no more levels than the text has that it was parsed from (`NoDeeper`), because a
pair of parentheses that is printed stands where every text of the tree has one.

Both facts about a tree are shown in one induction along its derivation, since the second needs the
first: that an operation is printed with its operator, and not as a sign, is due to the left operand
being well formed.
-/

namespace TinyProc

open Grammar

/-! ### Tokens that scanning delivers -/

/-- Numbers that scanning delivers have no sign, and names are names. -/
def Token.IsScannable : Token → Prop
  | .integer value => 0 ≤ value.val
  | .identifier name => Lexis.IsName name
  | _ => True

/-- Lexemes with tokens that scanning delivers. -/
def Scannable (c : List Lexeme) : Prop :=
  ∀ lexeme ∈ c, lexeme.token.IsScannable

theorem scannable_nil : Scannable [] :=
  List.forall_mem_nil _

theorem scannable_cons {lexeme : Lexeme} {c : List Lexeme} :
    Scannable (lexeme :: c) ↔ lexeme.token.IsScannable ∧ Scannable c :=
  List.forall_mem_cons

theorem scannable_append {c d : List Lexeme} :
    Scannable (c ++ d) ↔ Scannable c ∧ Scannable d :=
  List.forall_mem_append

/-- A spelling denotes such a token: digits stand for a number that has no sign, and a name for
itself. -/
theorem Lexis.Denotes.isScannable {spelling : List Char} {token : Token}
    (h : Lexis.Denotes spelling token) : token.IsScannable := by
  cases h with
  | @integer _ value _ hvalue =>
    show 0 ≤ value.val
    exact hvalue ▸ Int.natCast_nonneg _
  | keyword _ => exact trivial
  | identifier h => exact h
  | symbol _ => exact trivial

/-- All tokens of a text are such tokens, the one for its end included. -/
theorem Lexis.Lexed.scannable {before text tail : List Char} {lexemes : List Lexeme}
    (h : Lexis.Lexed before text tail lexemes) : Scannable lexemes := by
  induction h with
  | tail _ _ => exact scannable_cons.2 ⟨trivial, scannable_nil⟩
  | token _ _ _ hdenotes _ _ ih => exact scannable_cons.2 ⟨hdenotes.isScannable, ih⟩

theorem scannable_of_tokenize {source : String} {lexemes : List Lexeme}
    (h : tokenize source = .ok lexemes) : Scannable lexemes := by
  obtain ⟨tail, hlexed⟩ := tokenize_eq_ok_iff_lexed.1 h
  exact hlexed.scannable

/-! ### Lists -/

section Lists

variable {α : Type} {item : List Lexeme → α → Prop} {closing : Token} {c : List Lexeme}
  {as : List α}

/-- What each item has, as far as its tokens can be scanned, all items have. -/
theorem Grammar.CommaList.forall_mem {P : α → Prop} (h : CommaList item closing c as)
    (hc : Scannable c) (hitem : ∀ c a, item c a → Scannable c → P a) : ∀ a ∈ as, P a := by
  cases h with
  | empty _ => exact nofun
  | filled h =>
    induction h with
    | last _ ha =>
      rw [scannable_append] at hc
      exact List.forall_mem_singleton.2 (hitem _ _ ha hc.1)
    | cons _ ha _ ih =>
      rw [scannable_append, scannable_cons] at hc
      exact List.forall_mem_cons.2 ⟨hitem _ _ ha hc.1, ih hc.2.2⟩

/-- Commas and the order of the items are all that is left open by a list. -/
theorem Grammar.CommaList.noDeeper {print : α → List Lexeme} (h : CommaList item closing c as)
    (hc : Scannable c) (hitem : ∀ c a, item c a → Scannable c → NoDeeper (print a) c)
    (filler : Nat) :
    ∃ c₀ line, c = c₀ ++ [⟨closing, line⟩] ∧ NoDeeper (withCommas filler (as.map print)) c₀ := by
  cases h with
  | empty line => exact ⟨[], line, rfl, .of_flat flat_nil flat_nil⟩
  | filled h =>
    induction h with
    | @last c a line ha =>
      rw [scannable_append] at hc
      refine ⟨c, line, rfl, ?_⟩
      rw [List.map_singleton, withCommas_singleton]
      exact hitem c a ha hc.1
    | @cons c c' a as line ha has ih =>
      rw [scannable_append, scannable_cons] at hc
      obtain ⟨b, bs, rfl⟩ : ∃ b bs, as = b :: bs := by
        cases has with
        | last => exact ⟨_, _, rfl⟩
        | cons => exact ⟨_, _, rfl⟩
      obtain ⟨c₀, line', rfl, hc₀⟩ := ih hc.2.2
      refine ⟨c ++ ⟨.symbol .comma, line⟩ :: c₀, line', by simp, ?_⟩
      rw [List.map_cons, List.map_cons, withCommas_cons_cons]
      exact (hitem c a ha hc.1).append
        (.cons (flat_singleton rfl rfl) (flat_singleton rfl rfl) hc₀)

end Lists

/-! ### Expressions -/

/-- Where the layer is loose enough, there are no parentheses. -/
theorem Expr.unparse_of_le {e : Expr} {t : Tier} (h : e.tier.rank ≤ t.rank) (filler : Nat) :
    e.unparse filler t = e.bare filler :=
  if_pos h

/-- Where the layer is too loose for the place, there are parentheses. -/
theorem Expr.unparse_of_not_le {e : Expr} {t : Tier} (h : ¬ e.tier.rank ≤ t.rank) (filler : Nat) :
    e.unparse filler t =
      ⟨.symbol .leftParen, filler⟩ :: (e.bare filler ++ [⟨.symbol .rightParen, filler⟩]) :=
  if_neg h

/-- An expression that is well formed, and that takes no more levels than `c` where a layer as loose
as `t` is asked for. -/
structure Expr.Printable (t : Tier) (c : List Lexeme) (e : Expr) : Prop where
  /-- It is well formed. -/
  wellFormed : e.WellFormed
  /-- It is printed with no more levels than `c` has. -/
  noDeeper : ∀ filler t', t.rank ≤ t'.rank → NoDeeper (e.unparse filler t') c

theorem Expr.Printable.whole {c : List Lexeme} {e : Expr} (h : Expr.Printable .whole c e)
    (filler : Nat) : NoDeeper (e.unparse filler .whole) c :=
  h.noDeeper filler .whole (Nat.le_refl _)

/-- Operators open no level. -/
theorem Operator.flat_symbol (op : Operator) (line : Nat) : Flat [⟨.symbol op.symbol, line⟩] := by
  cases op <;> exact flat_singleton rfl rfl

/-- An expression derived from such tokens is printed with no more levels. Parentheses are printed
in the case `group` at most, where the list has a pair as well. -/
theorem Grammar.IsExpr.printable {t : Tier} {c : List Lexeme} {e : Expr} (h : IsExpr t c e)
    (hc : Scannable c) : Expr.Printable t c e := by
  induction h using IsExpr.induction with
  | number value line =>
    refine ⟨.number (scannable_cons.1 hc).1, fun filler t' _ ↦ ?_⟩
    rw [Expr.unparse_of_le (Nat.zero_le _)]
    exact .of_flat (flat_singleton rfl rfl) (flat_singleton rfl rfl)
  | name name line =>
    refine ⟨.name (scannable_cons.1 hc).1, fun filler t' _ ↦ ?_⟩
    rw [Expr.unparse_of_le (Nat.zero_le _)]
    exact .of_flat (flat_singleton rfl rfl) (flat_singleton rfl rfl)
  | @group c e line line' _ ih =>
    rw [scannable_cons, scannable_append] at hc
    have he := ih hc.2.1
    have hbare : ∀ filler, NoDeeper (e.bare filler) c := fun filler ↦
      Expr.unparse_of_le e.tier.rank_le_whole filler ▸ he.whole filler
    refine ⟨he.wellFormed, fun filler t' _ ↦ ?_⟩
    -- the parentheses of the list are dropped, or printed where they are needed
    by_cases htier : e.tier.rank ≤ t'.rank
    · rw [Expr.unparse_of_le htier]
      exact (hbare filler).bracket_right rfl rfl
    · rw [Expr.unparse_of_not_le htier]
      exact (hbare filler).bracket rfl rfl rfl rfl
  | @call c arguments name line line' _ harguments =>
    rw [scannable_cons, scannable_cons] at hc
    refine ⟨.call hc.1 ?_, fun filler t' _ ↦ ?_⟩
    · exact harguments.forall_mem hc.2.2 fun c e ⟨_, ih⟩ hc ↦ (ih hc).wellFormed
    · obtain ⟨c₀, line'', rfl, hc₀⟩ := harguments.noDeeper hc.2.2
        (fun c e ⟨_, ih⟩ hc ↦ (ih hc).noDeeper filler .whole (Nat.le_refl _)) filler
      rw [Expr.unparse_of_le (Nat.zero_le _), Expr.bare, Expr.bareAll_eq_map]
      exact .cons (flat_singleton rfl rfl) (flat_singleton rfl rfl)
        (hc₀.bracket rfl rfl rfl rfl)
  | plain _ ih =>
    have he := ih hc
    exact ⟨he.wellFormed, fun filler t' _ ↦ he.noDeeper filler t' (Nat.zero_le _)⟩
  | @minus c e line _ ih =>
    have he := ih (scannable_cons.1 hc).2
    have hsign : isSign .mul (.number .minusOne) := ⟨rfl, rfl⟩
    refine ⟨.sign he.wellFormed, fun filler t' ht' ↦ ?_⟩
    rw [← Expr.tier_of_isSign hsign e line] at ht'
    rw [Expr.unparse_of_le ht', Expr.bare, if_pos hsign]
    exact .cons (flat_singleton rfl rfl) (flat_singleton rfl rfl)
      (he.noDeeper filler .value (Nat.le_refl _))
  | @operand level c e _ ih =>
    have he := ih hc
    refine ⟨he.wellFormed, fun filler t' ht' ↦ he.noDeeper filler t' ?_⟩
    rw [rank_operands] at ht'
    omega
  | @operation level op c c' left right line _ hop _ ihleft ihright =>
    subst hop
    rw [scannable_append, scannable_cons] at hc
    have hleft := ihleft hc.1
    have hright := ihright hc.2.2
    have hsign := hleft.wellFormed.not_isSign op
    refine ⟨.operation hleft.wellFormed hright.wellFormed, fun filler t' ht' ↦ ?_⟩
    rw [← Expr.tier_of_not_isSign hsign right line] at ht'
    rw [Expr.unparse_of_le ht', Expr.bare, if_neg hsign]
    exact (hleft.noDeeper filler _ (Nat.le_refl _)).append (.cons (op.flat_symbol line)
      (op.flat_symbol line) (hright.noDeeper filler _ (Nat.le_refl _)))

/-! ### Statements -/

/-- A statement that is well formed and takes no more levels than `c`. -/
structure Statement.Printable (c : List Lexeme) (s : Statement) : Prop where
  /-- It is well formed. -/
  wellFormed : s.WellFormed
  /-- It is printed with no more levels than `c` has. -/
  noDeeper : ∀ filler, NoDeeper (s.unparse filler) c

/-- A token that may be missing opens no level, whether it is there or not. -/
theorem flat_of_optional {token : Token} {c : List Lexeme} (h : Optional token c)
    (hopens : token.opensLevel = false) (hcloses : token.closesLevel = false) : Flat c := by
  obtain rfl | ⟨line, rfl⟩ := h
  · exact flat_nil
  · exact flat_singleton hopens hcloses

/-- A block that is well formed and takes no more levels than `c`. -/
structure Block.Printable (c : List Lexeme) (block : Block) : Prop where
  /-- It is well formed. -/
  wellFormed : Block.WellFormed block
  /-- It is printed with no more levels than `c` has. -/
  noDeeper : ∀ filler, NoDeeper (Statement.unparseAll filler block) c

/-- A block. Semicolons that are missing in the list are printed, which takes no level. -/
theorem Grammar.Sequence.printable {rule : ReadRule} {item : List Lexeme → Statement → Prop}
    {c : List Lexeme} {block : Block} (h : Sequence rule item c block) (hc : Scannable c)
    (hitem : ∀ c s, item c s → Scannable c → Statement.Printable c s) :
    Block.Printable c block := by
  have hflat : ∀ line, Flat [⟨.symbol .semicolon, line⟩] := fun _ ↦ flat_singleton rfl rfl
  induction h with
  | @last c semicolon s hs hsemicolon =>
    rw [scannable_append] at hc
    have hs := hitem c s hs hc.1
    refine ⟨⟨List.cons_ne_nil _ _, List.forall_mem_singleton.2 hs.wellFormed⟩, fun filler ↦ ?_⟩
    exact (hs.noDeeper filler).append
      (.of_flat (hflat filler) (flat_of_optional hsemicolon rfl rfl))
  | @cons c semicolon next s block hs hsemicolon _ _ ih =>
    rw [scannable_append, scannable_append] at hc
    have hs := hitem c s hs hc.1
    have hblock := ih hc.2.2
    refine ⟨⟨List.cons_ne_nil _ _, List.forall_mem_cons.2 ⟨hs.wellFormed, hblock.wellFormed.2⟩⟩,
      fun filler ↦ ?_⟩
    exact (hs.noDeeper filler).append
      ((NoDeeper.of_flat (hflat filler) (flat_of_optional hsemicolon rfl rfl)).append
        (hblock.noDeeper filler))

/-- A statement. The keyword of an assignment is not printed, and neither is the second sign for it.
-/
theorem Grammar.IsStatement.printable {rule : ReadRule} {c : List Lexeme} {s : Statement}
    (h : IsStatement rule c s) (hc : Scannable c) : Statement.Printable c s := by
  induction h using IsStatement.induction with
  | display line he =>
    have he := he.printable (scannable_cons.1 hc).2
    refine ⟨.display he.wellFormed nofun, fun filler ↦ ?_⟩
    rw [Statement.unparse]
    simp only [Option.map_none, Option.getD_none, List.append_nil]
    exact .cons (flat_singleton rfl rfl) (flat_singleton rfl rfl) (he.whole filler)
  | @displayRead c e name line line' line'' he =>
    rw [scannable_cons, scannable_append, scannable_cons, scannable_cons] at hc
    have he := he.printable hc.2.1
    refine ⟨.display he.wellFormed ?_, fun filler ↦ ?_⟩
    · rintro _ ⟨rfl⟩
      exact hc.2.2.2.1
    · refine .cons (flat_singleton rfl rfl) (flat_singleton rfl rfl) ((he.whole filler).append ?_)
      exact .cons (flat_singleton rfl rfl) (flat_singleton rfl rfl)
        (.of_flat (flat_singleton rfl rfl) (flat_singleton rfl rfl))
  | read name line line' =>
    rw [scannable_cons, scannable_cons] at hc
    refine ⟨.read hc.2.1, fun filler ↦ ?_⟩
    exact .cons (flat_singleton rfl rfl) (flat_singleton rfl rfl)
      (.of_flat (flat_singleton rfl rfl) (flat_singleton rfl rfl))
  | @assign keyword c sign e name line line' hkeyword hsign he =>
    rw [scannable_append, scannable_cons, scannable_cons] at hc
    have he := he.printable hc.2.2.2
    have hsign : Flat [⟨.symbol sign, line'⟩] := by
      obtain rfl | rfl := hsign <;> exact flat_singleton rfl rfl
    refine ⟨.assign hc.2.1 he.wellFormed, fun filler ↦ ?_⟩
    exact (NoDeeper.of_flat flat_nil (flat_of_optional hkeyword rfl rfl)).append
      (.cons (flat_singleton rfl rfl) (flat_singleton rfl rfl)
        (.cons (flat_singleton rfl rfl) hsign (he.whole filler)))
  | @branch c c' e block line line' line'' he _ ih =>
    rw [scannable_cons, scannable_append, scannable_cons, scannable_append] at hc
    have he := he.printable hc.2.1
    have hblock := ih.printable hc.2.2.2.1 fun c s h ↦ h.elim fun _ ih ↦ ih
    refine ⟨.branch he.wellFormed hblock.wellFormed.1 hblock.wellFormed.2 (by simp) (by simp),
      fun filler ↦ ?_⟩
    exact .bracket_two rfl rfl rfl rfl (flat_singleton rfl rfl) (flat_singleton rfl rfl)
      (he.whole filler) (hblock.noDeeper filler)
  | @branchElse c c' c'' e block block' line line₁ line₂ line₃ he _ _ ih ih' =>
    rw [scannable_cons, scannable_append, scannable_cons, scannable_append, scannable_cons,
      scannable_append] at hc
    have he := he.printable hc.2.1
    have hthen := ih.printable hc.2.2.2.1 fun c s h ↦ h.elim fun _ ih ↦ ih
    have helse := ih'.printable hc.2.2.2.2.2.1 fun c s h ↦ h.elim fun _ ih ↦ ih
    refine ⟨.branch he.wellFormed hthen.wellFormed.1 hthen.wellFormed.2 ?_ ?_, fun filler ↦ ?_⟩
    · rintro _ ⟨rfl⟩
      exact helse.wellFormed.1
    · rintro _ ⟨rfl⟩
      exact helse.wellFormed.2
    · have hboth : NoDeeper
          (Statement.unparseAll filler block ++ Statement.unparseElse filler (some block'))
          (c' ++ ⟨.keyword .elseKw, line₂⟩ :: c'') :=
        (hthen.noDeeper filler).append
          ((helse.noDeeper filler).cons (flat_singleton rfl rfl) (flat_singleton rfl rfl))
      have hsplit : c' ++ ⟨.keyword .elseKw, line₂⟩ :: (c'' ++ [⟨.keyword .endKw, line₃⟩]) =
          (c' ++ ⟨.keyword .elseKw, line₂⟩ :: c'') ++ [⟨.keyword .endKw, line₃⟩] := by simp
      rw [Statement.unparse, ← List.append_assoc (Statement.unparseAll filler block), hsplit]
      exact .bracket_two rfl rfl rfl rfl (flat_singleton rfl rfl) (flat_singleton rfl rfl)
        (he.whole filler) hboth
  | @loop c c' e block line line' line'' he h ih =>
    rw [scannable_cons, scannable_append, scannable_cons, scannable_append] at hc
    have he := he.printable hc.2.1
    have hblock := ih.printable hc.2.2.2.1 fun c s h ↦ h.elim fun _ ih ↦ ih
    refine ⟨.loop he.wellFormed hblock.wellFormed.1 hblock.wellFormed.2, fun filler ↦ ?_⟩
    exact .bracket_two rfl rfl rfl rfl (flat_singleton rfl rfl) (flat_singleton rfl rfl)
      (he.whole filler) (hblock.noDeeper filler)

theorem Grammar.Sequence.printable_of_isStatement {rule : ReadRule} {c : List Lexeme}
    {block : Block} (h : Sequence rule (IsStatement rule) c block) (hc : Scannable c) :
    Block.Printable c block :=
  h.printable hc fun _ _ hs ↦ hs.printable

/-! ### Programs -/

/-- Names in a list are names, as they are scanned. -/
theorem Grammar.CommaList.isName {closing : Token} {c : List Lexeme} {names : List String}
    (h : CommaList IsName closing c names) (hc : Scannable c) :
    ∀ name ∈ names, Lexis.IsName name := by
  refine h.forall_mem hc ?_
  rintro _ name ⟨line, rfl⟩ hname
  exact (scannable_cons.1 hname).1

/-- A list of names takes no level apart from the parentheses that may stand around it. -/
theorem Grammar.CommaList.noDeeper_names {closing : Token} {c : List Lexeme} {names : List String}
    (h : CommaList IsName closing c names) (hc : Scannable c) (filler : Nat) :
    ∃ c₀ line, c = c₀ ++ [⟨closing, line⟩] ∧ NoDeeper (unparseNames filler names) c₀ := by
  refine h.noDeeper hc ?_ filler
  rintro _ name ⟨line, rfl⟩ _
  exact .of_flat (flat_singleton rfl rfl) (flat_singleton rfl rfl)

/-- The local variables have names, if there are any. -/
theorem Grammar.IsLocals.isName {c : List Lexeme} {names : List String} (h : IsLocals c names)
    (hc : Scannable c) : ∀ name ∈ names, Lexis.IsName name := by
  cases h with
  | none => exact nofun
  | some _ h => exact h.isName (scannable_cons.1 hc).2

/-- The keyword `var` with nothing behind it is not printed. -/
theorem Grammar.IsLocals.noDeeper {c : List Lexeme} {names : List String} (h : IsLocals c names)
    (hc : Scannable c) (filler : Nat) : NoDeeper (unparseLocals filler names) c := by
  cases h with
  | none => exact .of_flat flat_nil flat_nil
  | some line h =>
    obtain ⟨c₀, line', rfl, hc₀⟩ := h.noDeeper_names (scannable_cons.1 hc).2 filler
    cases names with
    | nil =>
      exact (NoDeeper.of_flat flat_nil (flat_singleton rfl rfl)).append
        (hc₀.append (.of_flat flat_nil (flat_singleton rfl rfl)))
    | cons name names =>
      exact .cons (flat_singleton rfl rfl) (flat_singleton rfl rfl)
        (hc₀.append (.of_flat (flat_singleton rfl rfl) (flat_singleton rfl rfl)))

/-- What is known of a procedure that is derived, but for its names being distinct. -/
theorem Grammar.IsProcedure.printable {rule : ReadRule} {c : List Lexeme} {p : Procedure}
    (h : IsProcedure rule c p) (hc : Scannable c) :
    (∀ name ∈ p.boundNames, Lexis.IsName name) ∧ Block.WellFormed p.body ∧
      ∀ filler, NoDeeper (p.unparse filler) c := by
  cases h with
  | @intro c₁ c₂ c₃ semicolon params locals block name line line₁ line₂ line₃ hparams hlocals hbody
      hsemicolon =>
    simp only [scannable_cons, scannable_append] at hc
    obtain ⟨-, hname, -, hc₁, hc₂, hc₃, -⟩ := hc
    have hblock := hbody.printable_of_isStatement hc₃
    refine ⟨?_, hblock.wellFormed, fun filler ↦ ?_⟩
    · refine List.forall_mem_cons.2 ⟨hname, List.forall_mem_append.2 ⟨?_, ?_⟩⟩
      · exact hparams.isName hc₁
      · exact hlocals.isName hc₂
    · obtain ⟨c₀, line', rfl, hc₀⟩ := hparams.noDeeper_names hc₁ filler
      have hlist : NoDeeper (⟨.symbol .leftParen, filler⟩ ::
            (unparseNames filler params ++ [⟨.symbol .rightParen, filler⟩]))
          (⟨.symbol .leftParen, line₂⟩ :: (c₀ ++ [⟨.symbol .rightParen, line'⟩])) :=
        hc₀.bracket rfl rfl rfl rfl
      have hinner : NoDeeper (⟨.identifier name, filler⟩ :: _) (⟨.identifier name, line₁⟩ :: _) :=
        .cons (flat_singleton rfl rfl) (flat_singleton rfl rfl)
          (hlist.append ((hlocals.noDeeper hc₂ filler).append (hblock.noDeeper filler)))
      have houter : NoDeeper
          (⟨.keyword .procedureKw, line⟩ :: (_ ++ [⟨.keyword .endKw, filler⟩]) ++ [])
          (⟨.keyword .procedureKw, line⟩ :: (_ ++ [⟨.keyword .endKw, line₃⟩]) ++ semicolon) :=
        (hinner.bracket rfl rfl rfl rfl).append
          (.of_flat flat_nil (flat_of_optional hsemicolon rfl rfl))
      simpa [Procedure.unparse] using houter

/-- Procedures. That the names in each are distinct is not the business of the grammar, and is
assumed. -/
theorem Grammar.IsProcedures.printable {rule : ReadRule} {c : List Lexeme} {ps : List Procedure}
    (h : IsProcedures rule c ps) (hc : Scannable c) (hdistinct : ∀ q ∈ ps, q.boundNames.Nodup) :
    (∀ q ∈ ps, q.WellFormed) ∧ ∀ filler, NoDeeper (ps.flatMap (·.unparse filler)) c := by
  induction h with
  | nil => exact ⟨nofun, fun _ ↦ .of_flat flat_nil flat_nil⟩
  | cons hp _ ih =>
    rw [scannable_append] at hc
    rw [List.forall_mem_cons] at hdistinct
    obtain ⟨hnames, hbody, hnoDeeper⟩ := hp.printable hc.1
    obtain ⟨hothers, hnoDeeper'⟩ := ih hc.2 hdistinct.2
    refine ⟨List.forall_mem_cons.2 ⟨⟨hnames, hdistinct.1, hbody⟩, hothers⟩, fun filler ↦ ?_⟩
    rw [List.flatMap_cons]
    exact (hnoDeeper filler).append (hnoDeeper' filler)

/-- A program derived from tokens that scanning delivers is well formed, and it is printed with no
more levels than it was derived from. -/
theorem Grammar.IsProgram.printable {rule : ReadRule} {c : List Lexeme} {p : Program}
    (h : IsProgram rule c p) (hc : Scannable c) (hdistinct : p.HasDistinctNames) :
    p.WellFormed ∧ ∀ filler, NoDeeper (p.unparse filler) c := by
  cases h with
  | intro hprocedures hstatements =>
    rw [scannable_append] at hc
    obtain ⟨hps, hnoDeeper⟩ := hprocedures.printable hc.1 hdistinct
    have hblock := hstatements.printable_of_isStatement hc.2
    refine ⟨⟨hps, hblock.wellFormed⟩, fun filler ↦ ?_⟩
    exact (hnoDeeper filler).append (hblock.noDeeper filler)

/-! ### There and back -/

/-- What is printed and not nested too deep is parsed as the program that has been printed. -/
theorem parse_unparse {p : Program} (h : p.WellFormed) {filler : Nat}
    (hdeep : tooDeep? maxNesting 0 (p.unparse filler) = none) (line : Nat) :
    Parser.parse Parser.program (p.unparse filler ++ [⟨.eof, line⟩]) = .ok (p, []) := by
  refine Parser.parse_program_eq_ok_iff.2 ⟨?_, ?_⟩
  · rwa [tooDeep?_append_of_flat (flat_singleton rfl rfl)]
  · exact Parser.parse_of_distinct (h.isProgram_unparse .attached filler) h.hasDistinctNames line []

theorem Journal.noteAll_silent (es : List Event) : silent.noteAll es = silent := by
  induction es with
  | nil => rfl
  | cons e es ih => exact ih

/-- What is parsed from a text has been scanned first. -/
theorem exists_of_parseProgram {source : String} {p : Program} (h : parseProgram source = .ok p) :
    ∃ lexemes rest, tokenize source = .ok lexemes ∧
      Parser.parse Parser.program lexemes = .ok (p, rest) := by
  unfold parseProgram parseAs parseNoting at h
  simp only [Journal.noteAll_silent] at h
  split at h
  · cases h
  · rename_i herror
    split at h
    · rename_i c hrun
      cases h
      refine ⟨(scan source).lexemes, c.rest, ?_, ?_⟩
      · simp only [tokenize, herror]
      · rw [Parser.parse, hrun]
    · cases h

/-- **Parsing undoes printing.** A well-formed program whose text is not nested too deep is parsed
from its text, lines included. Every program that is parsed from a source text is well formed and
its text is not nested too deep, so that it is parsed from its own text again. -/
theorem parses_exactly_printable :
    (∀ (p : Program) (filler line : Nat), p.WellFormed →
      tooDeep? maxNesting 0 (p.unparse filler) = none →
        Parser.parse Parser.program (p.unparse filler ++ [⟨.eof, line⟩]) = .ok (p, [])) ∧
    ∀ (source : String) (p : Program), parseProgram source = .ok p →
      p.WellFormed ∧ ∀ filler, tooDeep? maxNesting 0 (p.unparse filler) = none ∧
        ∀ line, Parser.parse Parser.program (p.unparse filler ++ [⟨.eof, line⟩]) = .ok (p, []) := by
  refine ⟨fun p filler line h hdeep ↦ parse_unparse h hdeep line, fun source p h ↦ ?_⟩
  obtain ⟨lexemes, rest, htokenize, hparse⟩ := exists_of_parseProgram h
  obtain ⟨hdeep, hunchecked⟩ := Parser.parse_program_eq_ok_iff.1 hparse
  obtain ⟨c, line, rfl, hderived, hdistinct⟩ := Parser.derived_of_parse hunchecked
  have hscannable := (scannable_append.1 (scannable_of_tokenize htokenize)).1
  obtain ⟨hwellFormed, hnoDeeper⟩ := hderived.printable hscannable hdistinct
  have hprinted : ∀ filler, tooDeep? maxNesting 0 (p.unparse filler) = none :=
    fun filler ↦ (hnoDeeper filler).tooDeep?_eq_none hdeep
  exact ⟨hwellFormed, fun filler ↦ ⟨hprinted filler, parse_unparse hwellFormed (hprinted filler)⟩⟩

/-- A difference on the right of another one, a sign, parentheses that are not printed and an
attached read. -/
theorem parses_exactly_printable_difference :
    let source := "display(3)-(a\n-(-1))read x"
    let difference : Expr :=
      .binary .sub (.variable "a" 1) (.binary .mul (.number .minusOne) (.number .one) 2) 2
    let p : Program :=
      ⟨[], [.display (.binary .sub (.number ⟨3, by decide⟩) difference 1) (some ⟨"x", 2⟩) 1]⟩
    let printed : List Lexeme :=
      [⟨.keyword .displayKw, 1⟩, ⟨.integer ⟨3, by decide⟩, 7⟩, ⟨.symbol .minus, 1⟩,
        ⟨.symbol .leftParen, 7⟩, ⟨.identifier "a", 1⟩, ⟨.symbol .minus, 2⟩, ⟨.symbol .minus, 2⟩,
        ⟨.integer .one, 7⟩, ⟨.symbol .rightParen, 7⟩, ⟨.keyword .readKw, 2⟩, ⟨.identifier "x", 7⟩,
        ⟨.symbol .semicolon, 7⟩]
    parseProgram source = .ok p ∧ p.unparse 7 = printed ∧ p.WellFormed ∧
      Parser.parse Parser.program (printed ++ [⟨.eof, 9⟩]) = .ok (p, []) := by
  intro source difference p printed
  have hscan : scan source = ⟨[⟨.keyword .displayKw, 1⟩, ⟨.symbol .leftParen, 1⟩,
      ⟨.integer ⟨3, by decide⟩, 1⟩, ⟨.symbol .rightParen, 1⟩, ⟨.symbol .minus, 1⟩,
      ⟨.symbol .leftParen, 1⟩, ⟨.identifier "a", 1⟩, ⟨.symbol .minus, 2⟩, ⟨.symbol .leftParen, 2⟩,
      ⟨.symbol .minus, 2⟩, ⟨.integer .one, 2⟩, ⟨.symbol .rightParen, 2⟩, ⟨.symbol .rightParen, 2⟩,
      ⟨.keyword .readKw, 2⟩, ⟨.identifier "x", 2⟩, ⟨.eof, 2⟩], none⟩ := by decide
  have hparse : parseProgram source = .ok p := by
    unfold parseProgram parseAs parseNoting
    rw [hscan]
    rfl
  obtain ⟨hwellFormed, hprinted⟩ := parses_exactly_printable.2 source p hparse
  exact ⟨hparse, rfl, hwellFormed, parses_exactly_printable.1 p 7 9 hwellFormed (hprinted 7).1⟩

end TinyProc
