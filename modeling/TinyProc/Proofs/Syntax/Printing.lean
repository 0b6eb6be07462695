import TinyProc.Proofs.Syntax.Completeness.Program
import TinyProc.Proofs.Token.Lexis

/-!
# Printing programs

A program is printed as the lexemes of a text with as few parentheses as the layers of the grammar
allow. An expression has a layer of its own, `Expr.tier`: it is a value, a value with a sign in
front of it, or operands joined by an operator of some level. Where a tighter layer is asked for,
and only there, it is put into parentheses (`grouped`). A multiplication by minus one is printed as
a sign.

The line of a node is printed on the token the node takes its line from. The other tokens have the
line `filler`.

Printing never fails, but not all trees come back. Those that do are the `WellFormed` ones: blocks
have statements, names are names, numbers have no sign but in the factor that stands for one, and a
procedure binds distinct names. What is printed is then derived by the grammar, as the tree that has
been printed (`Program.WellFormed.isProgram_unparse`).
-/

namespace TinyProc

open Grammar

/-! ### Layers -/

/-- The place of a layer, the tightest first. -/
def Grammar.Tier.rank : Tier → Nat
  | .value => 0
  | .signed => 1
  | .joined .multiplicative => 2
  | .joined .additive => 3
  | .joined .relational => 4

/-- No layer is looser than the one of whole expressions. -/
theorem Grammar.Tier.rank_le_whole (t : Tier) : t.rank ≤ Tier.whole.rank := by
  rcases t with _ | _ | (_ | _ | _) <;> decide

/-- Layers have different places. -/
theorem Grammar.Tier.rank_injective {t t' : Tier} (h : t.rank = t'.rank) : t = t' := by
  rcases t with _ | _ | (_ | _ | _) <;> rcases t' with _ | _ | (_ | _ | _) <;>
    first | rfl | cases h

/-- The operands of a level stand one place further in than what they are joined to. -/
theorem Grammar.rank_operands (level : Precedence) :
    (Tier.joined level).rank = (operands level).rank + 1 := by
  cases level <;> rfl

/-- What is derived in a layer is derived in every looser one. -/
theorem Grammar.IsExpr.loosen {t t' : Tier} {c : List Lexeme} {e : Expr} (h : IsExpr t c e)
    (hle : t.rank ≤ t'.rank) : IsExpr t' c e := by
  -- out of the looser layer and into that of its operands, until the two layers are the same
  induction hn : t'.rank generalizing t' with
  | zero =>
    obtain rfl : t = t' := Tier.rank_injective (by omega)
    exact h
  | succ n ih =>
    by_cases heq : t.rank = t'.rank
    · obtain rfl := Tier.rank_injective heq
      exact h
    · cases t' with
      | value => cases hn
      | signed =>
        change t.rank ≤ 1 at hle
        change t.rank ≠ 1 at heq
        obtain rfl : t = .value := Tier.rank_injective (show t.rank = 0 by omega)
        exact .plain h
      | joined level =>
        rw [rank_operands] at hn hle heq
        exact .operand (ih (by omega) (by omega))

/-! ### Expressions -/

/-- Whether an operator and its left operand stand for a sign: a multiplication by minus one. -/
def isSign (op : Operator) (left : Expr) : Prop :=
  op = .mul ∧ left = .number .minusOne

instance (op : Operator) : (left : Expr) → Decidable (isSign op left)
  | .number value => decidable_of_iff (op = .mul ∧ value = .minusOne) (by simp [isSign])
  | .variable .. | .binary .. | .call .. => .isFalse (by simp [isSign])

/-- The layer that an expression has without parentheses around it. -/
def Expr.tier : Expr → Tier
  | .number _ | .variable .. | .call .. => .value
  | .binary op left _ _ => if isSign op left then .signed else .joined op.precedence

theorem Expr.tier_of_isSign {op : Operator} {left : Expr} (h : isSign op left) (right : Expr)
    (line : Nat) : (Expr.binary op left right line).tier = .signed := by
  rw [tier, if_pos h]

/-- Whatever is no sign is printed with its operator, and so has the layer of that operator. -/
theorem Expr.tier_of_not_isSign {op : Operator} {left : Expr} (h : ¬ isSign op left)
    (right : Expr) (line : Nat) :
    (Expr.binary op left right line).tier = .joined op.precedence := by
  rw [tier, if_neg h]

/-- Texts with commas between them. -/
def withCommas (filler : Nat) (texts : List (List Lexeme)) : List Lexeme :=
  [⟨.symbol .comma, filler⟩].intercalate texts

/-- The first comma stands behind the first text. -/
theorem withCommas_cons_cons (filler : Nat) (c c' : List Lexeme) (texts : List (List Lexeme)) :
    withCommas filler (c :: c' :: texts) =
      c ++ ⟨.symbol .comma, filler⟩ :: withCommas filler (c' :: texts) := by
  rw [withCommas, List.intercalate_cons_cons, List.append_assoc]
  rfl

theorem withCommas_singleton (filler : Nat) (c : List Lexeme) : withCommas filler [c] = c :=
  List.intercalate_singleton

/-- The text of an expression, put into parentheses if its own layer is looser than `t`. -/
def grouped (filler : Nat) (t own : Tier) (c : List Lexeme) : List Lexeme :=
  if own.rank ≤ t.rank then c
  else ⟨.symbol .leftParen, filler⟩ :: (c ++ [⟨.symbol .rightParen, filler⟩])

mutual

/-- The text of an expression in its own layer. -/
def Expr.bare (filler : Nat) : Expr → List Lexeme
  | .number value => [⟨.integer value, filler⟩]
  | .variable name line => [⟨.identifier name, line⟩]
  | .binary op left right line =>
    if isSign op left then
      ⟨.symbol .minus, line⟩ :: grouped filler .value right.tier (right.bare filler)
    else
      grouped filler (.joined op.precedence) left.tier (left.bare filler) ++
        ⟨.symbol op.symbol, line⟩ ::
          grouped filler (operands op.precedence) right.tier (right.bare filler)
  | .call name arguments line =>
    ⟨.identifier name, line⟩ :: ⟨.symbol .leftParen, filler⟩ ::
      (withCommas filler (Expr.bareAll filler arguments) ++ [⟨.symbol .rightParen, filler⟩])

/-- The texts of expressions. -/
def Expr.bareAll (filler : Nat) : List Expr → List (List Lexeme)
  | [] => []
  | e :: es => e.bare filler :: Expr.bareAll filler es

end

/-- The text of an expression where the grammar asks for the layer `t`. -/
def Expr.unparse (filler : Nat) (t : Tier) (e : Expr) : List Lexeme :=
  grouped filler t e.tier (e.bare filler)

/-- Arguments are printed as whole expressions: the layer that they have always does. -/
theorem Expr.bareAll_eq_map (filler : Nat) (es : List Expr) :
    Expr.bareAll filler es = es.map (Expr.unparse filler .whole) := by
  induction es with
  | nil => rfl
  | cons e es ih => rw [bareAll, ih, List.map_cons, unparse, grouped, if_pos e.tier.rank_le_whole]

/-! ### Statements and programs -/

/-- The text of a read. -/
def ReadTarget.unparse (filler : Nat) (target : ReadTarget) : List Lexeme :=
  [⟨.keyword .readKw, target.line⟩, ⟨.identifier target.name, filler⟩]

mutual

/-- The text of a statement, without the semicolon behind it. -/
def Statement.unparse (filler : Nat) : Statement → List Lexeme
  | .assign name value line =>
    ⟨.identifier name, line⟩ :: ⟨.symbol .colonEquals, filler⟩ :: value.unparse filler .whole
  | .display value attached line =>
    ⟨.keyword .displayKw, line⟩ ::
      (value.unparse filler .whole ++ (attached.map (·.unparse filler)).getD [])
  | .read target => target.unparse filler
  | .branch condition thenBlock elseBlock line =>
    ⟨.keyword .ifKw, line⟩ :: (condition.unparse filler .whole ++ ⟨.keyword .thenKw, filler⟩ ::
      (Statement.unparseAll filler thenBlock ++
        (Statement.unparseElse filler elseBlock ++ [⟨.keyword .endKw, filler⟩])))
  | .loop condition body line =>
    ⟨.keyword .whileKw, line⟩ :: (condition.unparse filler .whole ++ ⟨.keyword .doKw, filler⟩ ::
      (Statement.unparseAll filler body ++ [⟨.keyword .endKw, filler⟩]))

/-- The text of a block: a semicolon stands after every statement. -/
def Statement.unparseAll (filler : Nat) : List Statement → List Lexeme
  | [] => []
  | s :: rest =>
    s.unparse filler ++ ⟨.symbol .semicolon, filler⟩ :: Statement.unparseAll filler rest

/-- The text of a second block, which may be missing. -/
def Statement.unparseElse (filler : Nat) : Option (List Statement) → List Lexeme
  | none => []
  | some block => ⟨.keyword .elseKw, filler⟩ :: Statement.unparseAll filler block

end

/-- The text of names with commas between them. -/
def unparseNames (filler : Nat) (names : List String) : List Lexeme :=
  withCommas filler (names.map fun name ↦ [⟨.identifier name, filler⟩])

/-- The text of the local variables, which is empty if there are none. -/
def unparseLocals (filler : Nat) : List String → List Lexeme
  | [] => []
  | names =>
    ⟨.keyword .varKw, filler⟩ :: (unparseNames filler names ++ [⟨.symbol .semicolon, filler⟩])

/-- The text of a procedure. -/
def Procedure.unparse (filler : Nat) (p : Procedure) : List Lexeme :=
  ⟨.keyword .procedureKw, p.line⟩ :: ⟨.identifier p.name, filler⟩ ::
    ⟨.symbol .leftParen, filler⟩ :: ((unparseNames filler p.params ++
      [⟨.symbol .rightParen, filler⟩]) ++ (unparseLocals filler p.locals ++
        (Statement.unparseAll filler p.body ++ [⟨.keyword .endKw, filler⟩])))

/-- The text of a program, without the end of the input behind it. -/
def Program.unparse (filler : Nat) (p : Program) : List Lexeme :=
  p.procedures.flatMap (·.unparse filler) ++ Statement.unparseAll filler p.statements

/-! ### Well-formed programs -/

/-- Numbers have no sign, but for the factor that stands for one, and names are names. -/
inductive Expr.WellFormed : Expr → Prop
  | number {value : Word} (h : 0 ≤ value.val) : WellFormed (.number value)
  | name {name : String} {line : Nat} (h : Lexis.IsName name) : WellFormed (.variable name line)
  | sign {e : Expr} {line : Nat} (h : WellFormed e) :
    WellFormed (.binary .mul (.number .minusOne) e line)
  | operation {op : Operator} {left right : Expr} {line : Nat} (hleft : WellFormed left)
    (hright : WellFormed right) : WellFormed (.binary op left right line)
  | call {name : String} {arguments : List Expr} {line : Nat} (hname : Lexis.IsName name)
    (harguments : ∀ e ∈ arguments, WellFormed e) : WellFormed (.call name arguments line)

/-- A well-formed operand is no minus one. -/
theorem Expr.WellFormed.not_isSign {left : Expr} (h : left.WellFormed) (op : Operator) :
    ¬ isSign op left := by
  rintro ⟨-, rfl⟩
  cases h with
  | number h => exact absurd h (by decide)

/-- Blocks have statements, and what statements are made of is well formed. -/
inductive Statement.WellFormed : Statement → Prop
  | assign {name : String} {e : Expr} {line : Nat} (hname : Lexis.IsName name)
    (he : e.WellFormed) : WellFormed (.assign name e line)
  | display {e : Expr} {attached : Option ReadTarget} {line : Nat} (he : e.WellFormed)
    (hattached : ∀ target ∈ attached, Lexis.IsName target.name) :
    WellFormed (.display e attached line)
  | read {target : ReadTarget} (hname : Lexis.IsName target.name) : WellFormed (.read target)
  | branch {e : Expr} {thenBlock : Block} {elseBlock : Option Block} {line : Nat}
    (he : e.WellFormed) (hthen : thenBlock ≠ []) (hthens : ∀ s ∈ thenBlock, WellFormed s)
    (helse : ∀ block ∈ elseBlock, block ≠ [])
    (helses : ∀ block ∈ elseBlock, ∀ s ∈ block, WellFormed s) :
    WellFormed (.branch e thenBlock elseBlock line)
  | loop {e : Expr} {body : Block} {line : Nat} (he : e.WellFormed) (hbody : body ≠ [])
    (hbodies : ∀ s ∈ body, WellFormed s) : WellFormed (.loop e body line)

/-- A block of well-formed statements, and not an empty one. -/
def Block.WellFormed (block : Block) : Prop :=
  block ≠ [] ∧ ∀ s ∈ block, s.WellFormed

/-- The names of a procedure are names and no two of them are the same, and its body is well formed.
-/
structure Procedure.WellFormed (p : Procedure) : Prop where
  /-- All names are names. -/
  isName : ∀ name ∈ p.boundNames, Lexis.IsName name
  /-- No name is bound twice. -/
  distinct : p.boundNames.Nodup
  /-- The body is a block of well-formed statements. -/
  body : Block.WellFormed p.body

/-- The procedures and the statements of a program are well formed. -/
structure Program.WellFormed (p : Program) : Prop where
  /-- The procedures are. -/
  procedures : ∀ q ∈ p.procedures, q.WellFormed
  /-- The statements are, and there are some. -/
  statements : Block.WellFormed p.statements

/-- In a well-formed program, no procedure binds a name twice. -/
theorem Program.WellFormed.hasDistinctNames {p : Program} (h : p.WellFormed) :
    p.HasDistinctNames :=
  fun q hq ↦ (h.procedures q hq).distinct

/-! ### What is printed is derived -/

/-- A text derived in its own layer, put into parentheses if need be, is derived in the layer that
is asked for. -/
theorem isExpr_grouped {own : Tier} {c : List Lexeme} {e : Expr} (h : IsExpr own c e) (filler : Nat)
    (t : Tier) : IsExpr t (grouped filler t own c) e := by
  unfold grouped
  split
  · rename_i hle
    exact h.loosen hle
  · have hgroup := IsExpr.group filler filler (h.loosen own.rank_le_whole)
    exact hgroup.loosen (Nat.zero_le _)

/-- What is derived item by item is derived as a list, once commas stand in between and the closing
token at the end. The items of the grammar are read from left to right, and so is the induction. -/
theorem commaList_withCommas {α : Type} {item : List Lexeme → α → Prop} {print : α → List Lexeme}
    {as : List α} (h : ∀ a ∈ as, item (print a) a) (filler : Nat) (closing : Token) :
    CommaList item closing (withCommas filler (as.map print) ++ [⟨closing, filler⟩]) as := by
  cases as with
  | nil => exact .empty filler
  | cons a as =>
    refine .filled ?_
    induction as generalizing a with
    | nil =>
      rw [List.map_singleton, withCommas_singleton]
      exact .last filler (h a List.mem_cons_self)
    | cons b as ih =>
      rw [List.map_cons, List.map_cons, withCommas_cons_cons, List.append_assoc, List.cons_append]
      exact .cons filler (h a List.mem_cons_self) (ih b fun x hx ↦ h x (List.mem_cons_of_mem _ hx))

/-- An expression is derived from its text in the layer that it is said to have. The sign is a case
of its own, as it is one of the trees that are printed without their operator. -/
theorem Expr.WellFormed.isExpr_bare {e : Expr} (h : e.WellFormed) (filler : Nat) :
    IsExpr e.tier (e.bare filler) e := by
  induction h with
  | @number value _ => exact .number value filler
  | @name name line _ => exact .name name line
  | @sign e line _ ih =>
    exact .minus line (isExpr_grouped ih filler .value)
  | @operation op left right line hleft _ ihleft ihright =>
    have hsign : ¬ isSign op left := hleft.not_isSign op
    rw [tier_of_not_isSign hsign, bare, if_neg hsign]
    exact .operation line (isExpr_grouped ihleft filler _) rfl (isExpr_grouped ihright filler _)
  | @call name arguments line _ _ ih =>
    rw [tier, bare, bareAll_eq_map]
    refine .call name line filler (commaList_withCommas (fun e he ↦ ?_) filler _)
    exact isExpr_grouped (ih e he) filler .whole

/-- An expression is derived from its text in whatever layer is asked for. -/
theorem Expr.WellFormed.isExpr_unparse {e : Expr} (h : e.WellFormed) (filler : Nat) (t : Tier) :
    IsExpr t (e.unparse filler t) e :=
  isExpr_grouped (h.isExpr_bare filler) filler t

/-- A block is derived from the texts of its statements. Since each of them has its semicolon, no
read is ever attached to the display in front of it. -/
theorem sequence_unparseAll {rule : ReadRule} {block : Block} (hne : block ≠ []) {filler : Nat}
    (h : ∀ s ∈ block, IsStatement rule (s.unparse filler) s) :
    Sequence rule (IsStatement rule) (Statement.unparseAll filler block) block := by
  cases block with
  | nil => exact absurd rfl hne
  | cons s block =>
    have hsemicolon : Optional (.symbol .semicolon) [⟨.symbol .semicolon, filler⟩] :=
      .inr ⟨filler, rfl⟩
    induction block generalizing s with
    | nil => exact .last (h s List.mem_cons_self) hsemicolon
    | cons s' block ih =>
      -- the strict rule is about what has no semicolon behind it
      have hallows : rule.Allows s [⟨.symbol .semicolon, filler⟩]
          (Statement.unparseAll filler (s' :: block)) := by
        cases rule with
        | free => exact trivial
        | attached => exact fun _ ↦ nofun
      exact .cons (h s List.mem_cons_self) hsemicolon hallows
        (ih s' (List.cons_ne_nil _ _) fun x hx ↦ h x (List.mem_cons_of_mem _ hx))

/-- A statement is derived from its text, by either rule for reads. -/
theorem Statement.WellFormed.isStatement_unparse {s : Statement} (h : s.WellFormed)
    (rule : ReadRule) (filler : Nat) : IsStatement rule (s.unparse filler) s := by
  induction h with
  | @assign name e line _ he =>
    exact .assign name line filler (.inl rfl) (.inl rfl) (he.isExpr_unparse filler .whole)
  | @display e attached line he _ =>
    cases attached with
    | none =>
      rw [unparse]
      simp only [Option.map_none, Option.getD_none, List.append_nil]
      exact .display line (he.isExpr_unparse filler .whole)
    | some target =>
      exact .displayRead target.name line target.line filler (he.isExpr_unparse filler .whole)
  | @read target _ => exact .read target.name target.line filler
  | @branch e thenBlock elseBlock line he hthen _ helse _ ihthen ihelse =>
    cases elseBlock with
    | none =>
      exact .branch line filler filler (he.isExpr_unparse filler .whole)
        (sequence_unparseAll hthen ihthen)
    | some block =>
      exact .branchElse line filler filler filler (he.isExpr_unparse filler .whole)
        (sequence_unparseAll hthen ihthen)
        (sequence_unparseAll (helse block rfl) (ihelse block rfl))
  | @loop e body line he hbody _ ih =>
    exact .loop line filler filler (he.isExpr_unparse filler .whole) (sequence_unparseAll hbody ih)

theorem Block.WellFormed.sequence_unparse {block : Block} (h : Block.WellFormed block)
    (rule : ReadRule) (filler : Nat) :
    Sequence rule (IsStatement rule) (Statement.unparseAll filler block) block :=
  sequence_unparseAll h.1 fun s hs ↦ (h.2 s hs).isStatement_unparse rule filler

/-- Names are derived from their text as a list. -/
theorem commaList_unparseNames (filler : Nat) (closing : Token) (names : List String) :
    CommaList IsName closing (unparseNames filler names ++ [⟨closing, filler⟩]) names :=
  commaList_withCommas (fun _ _ ↦ ⟨filler, rfl⟩) filler closing

/-- Local variables are derived from their text. If there are none, the keyword is left out. -/
theorem isLocals_unparseLocals (filler : Nat) (names : List String) :
    IsLocals (unparseLocals filler names) names := by
  cases names with
  | nil => exact .none
  | cons name names => exact .some filler (commaList_unparseNames filler _ _)

/-- A procedure is derived from its text, without the optional semicolon behind it. -/
theorem Procedure.WellFormed.isProcedure_unparse {p : Procedure} (h : p.WellFormed)
    (rule : ReadRule) (filler : Nat) : IsProcedure rule (p.unparse filler) p :=
  .intro p.name p.line filler filler filler (commaList_unparseNames filler _ _)
    (isLocals_unparseLocals filler _) (h.body.sequence_unparse rule filler) (.inl rfl)

/-- What is printed is derived by the grammar, as the tree that has been printed. -/
theorem Program.WellFormed.isProgram_unparse {p : Program} (h : p.WellFormed) (rule : ReadRule)
    (filler : Nat) : IsProgram rule (p.unparse filler) p := by
  have hprocedures : ∀ ps : List Procedure, (∀ q ∈ ps, q.WellFormed) →
      IsProcedures rule (ps.flatMap (·.unparse filler)) ps := by
    intro ps hps
    induction ps with
    | nil => exact .nil
    | cons q ps ih =>
      exact .cons ((hps q List.mem_cons_self).isProcedure_unparse rule filler)
        (ih fun r hr ↦ hps r (List.mem_cons_of_mem _ hr))
  exact .intro (hprocedures p.procedures h.procedures)
    (h.statements.sequence_unparse rule filler)

end TinyProc
