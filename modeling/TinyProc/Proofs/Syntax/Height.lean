import TinyProc.Proofs.Syntax.Composition
import TinyProc.Proofs.Token.Rendering

/-!
# How tall expressions get

Evaluation recurses on expressions, as deep as they are tall. The limit on nesting counts what opens
a level in the text, and a text without any level can have a tree as tall as one likes: the operands
of one level of precedence are gathered in a loop, and the tree that comes out leans to the left by
as many nodes as there are operators (`flatSum`).

What the limit does bound is the height in *rungs*, where operations of one level that are grouped
to the left make up one rung together. Between a parenthesis and the next there are at most four
layers of operators and signs, and a call is a fifth (`IsExpr.exists_needs`). A rung is as tall as
the number of operands that are joined in it, so that the height is bounded by the number of rungs
and the longest of these chains (`Expr.height_le`).
-/

namespace TinyProc

open Grammar

/-! ### Heights -/

/-- Whether an expression is an operation of the given level. -/
def Expr.isOperation (level : Precedence) : Expr → Bool
  | .binary op _ _ _ => op.precedence = level
  | _ => false

section Measure

variable (binary : Operator → Expr → Nat → Nat → Nat) (call : Nat → Nat)

mutual

/-- A measure of expressions that is one for numbers and variables. For an operation it depends on
the left operand itself and on what both operands measure, for a call on the largest argument. -/
def Expr.measure : Expr → Nat
  | .number _ | .variable _ _ => 1
  | .binary op left right _ => binary op left left.measure right.measure
  | .call _ arguments _ => call (Expr.measureAll arguments)

/-- The largest of several expressions. -/
def Expr.measureAll : List Expr → Nat
  | [] => 0
  | e :: rest => max e.measure (Expr.measureAll rest)

end

theorem Expr.measureAll_le_iff {es : List Expr} {n : Nat} :
    Expr.measureAll binary call es ≤ n ↔ ∀ e ∈ es, e.measure binary call ≤ n := by
  induction es with
  | nil => simp [Expr.measureAll]
  | cons e es ih => rw [Expr.measureAll, Nat.max_le, ih, List.forall_mem_cons]

end Measure

namespace Expr

/-- The number of nodes on the longest way down. -/
def height : Expr → Nat :=
  measure (fun _ _ left right ↦ max left right + 1) (· + 1)

/-- The height, operations of one level that are grouped to the left being one rung. -/
def rungs : Expr → Nat :=
  measure (fun op operand left right ↦
    max (if operand.isOperation op.precedence then left else left + 1) (right + 1)) (· + 1)

/-- How many operands the operations of one level join that are grouped to the left. -/
def joined : Expr → Nat
  | .binary op left _ _ => (if left.isOperation op.precedence then left.joined else 1) + 1
  | _ => 1

/-- The largest number of operands that are joined anywhere in an expression. -/
def longestChain : Expr → Nat :=
  measure (fun op operand left right ↦
    max ((if operand.isOperation op.precedence then operand.joined else 1) + 1) (max left right))
    (max 1)

/-- The rungs of an expression where operands of a level are gathered. An expression that is no
operation of the level takes a rung of its own. -/
def rungsOn (level : Precedence) (e : Expr) : Nat :=
  if e.isOperation level then e.rungs else e.rungs + 1

/-- The left operand stands on the same rung if it is an operation of the same level. -/
theorem rungs_binary (op : Operator) (left right : Expr) (line : Nat) :
    (Expr.binary op left right line).rungs =
      max (left.rungsOn op.precedence) (right.rungs + 1) := rfl

/-- A call is one rung above the tallest of its arguments. -/
theorem rungs_call_le_iff {name : String} {arguments : List Expr} {line n : Nat} :
    (Expr.call name arguments line).rungs ≤ n + 1 ↔ ∀ e ∈ arguments, e.rungs ≤ n :=
  Nat.succ_le_succ_iff.trans (measureAll_le_iff ..)

theorem height_call_le_iff {name : String} {arguments : List Expr} {line n : Nat} :
    (Expr.call name arguments line).height ≤ n + 1 ↔ ∀ e ∈ arguments, e.height ≤ n :=
  Nat.succ_le_succ_iff.trans (measureAll_le_iff ..)

/-- Where operands of a level are gathered, one more is gathered from the right. -/
theorem rungsOn_binary {op : Operator} {level : Precedence} (h : op.precedence = level)
    (left right : Expr) (line : Nat) :
    (Expr.binary op left right line).rungsOn level =
      max (left.rungsOn level) (right.rungs + 1) := by
  subst h
  rw [rungsOn, if_pos (by simp [isOperation]), rungs_binary]

theorem rungsOn_le (level : Precedence) (e : Expr) : e.rungsOn level ≤ e.rungs + 1 := by
  unfold rungsOn
  split <;> omega

theorem rungs_le_rungsOn (level : Precedence) (e : Expr) : e.rungs ≤ e.rungsOn level := by
  unfold rungsOn
  split <;> omega

/-! ### Rungs and chains -/

/-- The chain at the top of an expression is one of its chains. -/
theorem joined_le_longestChain (e : Expr) : e.joined ≤ e.longestChain := by
  cases e with
  | binary op left right line => exact Nat.le_max_left ..
  | call name arguments line => exact Nat.le_max_left ..
  | _ => exact Nat.le_refl 1

/-- The topmost rung is as tall as the operands that are joined on it, and every other one at most
as tall as `k`. -/
def HeightWithin (k : Nat) (e : Expr) : Prop :=
  e.height + k ≤ e.rungs * k + e.joined

/-- With room on the topmost rung for its own chain, the height is bounded by the rungs. -/
theorem HeightWithin.height_le {e : Expr} {k : Nat} (h : e.HeightWithin k)
    (hk : e.longestChain ≤ k) : e.height ≤ e.rungs * k := by
  have hjoined := e.joined_le_longestChain
  unfold HeightWithin at h
  omega

/-- One rung more, with room for `k` on it. -/
theorem add_le_of_succ_le {height rungs rungs' k : Nat} (h : height ≤ rungs * k)
    (hrungs : rungs + 1 ≤ rungs') : height + k ≤ rungs' * k := by
  have hmul := Nat.mul_le_mul_right k hrungs
  rw [Nat.succ_mul] at hmul
  omega

/-- An operation is one node above its operands. If the left one is on the same rung, the chain gets
longer by one; otherwise there is a rung more. -/
theorem heightWithin_binary {op : Operator} {left right : Expr} {line k : Nat}
    (h : (Expr.binary op left right line).longestChain ≤ k) (hleft : left.HeightWithin k)
    (hright : right.HeightWithin k) : (Expr.binary op left right line).HeightWithin k := by
  obtain ⟨-, hchains⟩ := Nat.max_le.1 h
  obtain ⟨hchain, hchain'⟩ := Nat.max_le.1 hchains
  have hheight : (Expr.binary op left right line).height = max left.height right.height + 1 := rfl
  have hjoined : (Expr.binary op left right line).joined =
    (if left.isOperation op.precedence then left.joined else 1) + 1 := by rw [joined]
  obtain ⟨hle, hle'⟩ := Nat.max_le.1 (Nat.le_of_eq (rungs_binary op left right line).symm)
  have hbelow := add_le_of_succ_le (hright.height_le hchain') hle'
  have hmine := hleft.height_le hchain
  unfold HeightWithin at hleft ⊢
  by_cases hop : left.isOperation op.precedence
  · -- the left operand stands on the same rung
    rw [rungsOn, if_pos hop] at hle
    rw [if_pos hop] at hjoined
    have hsame := Nat.mul_le_mul_right k hle
    omega
  · rw [rungsOn, if_neg hop] at hle
    rw [if_neg hop] at hjoined
    have hbelow' := add_le_of_succ_le hmine hle
    omega

/-- A call starts a chain of its own, above all of its arguments. -/
theorem heightWithin_call {name : String} {arguments : List Expr} {line k : Nat}
    (harguments : ∀ e ∈ arguments, e.height ≤ e.rungs * k) :
    (Expr.call name arguments line).HeightWithin k := by
  obtain ⟨n, hn⟩ : ∃ n, (Expr.call name arguments line).rungs = n + 1 := ⟨_, rfl⟩
  have hrungs := rungs_call_le_iff.1 (Nat.le_of_eq hn)
  have hheight : (Expr.call name arguments line).height ≤ n * k + 1 :=
    height_call_le_iff.2 fun e he ↦
      Nat.le_trans (harguments e he) (Nat.mul_le_mul_right k (hrungs e he))
  have hjoined : (Expr.call name arguments line).joined = 1 := by rw [joined]; nofun
  unfold HeightWithin
  rw [hn, Nat.succ_mul, hjoined]
  omega

mutual

/-- No rung is taller than the longest chain, by induction along the expression. -/
theorem heightWithin : (e : Expr) → {k : Nat} → e.longestChain ≤ k → e.HeightWithin k
  | .number _, k, _ => by
    show 1 + k ≤ 1 * k + 1
    omega
  | .variable _ _, k, _ => by
    show 1 + k ≤ 1 * k + 1
    omega
  | .binary op left right line, k, h => by
    obtain ⟨hleft, hright⟩ := Nat.max_le.1 (Nat.max_le.1 h).2
    exact heightWithin_binary h (heightWithin left hleft) (heightWithin right hright)
  | .call _ arguments _, k, h => by
    have hchains := (measureAll_le_iff ..).1 (Nat.max_le.1 h).2
    exact heightWithin_call fun e he ↦
      (heightWithinAll arguments e he (hchains e he)).height_le (hchains e he)

theorem heightWithinAll : (es : List Expr) → {k : Nat} →
    ∀ e ∈ es, e.longestChain ≤ k → e.HeightWithin k
  | [], _ => nofun
  | e :: es, _ => List.forall_mem_cons.2 ⟨heightWithin e, heightWithinAll es⟩

end

/-- An expression is at most as tall as its longest chain on every rung. -/
theorem height_le (e : Expr) : e.height ≤ e.rungs * e.longestChain :=
  (heightWithin e (Nat.le_refl _)).height_le (Nat.le_refl _)

end Expr

/-! ### Rungs and levels -/

/-- The rungs of an expression in a layer. -/
def Grammar.Tier.rungs : Tier → Expr → Nat
  | .joined level, e => e.rungsOn level
  | _, e => e.rungs

/-- In a layer of operators an expression takes as many rungs as it has or one more. -/
theorem Grammar.Tier.le_rungs (t : Tier) (e : Expr) : e.rungs ≤ t.rungs e := by
  cases t with
  | value => exact Nat.le_refl _
  | signed => exact Nat.le_refl _
  | joined level => exact e.rungs_le_rungsOn level

/-- The list takes as many levels as expressions with so many rungs ask for. -/
def Covers (c : List Lexeme) (es : List Expr) : Prop :=
  ∃ n, Needs n c ∧ ∀ e ∈ es, e.rungs ≤ 5 * n + 5

/-- Putting lists together, the levels are those of the deepest list, and none of the expressions
gets more rungs. -/
theorem compositional_covers : Compositional Covers where
  flat hc := ⟨0, needs_of_flat hc, List.forall_mem_nil _⟩
  append := by
    rintro c d es es' ⟨n, hn, hes⟩ ⟨m, hm, hes'⟩
    refine ⟨max n m, hn.append hm, List.forall_mem_append.2 ⟨fun e he ↦ ?_, fun e he ↦ ?_⟩⟩
    · have hle := hes e he
      omega
    · have hle := hes' e he
      omega
  bracket := by
    rintro a b c es hab ⟨n, hn, hes⟩
    have hbracket := hn.bracket (opensLevel_of_closing? hab) (closesLevel_of_closing? hab)
    exact ⟨n, hbracket.anti (Nat.le_succ n), hes⟩

/-- An expression that takes its layers and no more is covered by its list. -/
theorem covers_singleton {c : List Lexeme} {e : Expr}
    (h : ∃ n, Needs n c ∧ Tier.whole.rungs e ≤ 5 * n + Tier.whole.rank + 1) : Covers c [e] := by
  obtain ⟨n, hn, hrungs⟩ := h
  exact ⟨n, hn, List.forall_mem_singleton.2 (Nat.le_trans (Tier.whole.le_rungs e) hrungs)⟩

/-- A token that opens no level in front of a list. -/
theorem Needs.cons {a : Lexeme} {c : List Lexeme} {n : Nat} (ha : Flat [a]) (hc : Needs n c) :
    Needs n (a :: c) :=
  ((needs_of_flat ha).append hc).anti (Nat.le_max_right 0 n)

/-- Between two levels there are the layers of operators and signs and at most one call. -/
theorem Grammar.IsExpr.exists_needs {t : Tier} {c : List Lexeme} {e : Expr} (h : IsExpr t c e) :
    ∃ n, Needs n c ∧ t.rungs e ≤ 5 * n + t.rank + 1 := by
  have hwhole : Tier.whole.rank = 4 := rfl
  induction h using IsExpr.induction with
  | number value line => exact ⟨0, needs_of_flat (flat_singleton rfl rfl), Nat.le_refl 1⟩
  | name name line => exact ⟨0, needs_of_flat (flat_singleton rfl rfl), Nat.le_refl 1⟩
  | @group c e line line' _ ih =>
    obtain ⟨n, hn, hrungs⟩ := ih
    refine ⟨n + 1, hn.bracket rfl rfl, ?_⟩
    have hle := Tier.whole.le_rungs e
    show e.rungs ≤ _
    omega
  | @call c arguments name line line' _ harguments =>
    obtain ⟨c₀, line'', rfl, n, hn, hrungs⟩ :=
      harguments.compose compositional_covers (fun e ↦ [e]) fun c e ⟨_, ih⟩ ↦ covers_singleton ih
    rw [List.flatMap_singleton'] at hrungs
    refine ⟨n + 1, (hn.bracket rfl rfl).cons (flat_singleton rfl rfl), ?_⟩
    exact Expr.rungs_call_le_iff.2 hrungs
  | plain _ ih =>
    obtain ⟨n, hn, hrungs⟩ := ih
    exact ⟨n, hn, Nat.le_succ_of_le hrungs⟩
  | @minus c e line _ ih =>
    obtain ⟨n, hn, hrungs⟩ := ih
    have hsign : (Expr.binary .mul (.number .minusOne) e line).rungs = max 2 (e.rungs + 1) := rfl
    refine ⟨n, hn.cons (flat_singleton rfl rfl), ?_⟩
    show Expr.rungs _ ≤ 5 * n + 1 + 1
    change e.rungs ≤ 5 * n + 0 + 1 at hrungs
    omega
  | @operand level c e _ ih =>
    obtain ⟨n, hn, hrungs⟩ := ih
    have hle := e.rungsOn_le level
    have hle' := (operands level).le_rungs e
    refine ⟨n, hn, ?_⟩
    rw [rank_operands]
    show e.rungsOn level ≤ _
    omega
  | @operation level op c c' left right line _ hop _ ihleft ihright =>
    obtain ⟨n, hn, hleft⟩ := ihleft
    obtain ⟨m, hm, hright⟩ := ihright
    have hle := (operands level).le_rungs right
    refine ⟨max n m, hn.append (hm.cons (op.flat_symbol line)), ?_⟩
    show (Expr.binary op left right line).rungsOn level ≤ _
    change left.rungsOn level ≤ _ at hleft
    -- on the left the layer is the same, and only the right operand takes a rung more
    rw [Expr.rungsOn_binary hop]
    rw [rank_operands] at hleft ⊢
    omega

/-! ### Accepted programs -/

/-- What is scanned and then parsed is parsed from the text. -/
theorem parseProgram_of_tokenize {source : String} {lexemes rest : List Lexeme} {p : Program}
    (htokenize : tokenize source = .ok lexemes)
    (hparse : Parser.parse Parser.program lexemes = .ok (p, rest)) :
    parseProgram source = .ok p := by
  obtain ⟨j, hrun⟩ := Parser.parse_eq_ok_iff.1 hparse
  unfold tokenize at htokenize
  unfold parseProgram parseAs parseNoting Parser.runFrom
  cases herror : (scan source).error? with
  | some e =>
    simp only [herror] at htokenize
    cases htokenize
  | none =>
    simp only [herror] at htokenize
    cases htokenize
    simp only [herror, Journal.noteAll_silent, hrun]

/-- **The nesting bounds expressions in rungs.** In a program that is accepted, an expression has at
most five rungs for each level that may be nested, and five more. So it is at most as many times as
tall as the longest chain of operands that are joined in it. -/
theorem rungs_bounded_by_nesting {source : String} {p : Program}
    (h : parseProgram source = .ok p) :
    ∀ e ∈ p.expressions, e.rungs ≤ 5 * maxNesting + 5 ∧
      e.height ≤ (5 * maxNesting + 5) * e.longestChain := by
  obtain ⟨lexemes, rest, -, hparse⟩ := exists_of_parseProgram h
  obtain ⟨hdeep, hunchecked⟩ := Parser.parse_program_eq_ok_iff.1 hparse
  obtain ⟨c, line, rfl, hderived, -⟩ := Parser.derived_of_parse hunchecked
  obtain ⟨n, hneeds, hrungs⟩ :=
    hderived.compose compositional_covers fun _ _ he ↦ covers_singleton he.exists_needs
  obtain ⟨hn, -⟩ := hneeds maxNesting 0 _ (Nat.zero_le _) hdeep
  intro e he
  have hle : e.rungs ≤ 5 * maxNesting + 5 := by
    have hle := hrungs e he
    omega
  exact ⟨hle, Nat.le_trans e.height_le (Nat.mul_le_mul_right _ hle)⟩

/-- A chain of three operands, of which the last is a product with a sign in it. -/
theorem rungs_bounded_by_nesting_difference :
    let product : Expr :=
      .binary .mul (.variable "b" 2) (.binary .mul (.number .minusOne) (.number .one) 2) 2
    let e : Expr :=
      .binary .sub (.binary .sub (.number .one) (.variable "a" 1) 1) product 1
    parseProgram "display 1-a-\nb*-1" = .ok ⟨[], [.display e none 1]⟩ ∧
      (e.rungs = 4 ∧ e.height = 4 ∧ e.longestChain = 3) ∧
        e.rungs ≤ 5 * maxNesting + 5 ∧ e.height ≤ (5 * maxNesting + 5) * e.longestChain := by
  intro product e
  have htokenize : tokenize "display 1-a-\nb*-1" = .ok [⟨.keyword .displayKw, 1⟩,
      ⟨.integer .one, 1⟩, ⟨.symbol .minus, 1⟩, ⟨.identifier "a", 1⟩, ⟨.symbol .minus, 1⟩,
      ⟨.identifier "b", 2⟩, ⟨.symbol .star, 2⟩, ⟨.symbol .minus, 2⟩, ⟨.integer .one, 2⟩,
      ⟨.eof, 2⟩] := by decide +kernel
  have hparse : parseProgram "display 1-a-\nb*-1" = .ok ⟨[], [.display e none 1]⟩ :=
    parseProgram_of_tokenize htokenize rfl
  exact ⟨hparse, ⟨rfl, rfl, rfl⟩, rungs_bounded_by_nesting hparse e List.mem_cons_self⟩

/-! ### Flat sums -/

/-- So many operators between ones, without a parenthesis. -/
def flatSum : Nat → Expr
  | 0 => .number .one
  | n + 1 => .binary .add (flatSum n) (.number .one) 1

/-- The text of a flat sum. -/
def flatSumLexemes : Nat → List Lexeme
  | 0 => [⟨.integer .one, 1⟩]
  | n + 1 => flatSumLexemes n ++ [⟨.symbol .plus, 1⟩, ⟨.integer .one, 1⟩]

/-- It is as tall as it is long. -/
theorem height_flatSum (n : Nat) : (flatSum n).height = n + 1 := by
  induction n with
  | zero => rfl
  | succ n ih =>
    have hheight : (flatSum (n + 1)).height = max (flatSum n).height 1 + 1 := rfl
    omega

/-- A flat sum is derived from its text, one operation on top of the other. -/
theorem isExpr_flatSum (n : Nat) : IsExpr .whole (flatSumLexemes n) (flatSum n) := by
  have hone : IsExpr (.joined .multiplicative) [⟨.integer .one, 1⟩] (.number .one) :=
    .operand (.plain (.number .one 1))
  have hsum : IsExpr (.joined .additive) (flatSumLexemes n) (flatSum n) := by
    induction n with
    | zero => exact .operand hone
    | succ n ih => exact @IsExpr.operation _ .add _ _ _ _ 1 ih rfl hone
  exact .operand hsum

/-- The text has two kinds of tokens, and neither opens a level. -/
theorem mem_flatSumLexemes {n : Nat} {t : Lexeme} (h : t ∈ flatSumLexemes n) :
    t = ⟨.integer .one, 1⟩ ∨ t = ⟨.symbol .plus, 1⟩ := by
  induction n with
  | zero => exact .inl (List.mem_singleton.1 h)
  | succ n ih =>
    rcases List.mem_append.1 h with h | h
    · exact ih h
    · simpa [or_comm] using h

/-- The lexemes of a program that displays a flat sum. -/
def flatSumProgram (n : Nat) : List Lexeme :=
  ⟨.keyword .displayKw, 1⟩ :: flatSumLexemes n

/-- The program is accepted, however long the sum. Its text is laid out on one line, so that all
nodes have this line. -/
theorem parseProgram_flatSum (n : Nat) :
    parseProgram (layOut (flatSumProgram n ++ [⟨.eof, 1⟩])) =
      .ok ⟨[], [.display (flatSum n) none 1]⟩ := by
  have hall : ∀ {P : Lexeme → Prop}, P ⟨.keyword .displayKw, 1⟩ → P ⟨.integer .one, 1⟩ →
      P ⟨.symbol .plus, 1⟩ → ∀ t ∈ flatSumProgram n, P t := by
    intro P hdisplay hone hplus
    refine List.forall_mem_cons.2 ⟨hdisplay, fun t ht ↦ ?_⟩
    rcases mem_flatSumLexemes ht with rfl | rfl
    · exact hone
    · exact hplus
  have hline : ∀ t ∈ flatSumProgram n ++ [⟨.eof, 1⟩], t.line = 1 :=
    List.forall_mem_append.2 ⟨hall rfl rfl rfl, List.forall_mem_singleton.2 rfl⟩
  have htokenize : tokenize (layOut (flatSumProgram n ++ [⟨.eof, 1⟩])) =
      .ok (flatSumProgram n ++ [⟨.eof, 1⟩]) := by
    refine tokenize_layOut rfl (hall (by decide) (by decide) (by decide)) ?_ fun t ht ↦ ?_
    · exact List.pairwise_of_forall_mem_list fun a ha b hb ↦
        Nat.le_of_eq ((hline a ha).trans (hline b hb).symm)
    · exact Nat.le_of_eq (hline t ht).symm
  have hflat : Flat (flatSumProgram n) := hall (by decide) (by decide) (by decide)
  have hdeep : tooDeep? maxNesting 0 (flatSumProgram n ++ [⟨.eof, 1⟩]) = none := by
    rw [tooDeep?_of_flat hflat]
    rfl
  have hderived : IsProgram .attached (flatSumProgram n) ⟨[], [.display (flatSum n) none 1]⟩ := by
    have hlast : Sequence .attached (IsStatement .attached) (flatSumProgram n ++ [])
        [.display (flatSum n) none 1] := .last (.display 1 (isExpr_flatSum n)) (.inl rfl)
    rw [List.append_nil] at hlast
    exact .intro .nil hlast
  exact parseProgram_of_tokenize htokenize
    (Parser.parse_program_eq_ok_iff.2 ⟨hdeep, Parser.parse_of_distinct hderived nofun 1 []⟩)

/-- The limit on nesting is no limit on the height of expressions. -/
theorem height_unbounded :
    ¬ ∃ bound : Nat, ∀ (source : String) (p : Program), parseProgram source = .ok p →
      ∀ e ∈ p.expressions, e.height ≤ bound := by
  rintro ⟨bound, h⟩
  have hle := h _ _ (parseProgram_flatSum bound) (flatSum bound) List.mem_cons_self
  rw [height_flatSum] at hle
  omega

end TinyProc
