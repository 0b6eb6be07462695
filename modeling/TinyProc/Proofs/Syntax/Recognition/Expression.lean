import TinyProc.Proofs.Syntax.Recognition.Lists

/-!
# Expressions are recognised

One lemma for each layer of expressions. The layers of operators are instances of one loop, which
extends a left operand as far as it can; what it may be extended by is `Extends`. The knot is tied
by induction on the levels of the first of the two parsers.
-/

namespace TinyProc.Parser

open Grammar

variable {α : Type} {n : Nat}

/-- The parser of what stands inside recognises a language, if a level is left for it. Where it is
there, so is the other one. -/
def RecognisesInside (G : List Lexeme → α → Prop) : (inside? inside'? : Option (Parser α)) → Prop
  | none, _ => True
  | some x, some y => ∀ n, Recognises n G x (fun _ ↦ y)
  | some _, none => False

/-! ### Values -/

section Values

variable {inside? inside'? : Option (Parser Expr)}

/-- What is taken after a name that begins a value and the parenthesis behind it. -/
def AfterName (name : String) (line : Nat) : Option Nat → List Lexeme → Expr → Prop
  | none, c, e => c = [] ∧ e = .variable name line
  | some _, c, e => ∃ arguments, CommaList (IsExpr .whole) (.symbol .rightParen) c arguments ∧
      e = .call name arguments line

/-- What follows a name is nothing or the arguments of a call, according to whether a parenthesis
was taken. Where the parenthesis opens a level too many the parser fails with an error that nothing
is claimed about. -/
theorem afterName_recognises (hinside : RecognisesInside (IsExpr .whole) inside? inside'?)
    (name : String) (line : Nat) (line? : Option Nat) :
    Recognises n (AfterName name line line?) (afterName inside? name line line?)
      (fun _ ↦ afterName inside'? name line line?) := by
  rcases line? with _ | line'
  · exact .pure _
  rcases inside? with _ | x
  · exact ⟨⟨_, _, [], .empty 0, rfl⟩, fun _ _ _ ↦ trivial⟩
  rcases inside'? with _ | y
  · exact hinside.elim
  refine ((commaList_recognises hinside).andThen fun arguments ↦ .pure _).imp ?_
  rintro c e ⟨c₁, arguments, c₂, rfl, harguments, rfl, rfl⟩
  rw [List.append_nil]
  exact ⟨arguments, harguments, rfl⟩

/-- Every kind of value is told by its first token, and no other token is expected there. -/
theorem value_recognises (hinside : RecognisesInside (IsExpr .whole) inside? inside'?) :
    Recognises n (IsExpr .value) (value inside?) (fun _ ↦ value inside'?) := by
  have hproductive : ∃ c e, IsExpr .value c e := ⟨_, _, .number .zero 0⟩
  refine .of_head hproductive (fun _ ↦ hproductive) fun ⟨token, line⟩ ts j _ ↦ ?_
  cases token with
  | symbol symbol =>
    cases symbol with
    | leftParen =>
      -- without a level left nothing is claimed, and the second parser has as many at least
      rcases inside? with _ | x
      · trivial
      rcases inside'? with _ | y
      · exact hinside.elim
      have hrest := ((hinside ts.length).andThen fun e ↦
        (expect_recognises (.symbol .rightParen)).andThen fun _ ↦ .pure e).explained ts j
          (Nat.le_refl _)
      refine (hrest.imp ?_).shift fun _ _ ↦ rfl
      rintro c e ⟨c₁, e', c₂, rfl, he, c₃, line', c₄, rfl, rfl, rfl, rfl⟩
      exact .group line line' he
    | _ => exact .failAt hproductive fun _ ts' ↦ ⟨⟨_, j⟩, rfl⟩
  | integer value => exact .token (.number value line) fun _ _ ↦ rfl
  | identifier name =>
    have hrest := ((take?_recognises (.symbol .leftParen)).andThen fun line? ↦
      afterName_recognises hinside name line line?).explained ts j (Nat.le_refl ts.length)
    rw [value_identifier]
    refine (hrest.imp ?_).shift fun _ _ ↦ value_identifier ..
    rintro c e ⟨c₁, line?, c₂, rfl, htaken, hafter⟩
    -- a variable without a parenthesis behind the name, a call with one
    cases line? with
    | none =>
      obtain rfl : c₁ = [] := htaken
      obtain ⟨rfl, rfl⟩ := hafter
      exact .name name line
    | some line' =>
      obtain rfl : c₁ = [⟨.symbol .leftParen, line'⟩] := htaken
      obtain ⟨arguments, harguments, rfl⟩ := hafter
      exact .call name line line' harguments
  | keyword _ | layout _ | eof => exact .failAt hproductive fun _ ts' ↦ ⟨⟨_, j⟩, rfl⟩

/-- A sign is taken together with the value behind it, and what is recognised is the product with
minus one. -/
theorem negation_recognises (hinside : RecognisesInside (IsExpr .whole) inside? inside'?) :
    Recognises n (IsExpr .signed) (negation inside?) (fun _ ↦ negation inside'?) := by
  refine (take?_andThen_recognises (value_recognises hinside) fun line ↦
    (value_recognises hinside).andThen fun v ↦
      .pure (Expr.binary .mul (.number .minusOne) v line)).imp ?_
  rintro c e (hv | ⟨line, _, rfl, c', v, _, rfl, hv, rfl, rfl⟩)
  · exact .plain hv
  · rw [List.append_nil]
    exact .minus line hv

end Values

/-! ### Operators -/

/-- An operator of a level that is taken or left, with what is returned. -/
def TakenOperator (level : Precedence) (c : List Lexeme) : Option (Operator × Nat) → Prop
  | none => c = []
  | some (op, line) => op.precedence = level ∧ c = [⟨.symbol op.symbol, line⟩]

/-- An operator of another level is left, although it is an operator. So the decision is local: it
depends on the next token only. -/
theorem operator?_recognises (level : Precedence) :
    Recognises n (TakenOperator level) (operator? level) (fun _ ↦ operator? level) := by
  refine .of_head ⟨[], none, rfl⟩ (fun _ ↦ .nothing_nil rfl fun _ ↦ rfl)
    fun ⟨token, line⟩ ts j _ ↦ ?_
  rw [operator?_cons]
  cases hop : Operator.ofToken? token with
  | none =>
    refine .nothing_cons rfl fun _ ts' ↦ ?_
    simp only [operator?_cons, hop]
  | some op =>
    obtain rfl := ofToken?_eq_some_iff.1 hop
    dsimp only
    split
    · rename_i hlevel
      refine .token ⟨hlevel, rfl⟩ fun _ ts' ↦ ?_
      simp only [operator?_cons, hop, if_pos hlevel]
    · rename_i hlevel
      refine .nothing_cons rfl fun _ ts' ↦ ?_
      simp only [operator?_cons, hop, if_neg hlevel]

/-- What extends an expression of a level to another one. -/
def Extends (level : Precedence) (left : Expr) (c : List Lexeme) (e : Expr) : Prop :=
  ∀ c₀, IsExpr (.joined level) c₀ left → IsExpr (.joined level) (c₀ ++ c) e

/-- Nothing extends an expression to itself. -/
theorem Extends.refl (level : Precedence) (left : Expr) : Extends level left [] left := by
  intro c₀ hleft
  rwa [List.append_nil]

/-- An operator with its right operand extends an expression, and what extends the operation extends
the expression further. The operation is grouped to the left, as the grammar has it. -/
theorem Extends.operation {level : Precedence} {op : Operator} {left right e : Expr}
    {c c' : List Lexeme} (line : Nat) (hop : op.precedence = level)
    (hright : IsExpr (operands level) c right)
    (h : Extends level (.binary op left right line) c' e) :
    Extends level left (⟨.symbol op.symbol, line⟩ :: (c ++ c')) e := by
  intro c₀ hleft
  have hjoined := h _ (.operation line hleft hop hright)
  rwa [List.append_assoc] at hjoined

section Operations

variable {level : Precedence} {operand operand' : Parser Expr}

/-- **The loop over operators**, by induction on its bound. What is recognised depends on the left
operand, so that the language is relative to it: it is what extends this operand. -/
theorem operations_recognises
    (hoperand : ∀ n, Recognises n (IsExpr (operands level)) operand (fun _ ↦ operand'))
    (bound : Nat) (hn : n ≤ bound) (left : Expr) :
    Recognises n (Extends level left) (operations level operand bound left)
      (fun m ↦ operations level operand' m left) := by
  induction bound generalizing n left with
  | zero =>
    refine .of_head ⟨_, _, .refl level left⟩ (fun j ↦ ?_) fun _ _ _ hts ↦ by omega
    exact .nothing_nil (.refl level left) fun m ↦ operations_nil level operand' m left j
  | succ bound ih =>
    rw [operations_succ]
    -- the bound goes down by one where an operator is taken, and this is where it has to
    refine (((operator?_recognises level).bind
      (k := fun found? ↦ if found?.isSome then 1 else 0)
      (H := fun found? c e ↦ match found? with
        | none => c = [] ∧ e = left
        | some (op, line) => ∃ c₁ right c₂, c = c₁ ++ c₂ ∧ IsExpr (operands level) c₁ right ∧
            Extends level (.binary op left right line) c₂ e)
      (g := fun m ↦ afterOperator operand' (operations level operand' (m - 1)) left) ?_ ?_).imp
      ?_).congr ?_
    · rintro c (_ | ⟨op, line⟩) htaken
      · exact Nat.zero_le _
      · rw [htaken.2]
        exact Nat.le_refl 1
    · rintro (_ | ⟨op, line⟩)
      · exact .pure left
      · exact (hoperand (n - 1)).andThen fun right ↦ ih (by omega) _
    · rintro c e ⟨c₁, found?, c₂, rfl, htaken, h⟩
      rcases found? with _ | ⟨op, line⟩
      · obtain rfl : c₁ = [] := htaken
        obtain ⟨rfl, rfl⟩ := h
        exact .refl level _
      · obtain ⟨hlevel, rfl⟩ := htaken
        obtain ⟨c₃, right, c₄, rfl, hright, hextends⟩ := h
        show Extends level left (⟨.symbol op.symbol, line⟩ :: (c₃ ++ c₄)) e
        exact hextends.operation line hlevel hright
    · intro m ts j hts _
      cases m with
      | zero =>
        obtain rfl : ts = [] := List.eq_nil_of_length_eq_zero (by omega)
        rfl
      | succ m => rfl

/-- A first operand and what extends it. The second parser takes its bound from its own stream. -/
theorem leftGrouped_recognises
    (hoperand : ∀ n, Recognises n (IsExpr (operands level)) operand (fun _ ↦ operand')) :
    Recognises n (IsExpr (.joined level)) (leftGrouped level operand)
      (fun _ ↦ leftGrouped level operand') := by
  refine ((hoperand n).andThen fun first ↦
    .remaining fun m ↦ operations_recognises hoperand m (Nat.le_refl m) first).imp ?_
  rintro c e ⟨c₁, first, c₂, rfl, hfirst, hextends⟩
  exact hextends c₁ (.operand hfirst)

end Operations

/-! ### Levels -/

/-- The three layers of operators are three instances of one lemma. -/
theorem relational_recognises {inside? inside'? : Option (Parser Expr)}
    (hinside : RecognisesInside (IsExpr .whole) inside? inside'?) :
    Recognises n (IsExpr .whole) (relational inside?) (fun _ ↦ relational inside'?) :=
  leftGrouped_recognises fun _ ↦ leftGrouped_recognises fun _ ↦ leftGrouped_recognises fun _ ↦
    negation_recognises hinside

/-- **Expressions are recognised**, and more levels make no difference to what is recognised. -/
theorem expression_recognises {levels levels' : Nat} (h : levels ≤ levels') :
    Recognises n (IsExpr .whole) (expression levels) (fun _ ↦ expression levels') := by
  induction levels generalizing n levels' with
  | zero =>
    have hnone : RecognisesInside (IsExpr .whole) none (inside? levels') := trivial
    rw [expression_eq levels']
    exact relational_recognises hnone
  | succ levels ih =>
    obtain ⟨m, rfl⟩ : ∃ m, levels' = m + 1 := ⟨levels' - 1, by omega⟩
    exact relational_recognises fun _ ↦ ih (by omega)

end TinyProc.Parser
