import TinyProc.Proofs.Syntax.Completeness.Lists

/-!
# Reading what the grammar derives: expressions

An expression is read in front of everything that cannot extend it: no operator of its own layer or
of a tighter one, and no parenthesis, which would make a call of a name (`Stops`).

The rules for operators recurse on the left and the parser is a loop, and so the induction has to
say more of a layer of operators than that it is read. What it says is that in front of anything,
more operators of the layer included, the parser gets to the point where the loop holds the tree
that has been derived so far (`Joins`).
-/

namespace TinyProc.Parser

open Grammar

/-! ### What may follow -/

/-- Whether operators of a level extend an expression of a layer that stands in front of them. -/
def absorbs : Tier → Precedence → Bool
  | .value, _ | .signed, _ => false
  | .joined .multiplicative, level => level = .multiplicative
  | .joined .additive, level => level ≠ .relational
  | .joined .relational, _ => true

/-- What follows does not extend an expression of the layer. -/
def Stops (t : Tier) (rest : List Lexeme) : Prop :=
  ¬ StartsWith (.symbol .leftParen) rest ∧
    ∀ op : Operator, absorbs t op.precedence → ¬ StartsWith (.symbol op.symbol) rest

/-- What extends an operand extends what it is an operand of. -/
theorem absorbs_joined {level p : Precedence} (h : absorbs (operands level) p) :
    absorbs (.joined level) p := by
  revert h
  cases level <;> cases p <;> decide

/-- What does not extend operations of a level does not extend their operands either. -/
theorem Stops.operands {level : Precedence} {rest : List Lexeme} (h : Stops (.joined level) rest) :
    Stops (operands level) rest :=
  ⟨h.1, fun op hop ↦ h.2 op (absorbs_joined hop)⟩

/-- An operator is not taken into an operand of its level. -/
theorem stops_operator (op : Operator) (line : Nat) (rest : List Lexeme) :
    Stops (operands op.precedence) (⟨.symbol op.symbol, line⟩ :: rest) := by
  refine ⟨?_, fun op' hop' ↦ ?_⟩
  · rintro ⟨line', rest', heq⟩
    cases op <;> cases heq
  · rintro ⟨line', rest', heq⟩
    injection heq with heq
    injection heq with heq
    injection heq with heq
    obtain rfl : op = op' := Option.some.inj <| by
      rw [← Operator.ofSymbol?_symbol op, heq, Operator.ofSymbol?_symbol]
    revert hop'
    cases op <;> decide

/-- What is neither an operator nor a parenthesis that opens extends nothing. -/
theorem stops_of_ofToken?_eq_none {t : Tier} {found : Lexeme} {rest : List Lexeme}
    (hparen : found.token ≠ .symbol .leftParen) (hop : Operator.ofToken? found.token = none) :
    Stops t (found :: rest) := by
  refine ⟨not_startsWith_cons hparen, fun op _ ↦ not_startsWith_cons fun hsymbol ↦ ?_⟩
  rw [hsymbol, Operator.ofToken?_symbol] at hop
  cases hop

/-- Only symbols extend an expression. -/
theorem stops_of_ne_symbol {t : Tier} {found : Lexeme} {rest : List Lexeme}
    (h : ∀ symbol, found.token ≠ .symbol symbol) : Stops t (found :: rest) :=
  ⟨not_startsWith_cons (h _), fun _ _ ↦ not_startsWith_cons (h _)⟩

/-! ### Layers -/

/-- The parser of a layer. -/
def tierParser (inside? : Option (Parser Expr)) : Tier → Parser Expr
  | .value => value inside?
  | .signed => negation inside?
  | .joined .multiplicative => multiplicative inside?
  | .joined .additive => additive inside?
  | .joined .relational => relational inside?

/-- The parser of a level is a loop around the parser of its operands. -/
theorem tierParser_joined (inside? : Option (Parser Expr)) (level : Precedence) :
    tierParser inside? (.joined level) =
      leftGrouped level (tierParser inside? (operands level)) := by
  cases level <;> rfl

theorem tierParser_whole (levels : Nat) :
    tierParser (inside? levels) .whole = expression levels :=
  (expression_eq levels).symm

/-- The parser of a layer gets to the point where it holds what a list has been derived as. For a
layer of operators it is then in its loop, with a bound that is large enough. -/
def Joins (inside? : Option (Parser Expr)) : Tier → List Lexeme → Expr → Prop
  | .joined level, c, e => ∀ rest j, Stops (operands level) rest →
    ∃ bound j', rest.length ≤ bound ∧
      tierParser inside? (.joined level) ⟨c ++ rest, j⟩ =
        operations level (tierParser inside? (operands level)) bound e ⟨rest, j'⟩
  | t, c, e => Reads (tierParser inside? t) c e (Stops t)

section Layers

variable {inside? : Option (Parser Expr)} {level : Precedence} {t : Tier} {c c' : List Lexeme}
variable {e left right : Expr}

/-- No operator of a level is found where what follows does not extend the level. -/
theorem operator?_reads_none (level : Precedence) :
    Reads (operator? level) [] none (Stops (.joined level)) := by
  intro rest j hrest
  refine ⟨j, ?_⟩
  rcases rest with _ | ⟨⟨token, line⟩, rest⟩
  · rfl
  · rw [List.nil_append, operator?_cons]
    cases hop : Operator.ofToken? token with
    | none => rfl
    | some op =>
      obtain rfl := ofToken?_eq_some_iff.1 hop
      refine if_neg fun hlevel ↦ hrest.2 op ?_ ⟨line, rest, rfl⟩
      rw [hlevel]
      cases level <;> rfl

theorem operator?_reads_some (op : Operator) (line : Nat) :
    Reads (operator? op.precedence) [⟨.symbol op.symbol, line⟩] (some (op, line)) Anything := by
  intro rest j _
  refine ⟨j, ?_⟩
  simp only [List.singleton_append, operator?_cons, Operator.ofToken?_symbol, if_true]

/-- In front of what does not extend the layer, the loop is at its end. -/
theorem Joins.reads (h : Joins inside? t c e) : Reads (tierParser inside? t) c e (Stops t) := by
  cases t with
  | value => exact h
  | signed => exact h
  | joined level =>
    intro rest j hrest
    obtain ⟨bound, j', -, hjoins⟩ := h rest j hrest.operands
    rw [hjoins]
    cases bound with
    | zero => exact ⟨j', rfl⟩
    | succ bound =>
      rw [operations_succ]
      exact ((operator?_reads_none level).map (.pure e)) rest j' hrest

/-- A first operand, with which the loop begins. -/
theorem Joins.operand (h : Joins inside? (operands level) c e) :
    Joins inside? (.joined level) c e := by
  intro rest j hrest
  obtain ⟨j', hread⟩ := h.reads rest j hrest
  refine ⟨rest.length, j', Nat.le_refl _, ?_⟩
  rw [tierParser_joined]
  exact bind_of_ok hread

/-- One more round of the loop. -/
theorem Joins.operation {op : Operator} (line : Nat) (hop : op.precedence = level)
    (hleft : Joins inside? (.joined level) c left)
    (hright : Joins inside? (operands level) c' right) :
    Joins inside? (.joined level) (c ++ ⟨.symbol op.symbol, line⟩ :: c')
      (.binary op left right line) := by
  subst hop
  intro rest j hrest
  -- the left side holds in front of the operator, although the layer is extended by it
  obtain ⟨bound, j₁, hbound, hjoins⟩ := hleft (⟨.symbol op.symbol, line⟩ :: (c' ++ rest)) j
    (stops_operator op line _)
  rw [List.length_cons, List.length_append] at hbound
  obtain ⟨bound, rfl⟩ : ∃ b, bound = b + 1 := ⟨bound - 1, by omega⟩
  obtain ⟨j₂, hoperator⟩ := operator?_reads_some op line (c' ++ rest) j₁ trivial
  obtain ⟨j₃, hoperand⟩ := hright.reads rest j₂ hrest
  refine ⟨bound, j₃, by omega, ?_⟩
  rw [List.append_assoc, List.cons_append, hjoins, operations_succ]
  exact (bind_of_ok hoperator).trans (bind_of_ok hoperand)

end Layers

/-! ### Expressions -/

section Values

variable {levels : Nat} {c : List Lexeme} {e : Expr}

/-- A name is a variable where no parenthesis follows. -/
theorem value_reads_name (inside? : Option (Parser Expr)) (name : String) (line : Nat) :
    Reads (value inside?) [⟨.identifier name, line⟩] (.variable name line) (Stops .value) := by
  have hname : Reads (take? (.symbol .leftParen) >>= afterName inside? name line) []
      (.variable name line) (Stops .value) :=
    ((take?_reads_none _).weaken fun _ hrest ↦ hrest.1).map (.pure _)
  exact hname.cons (value_identifier inside? name line)

/-- Parentheses take a level, and whatever follows them does not extend what stands inside. -/
theorem value_reads_group (line line' : Nat) (h : Reads (expression levels) c e (Stops .whole)) :
    Reads (value (inside? (levels + 1)))
      (⟨.symbol .leftParen, line⟩ :: (c ++ [⟨.symbol .rightParen, line'⟩])) e (Stops .value) := by
  have hinside : Reads (do
      let e ← expression levels
      let _ ← expect (.symbol .rightParen)
      pure e) (c ++ [⟨.symbol .rightParen, line'⟩]) e Anything :=
    h.bind ((expect_reads _ line').map (.pure e)) fun rest _ ↦
      stops_of_ofToken?_eq_none (by simp) rfl
  exact (hinside.weaken fun _ _ ↦ trivial).cons fun _ _ ↦ rfl

/-- A name with a parenthesis behind it is a call, and its arguments take a level. -/
theorem value_reads_call {arguments : List Expr} (name : String) (line line' : Nat)
    (h : Reads (commaList (expression levels) (.symbol .rightParen)) c arguments Anything) :
    Reads (value (inside? (levels + 1)))
      (⟨.identifier name, line⟩ :: ⟨.symbol .leftParen, line'⟩ :: c) (.call name arguments line)
      (Stops .value) := by
  have hcall : Reads (take? (.symbol .leftParen) >>= afterName (inside? (levels + 1)) name line)
      (⟨.symbol .leftParen, line'⟩ :: c) (.call name arguments line) Anything :=
    (take?_reads_some _ line').andThen (h.map (.pure _))
  exact (hcall.weaken fun _ _ ↦ trivial).cons (value_identifier _ name line)

/-- A value without a sign. That it does not begin with one is a matter of the grammar. -/
theorem negation_reads_plain {inside? : Option (Parser Expr)} (he : IsExpr .value c e)
    (h : Reads (value inside?) c e (Stops .value)) :
    Reads (negation inside?) c e (Stops .signed) := by
  obtain ⟨found, c', rfl, hstarts⟩ := he.head
  refine Reads.bind (take?_reads_none (.symbol .minus)) h fun rest _ ↦
    not_startsWith_cons fun hminus ↦ ?_
  rw [hminus] at hstarts
  cases hstarts

theorem negation_reads_minus {inside? : Option (Parser Expr)} (line : Nat)
    (h : Reads (value inside?) c e (Stops .value)) :
    Reads (negation inside?) (⟨.symbol .minus, line⟩ :: c)
      (.binary .mul (.number .minusOne) e line) (Stops .signed) :=
  (take?_reads_some _ line).andThen (h.map (.pure _))

end Values

/-- **Expressions are read**, layer by layer, if there are as many levels as tokens. -/
theorem joins_of_isExpr {t : Tier} {c : List Lexeme} {e : Expr} (h : IsExpr t c e) {levels : Nat}
    (hlevels : c.length ≤ levels) : Joins (inside? levels) t c e := by
  induction h using IsExpr.induction generalizing levels with
  | number value line => exact fun rest j _ ↦ ⟨j, rfl⟩
  | name name line => exact value_reads_name _ name line
  | group line line' _ ih =>
    rw [List.length_cons, List.length_append] at hlevels
    obtain ⟨levels, rfl⟩ : ∃ l, levels = l + 1 := ⟨levels - 1, by omega⟩
    -- a level less for the inside, and two tokens less
    refine value_reads_group line line' ?_
    rw [← tierParser_whole]
    exact (ih (by omega)).reads
  | @call c arguments name line line' _ ih =>
    rw [List.length_cons, List.length_cons] at hlevels
    obtain ⟨levels, rfl⟩ : ∃ l, levels = l + 1 := ⟨levels - 1, by omega⟩
    refine value_reads_call name line line' ?_
    have hitem : ∀ c e, (∃ _ : IsExpr .whole c e, ∀ {levels}, c.length ≤ levels →
        Joins (inside? levels) .whole c e) → c.length ≤ levels →
          Reads (expression levels) c e (Stops .whole) := by
      rintro c e ⟨-, hjoins⟩ hlength
      rw [← tierParser_whole]
      exact (hjoins hlength).reads
    refine commaList_reads hitem ?_ ?_ (by simp) ?_ ih (by omega)
    · exact fun line rest ↦ stops_of_ofToken?_eq_none (by simp) rfl
    · exact fun line rest ↦ stops_of_ofToken?_eq_none (by simp) rfl
    · rintro c e ⟨he, -⟩
      obtain ⟨found, c', rfl, hstarts⟩ := he.head
      refine ⟨found, c', rfl, fun hclosing ↦ ?_⟩
      rw [hclosing] at hstarts
      cases hstarts
  | plain he ih => exact negation_reads_plain he (ih hlevels)
  | minus line _ ih =>
    rw [List.length_cons] at hlevels
    exact negation_reads_minus line (ih (by omega))
  | operand _ ih => exact (ih hlevels).operand
  | operation line _ hop _ ihleft ihright =>
    rw [List.length_append, List.length_cons] at hlevels
    exact (ihleft (by omega)).operation line hop (ihright (by omega))

/-- An expression that the grammar derives is read, if there are as many levels as tokens. -/
theorem expression_reads {c : List Lexeme} {e : Expr} (h : IsExpr .whole c e) (levels : Nat)
    (hlevels : c.length ≤ levels) : Reads (expression levels) c e (Stops .whole) := by
  rw [← tierParser_whole]
  exact (joins_of_isExpr h hlevels).reads

end TinyProc.Parser
