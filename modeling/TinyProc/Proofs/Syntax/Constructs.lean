import TinyProc.Proofs.Syntax.Budget
import TinyProc.Proofs.Syntax.Composition

/-!
# Nesting and the grammar

The constructs that nest are parentheses up to the parenthesis that closes them, and conditionals,
loops and procedures up to their `end`. A list that is made of such constructs, one inside the other
or one behind the other, and of tokens between them has a list of openings: the tokens that open a
construct, each with the number of constructs that are open from there on (`Constructs`).

The check of the nesting is a walk with one counter, which does not ask what it is that a token
closes. On any list it fails at the first opening that the counter numbers beyond the limit
(`tooDeep?_eq_find?`), and on a list that is made of constructs the counter numbers them right
(`Constructs.openings_append`). Every list that the grammar derives is such a list.
-/

namespace TinyProc

variable {n limit : Nat} {a b : Lexeme} {c d rest : List Lexeme}

/-! ### Constructs -/

/-- A token that opens a construct. -/
structure Opening where
  /-- The token. -/
  lexeme : Lexeme
  /-- How many constructs are open from there on, this one included. -/
  count : Nat
deriving DecidableEq

/-- A list that is made of constructs and of tokens that neither open nor close one, inside of `n`
constructs, and the openings in it. -/
inductive Constructs : Nat → List Lexeme → List Opening → Prop
  | nil {n : Nat} : Constructs n [] []
  | token {n : Nat} {a : Lexeme} {c : List Lexeme} {os : List Opening} (ha : Flat [a])
      (hc : Constructs n c os) : Constructs n (a :: c) os
  | construct {n : Nat} {a b : Lexeme} {c d : List Lexeme} {os os' : List Opening}
      (hab : a.token.closing? = some b.token) (hc : Constructs (n + 1) c os)
      (hd : Constructs n d os') :
      Constructs n (a :: (c ++ b :: d)) (⟨a, n + 1⟩ :: (os ++ os'))

/-! ### The counter -/

/-- The tokens that open a level, each with the count that the check has after it. -/
def openings : (depth : Nat) → List Lexeme → List Opening
  | _, [] => []
  | depth, lexeme :: rest =>
    if lexeme.token.opensLevel then ⟨lexeme, depth + 1⟩ :: openings (depth + 1) rest
    else if lexeme.token.closesLevel then openings (depth - 1) rest
    else openings depth rest

/-- A token that opens a level is numbered with the level it opens. -/
theorem openings_of_opens (ha : a.token.opensLevel = true) (n : Nat) (c : List Lexeme) :
    openings n (a :: c) = ⟨a, n + 1⟩ :: openings (n + 1) c := by
  rw [openings, if_pos ha]

/-- A token that closes a level is not listed, and takes the counter back. -/
theorem openings_of_closes (hb : b.token.closesLevel = true) (n : Nat) (c : List Lexeme) :
    openings (n + 1) (b :: c) = openings n c := by
  rw [openings, opensLevel_eq_false_of_closesLevel hb, if_neg Bool.false_ne_true, if_pos hb,
    Nat.add_sub_cancel]

/-- Other tokens are not listed. -/
theorem openings_of_flat (ha : Flat [a]) (n : Nat) (c : List Lexeme) :
    openings n (a :: c) = openings n c := by
  obtain ⟨hopens, hcloses⟩ := ha a List.mem_cons_self
  rw [openings, hopens, hcloses, if_neg Bool.false_ne_true, if_neg Bool.false_ne_true]

/-- The check fails at the first opening beyond the limit, on any list. The counter goes up by one
at a time, so that this is the first opening which is numbered with the limit and one. -/
theorem tooDeep?_eq_find? {depth : Nat} (h : depth ≤ limit) (c : List Lexeme) :
    tooDeep? limit depth c =
      ((openings depth c).find? (·.count = limit + 1)).map Opening.lexeme := by
  -- the counter is within the limit up to the first opening that is not
  induction c generalizing depth with
  | nil => rfl
  | cons a c ih =>
    unfold tooDeep? openings
    split
    · by_cases hlt : depth + 1 ≤ limit
      · rw [if_neg (by omega), List.find?_cons_of_neg (by simp; omega), ih hlt]
      · rw [if_pos (by omega), List.find?_cons_of_pos (by simp; omega)]
        rfl
    · split
      · exact ih (by omega)
      · exact ih h

/-- The counter numbers constructs right, and is back where it was behind them. -/
theorem Constructs.openings_append {os : List Opening} (h : Constructs n c os)
    (rest : List Lexeme) : openings n (c ++ rest) = os ++ openings n rest := by
  induction h generalizing rest with
  | nil => rfl
  | token ha _ ih => rw [List.cons_append, openings_of_flat ha, ih]
  | construct hab _ _ ihc ihd =>
    rw [List.cons_append, openings_of_opens (opensLevel_of_closing? hab), List.append_assoc, ihc,
      List.cons_append, openings_of_closes (closesLevel_of_closing? hab), ihd, List.cons_append,
      List.append_assoc]

/-- A list is made of constructs in one way at most, as far as the openings go: they are those that
the counter finds. -/
theorem Constructs.eq_openings {os : List Opening} (h : Constructs n c os) :
    os = openings n c := by
  have happend := h.openings_append []
  rw [List.append_nil, openings, List.append_nil] at happend
  exact happend.symm

/-! ### What the grammar derives -/

/-- A list that is made of constructs. -/
def IsNested (c : List Lexeme) : Prop :=
  ∀ n, ∃ os, Constructs n c os

/-- A flat list has no openings. -/
theorem isNested_of_flat (hc : Flat c) : IsNested c := by
  intro n
  induction c with
  | nil => exact ⟨[], .nil⟩
  | cons a c ih =>
    obtain ⟨ha, hc⟩ := List.forall_mem_cons.1 hc
    obtain ⟨os, hos⟩ := ih hc
    exact ⟨os, .token (List.forall_mem_singleton.2 ha) hos⟩

/-- Two lists inside of the same constructs, one behind the other. -/
theorem Constructs.append {os os' : List Opening} (hc : Constructs n c os)
    (hd : Constructs n d os') : Constructs n (c ++ d) (os ++ os') := by
  induction hc with
  | nil => exact hd
  | token ha _ ih => exact .token ha (ih hd)
  | construct hab hc _ _ ih =>
    rw [List.cons_append, List.append_assoc, List.cons_append, List.cons_append, List.append_assoc]
    exact .construct hab hc (ih hd)

/-- Lists that are made of constructs can be put one behind the other. -/
theorem IsNested.append (hc : IsNested c) (hd : IsNested d) : IsNested (c ++ d) := by
  intro n
  obtain ⟨os, hos⟩ := hc n
  obtain ⟨os', hos'⟩ := hd n
  exact ⟨os ++ os', hos.append hos'⟩

theorem IsNested.cons (ha : Flat [a]) (hc : IsNested c) : IsNested (a :: c) :=
  (isNested_of_flat ha).append hc

/-- A token, a list, and the token that closes what the first has opened make up one construct. -/
theorem IsNested.bracket (hab : a.token.closing? = some b.token) (hc : IsNested c) :
    IsNested (a :: (c ++ [b])) := by
  intro n
  obtain ⟨os, hos⟩ := hc (n + 1)
  exact ⟨_, .construct hab hos .nil⟩

/-- Whatever the expressions are, the lists are put together in the same way. -/
theorem compositional_isNested : Compositional fun c _ ↦ IsNested c where
  flat := isNested_of_flat
  append := .append
  bracket := .bracket

namespace Grammar

/-- Expressions open parentheses only, and close them. -/
theorem IsExpr.isNested {t : Tier} {e : Expr} (h : IsExpr t c e) : IsNested c := by
  induction h using IsExpr.induction with
  | number value line => exact isNested_of_flat (flat_singleton rfl rfl)
  | name name line => exact isNested_of_flat (flat_singleton rfl rfl)
  | group line line' _ ih => exact ih.bracket rfl
  | call name line line' _ harguments =>
    obtain ⟨c₀, line'', rfl, hc₀⟩ :=
      harguments.compose compositional_isNested (fun _ ↦ []) fun c e ⟨_, ih⟩ ↦ ih
    exact (hc₀.bracket rfl).cons (flat_singleton rfl rfl)
  | plain _ ih => exact ih
  | minus line _ ih => exact ih.cons (flat_singleton rfl rfl)
  | operand _ ih => exact ih
  | @operation _ op _ _ _ _ line _ _ _ ihleft ihright =>
    exact ihleft.append (ihright.cons (op.flat_symbol line))

/-- A derived stream is made of constructs. The token for the end of the input is flat. -/
theorem IsSource.isNested {rule : ReadRule} {p : Program} (h : IsSource rule c p) :
    IsNested c := by
  obtain ⟨c, line, rfl, hprogram⟩ := h
  have hc : IsNested c := hprogram.compose compositional_isNested fun _ _ he ↦ he.isNested
  exact hc.append (isNested_of_flat (flat_singleton rfl rfl))

end Grammar

/-! ### The check -/

namespace Parser

open Grammar

/-- If the check passes, it has found nothing on the way. -/
theorem tooDeep?_eq_none_of_checkNesting {ts : List Lexeme} {j : Journal} {c : Cursor}
    (h : checkNesting limit ⟨ts, j⟩ = .ok () c) : tooDeep? limit 0 ts = none := by
  rw [checkNesting_apply] at h
  cases hdeep : tooDeep? limit 0 ts with
  | none => rfl
  | some opening =>
    rw [hdeep] at h
    cases h

/-- **The check of the nesting bounds the parser and rejects nothing else.** If the check passes on
a stream, well formed or not, a parser that is given as many levels as the limit does on it what the
parser without a limit does, and that parser is never short of levels. On a stream that the grammar
derives, the check passes if no construct is opened that is one more than the limit, and otherwise
fails on the line of the first token that opens such a construct. -/
theorem checkNesting_bounds_recursion :
    (∀ (limit : Nat) (ts : List Lexeme) (j : Journal),
      checkNesting limit ⟨ts, j⟩ = .ok () ⟨ts, j⟩ →
        programWithin limit ⟨ts, j⟩ = runFrom uncheckedProgram ⟨ts, j⟩ ∧
          ∀ e c, runFrom uncheckedProgram ⟨ts, j⟩ = .error e c →
            ∀ n, e.cause ≠ .nestingTooDeep n) ∧
    ∀ (limit : Nat) (rule : ReadRule) (ts : List Lexeme) (p : Program) (j : Journal),
      IsSource rule ts p →
        ∃ os, Constructs 0 ts os ∧ (∀ os', Constructs 0 ts os' → os' = os) ∧
          checkNesting limit ⟨ts, j⟩ =
            match os.find? (·.count = limit + 1) with
            | none => .ok () ⟨ts, j⟩
            | some first => .error ⟨.nestingTooDeep limit, first.lexeme.line⟩ ⟨ts, j⟩ := by
  constructor
  · intro limit ts j hcheck
    have hnone := tooDeep?_eq_none_of_checkNesting hcheck
    have h := programWithin_tracks limit ts j
    refine ⟨h.eq_of_none hnone, fun e c he ↦ ?_⟩
    rw [he] at h
    exact h.ne_nestingTooDeep hnone
  · intro limit rule ts p j hsource
    obtain ⟨os, hos⟩ := hsource.isNested 0
    refine ⟨os, hos, fun os' hos' ↦ hos'.eq_openings.trans hos.eq_openings.symm, ?_⟩
    rw [checkNesting_apply, tooDeep?_eq_find? (Nat.zero_le _), ← hos.eq_openings]
    cases os.find? (·.count = limit + 1) <;> rfl

/-- On the first stream an `end` stands where the parenthesis is to be closed, which the counter
takes for the same. The second is derived, and its parenthesis is one level too much. -/
theorem checkNesting_bounds_recursion_mismatched :
    let crossed : List Lexeme :=
      [⟨.keyword .whileKw, 1⟩, ⟨.integer .one, 1⟩, ⟨.keyword .doKw, 1⟩, ⟨.keyword .displayKw, 2⟩,
        ⟨.symbol .leftParen, 2⟩, ⟨.integer .one, 2⟩, ⟨.keyword .endKw, 3⟩, ⟨.symbol .rightParen, 3⟩,
        ⟨.eof, 3⟩]
    let derived : List Lexeme :=
      [⟨.keyword .displayKw, 1⟩, ⟨.symbol .leftParen, 2⟩, ⟨.integer .one, 3⟩,
        ⟨.symbol .rightParen, 4⟩, ⟨.eof, 4⟩]
    programWithin 2 ⟨crossed, .silent⟩ = runFrom uncheckedProgram ⟨crossed, .silent⟩ ∧
      IsSource .free derived ⟨[], [.display (.number .one) none 1]⟩ ∧
        checkNesting 0 ⟨derived, .silent⟩ = .error ⟨.nestingTooDeep 0, 2⟩ ⟨derived, .silent⟩ := by
  intro crossed derived
  have hgroup : IsExpr .whole
      [⟨.symbol .leftParen, 2⟩, ⟨.integer .one, 3⟩, ⟨.symbol .rightParen, 4⟩] (.number .one) :=
    .operand (.operand (.operand (.plain (.group 2 4 (.wholeNumber .one 3)))))
  have hderived : IsSource .free derived ⟨[], [.display (.number .one) none 1]⟩ :=
    ⟨_, 4, rfl, .intro .nil (.last (.display 1 hgroup) (.inl rfl))⟩
  have hconstructs : Constructs 0 derived [⟨⟨.symbol .leftParen, 2⟩, 1⟩] :=
    .token (flat_singleton rfl rfl) (.construct (b := ⟨.symbol .rightParen, 4⟩) rfl
      (.token (flat_singleton rfl rfl) .nil) (.token (flat_singleton rfl rfl) .nil))
  obtain ⟨os, -, hunique, hcheck⟩ :=
    checkNesting_bounds_recursion.2 0 .free derived _ .silent hderived
  rw [← hunique _ hconstructs] at hcheck
  exact ⟨(checkNesting_bounds_recursion.1 2 crossed .silent rfl).1, hderived, hcheck⟩

end Parser

end TinyProc
