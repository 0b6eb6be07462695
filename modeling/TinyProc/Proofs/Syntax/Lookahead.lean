import TinyProc.Proofs.Syntax.Acceptance
import TinyProc.Proofs.Syntax.Budget

/-!
# One token of lookahead

What a parser makes of a stream is settled by the tokens that it consumes and the one behind them.
Where it succeeds, any other tokens may follow that one; where it complains about a token, any other
tokens may follow the token complained about (`LooksOneAhead`). In particular no parser ever goes
back to a token and tries something else.

That a parser looks no further is the *locality* that comes with recognition. It compares the parser
with one that may open at least as many levels, since a stream that goes on differently may be
longer. It may be shorter as well, and is then parsed with fewer levels. This makes no difference
either, because as many levels as there are tokens set no limit (`SetsNoLimit`), and that is a
consequence of parsing within a budget.
-/

namespace TinyProc.Parser

open Grammar

variable {α : Type} {parser : Nat → Parser α}

/-- A parser that looks at one token behind those it consumes. -/
structure LooksOneAhead (parser : Nat → Parser α) : Prop where
  /-- What is read in front of a token is read in front of it whatever comes behind. -/
  reads : ∀ {c r : List Lexeme} {next : Lexeme} {a : α},
    parse parser (c ++ next :: r) = .ok (a, next :: r) →
      ∀ r', parse parser (c ++ next :: r') = .ok (a, next :: r')
  /-- What is refused for a token is refused for it whatever comes behind. -/
  refuses : ∀ {ts : List Lexeme} {expected : Expectation} {found : Token} {line : Nat},
    parse parser ts = .error ⟨.unexpectedToken expected found, line⟩ →
      ∃ c r, ts = c ++ ⟨found, line⟩ :: r ∧
        ∀ r', parse parser (c ++ ⟨found, line⟩ :: r') =
          .error ⟨.unexpectedToken expected found, line⟩

/-- Beyond the number of tokens, the number of levels makes no difference. -/
def SetsNoLimit (parser : Nat → Parser α) : Prop :=
  ∀ {levels : Nat} {ts : List Lexeme}, ts.length ≤ levels →
    ∀ j, parser levels ⟨ts, j⟩ = parser ts.length ⟨ts, j⟩

/-! ### Locality at any length -/

/-- A parser that recognises a language whatever the levels, and that is set no limit, looks one
token ahead. -/
theorem looksOneAhead_of_recognises {G : List Lexeme → α → Prop}
    (hrecognises : ∀ {n levels levels' : Nat}, levels ≤ levels' →
      Recognises n G (parser levels) (fun _ ↦ parser levels'))
    (hlimit : SetsNoLimit parser) : LooksOneAhead parser where
  reads := by
    intro c r next a h r'
    obtain ⟨j, hok⟩ := parse_eq_ok_iff.1 h
    -- the second stream is parsed with levels enough for both
    have hle := Nat.le_max_left (c ++ next :: r).length (c ++ next :: r').length
    have hexplained := (hrecognises hle).explained (c ++ next :: r) .silent (Nat.le_refl _)
    rw [hok] at hexplained
    obtain ⟨c', hts, -, hlocal⟩ := hexplained
    obtain rfl : c = c' := List.append_cancel_right hts
    have hread := hlocal _ (next :: r') rfl (Nat.le_refl _)
    exact parse_eq_ok_iff.2 ⟨j, (hlimit (Nat.le_max_right _ _) _).symm.trans hread⟩
  refuses := by
    intro ts expected found line h
    obtain ⟨stopped, herror⟩ := parse_eq_error_iff.1 h
    have hexplained :=
      (hrecognises (Nat.le_refl ts.length)).explained ts .silent (Nat.le_refl _)
    rw [herror] at hexplained
    obtain ⟨c, r, hts, -, hlocal⟩ := hexplained
    refine ⟨c, r, hts, fun r' ↦ ?_⟩
    -- the second stream is refused with the levels of the first, and so with more of them
    obtain ⟨_, hrefused⟩ := hlocal _ r' (Nat.lt_succ_self _)
    have hle := Nat.le_max_left ts.length (c ++ ⟨found, line⟩ :: r').length
    obtain ⟨stopped', hmore⟩ := (hrecognises hle).unexpectedToken (Nat.le_refl _) hrefused
    exact parse_eq_error_iff.2 ⟨stopped', (hlimit (Nat.le_max_right _ _) _).symm.trans hmore⟩

/-! ### Levels enough -/

/-- A parser that is in step with one within a budget is set no limit: where there are as many
levels as tokens, the budget is not used up. -/
theorem setsNoLimit_of_balanced (within : Nat → Parser α)
    (h : ∀ {levels levels' : Nat}, levels ≤ levels' →
      Balanced levels 0 (within levels) (parser levels')) : SetsNoLimit parser := by
  intro levels ts hle j
  have hnone : tooDeep? ts.length 0 ts = none := tooDeep?_eq_none_of_length (by omega)
  have hmore := (h hle (Nat.zero_le _) ts j).eq_of_none hnone
  have hsame := (h (Nat.le_refl ts.length) (Nat.zero_le _) ts j).eq_of_none hnone
  rw [← hmore, hsame]

section Inside

variable {levels levels' : Nat}

/-- What stands inside parentheses is recognised as a whole expression, if there is a level for it.
-/
theorem recognisesInside_inside? (h : levels ≤ levels') :
    RecognisesInside (IsExpr .whole) (inside? levels) (inside? levels') := by
  cases levels with
  | zero => trivial
  | succ levels =>
    obtain ⟨m, rfl⟩ : ∃ m, levels' = m + 1 := ⟨levels' - 1, by omega⟩
    exact fun _ ↦ expression_recognises (by omega)

/-- What stands inside parentheses is in step within the budget. -/
theorem insideBelow_inside? (h : levels ≤ levels') :
    InsideBelow levels 0 (inside? levels) (inside? levels') := by
  cases levels with
  | zero => exact .exhausted (Nat.le_refl 0) _
  | succ levels =>
    obtain ⟨m, rfl⟩ : ∃ m, levels' = m + 1 := ⟨levels' - 1, by omega⟩
    exact .left (Nat.succ_pos _) (balanced_expression (Nat.add_comm ..) (by omega))

end Inside

/-! ### Expressions -/

/-- A name is a variable or a call, and this is settled by the one token behind it. -/
theorem value_looksOneAhead : LooksOneAhead fun levels ↦ value (inside? levels) :=
  looksOneAhead_of_recognises (fun h ↦ value_recognises (recognisesInside_inside? h))
    (setsNoLimit_of_balanced _ fun h ↦ balanced_value (insideBelow_inside? h))

/-- A sign is followed by a value and needs no lookahead of its own. -/
theorem negation_looksOneAhead : LooksOneAhead fun levels ↦ negation (inside? levels) :=
  looksOneAhead_of_recognises (fun h ↦ negation_recognises (recognisesInside_inside? h))
    (setsNoLimit_of_balanced _ fun h ↦ balanced_negation (insideBelow_inside? h))

/-- A product goes on if the next token is one of its operators. -/
theorem multiplicative_looksOneAhead : LooksOneAhead fun levels ↦ multiplicative (inside? levels) :=
  looksOneAhead_of_recognises
    (fun h ↦ leftGrouped_recognises fun _ ↦ negation_recognises (recognisesInside_inside? h))
    (setsNoLimit_of_balanced _ fun h ↦
      balanced_leftGrouped (balanced_negation (insideBelow_inside? h)))

theorem additive_looksOneAhead : LooksOneAhead fun levels ↦ additive (inside? levels) :=
  looksOneAhead_of_recognises
    (fun h ↦ leftGrouped_recognises fun _ ↦ leftGrouped_recognises fun _ ↦
      negation_recognises (recognisesInside_inside? h))
    (setsNoLimit_of_balanced _ fun h ↦
      balanced_leftGrouped (balanced_leftGrouped (balanced_negation (insideBelow_inside? h))))

/-- A comparison goes on if the next token is one of its operators. -/
theorem relational_looksOneAhead : LooksOneAhead fun levels ↦ relational (inside? levels) :=
  looksOneAhead_of_recognises (fun h ↦ relational_recognises (recognisesInside_inside? h))
    (setsNoLimit_of_balanced _ fun h ↦ balanced_relational (insideBelow_inside? h))

theorem expression_looksOneAhead : LooksOneAhead expression :=
  looksOneAhead_of_recognises expression_recognises
    (setsNoLimit_of_balanced _ fun h ↦ balanced_expression (Nat.zero_add _).symm h)

/-! ### Statements and procedures -/

/-- A display with a `read` behind it takes the read, whatever comes after that. -/
theorem statement_looksOneAhead : LooksOneAhead statement :=
  looksOneAhead_of_recognises statement_recognises
    (setsNoLimit_of_balanced _ fun h ↦ balanced_statement (Nat.zero_add _).symm h)

theorem statements_looksOneAhead : LooksOneAhead statements :=
  looksOneAhead_of_recognises statements_recognises
    (setsNoLimit_of_balanced _ fun h ↦ balanced_statements (Nat.zero_add _).symm h)

theorem procedure_looksOneAhead : LooksOneAhead procedure :=
  looksOneAhead_of_recognises procedure_recognises
    (setsNoLimit_of_balanced procedureWithin fun h ↦
      balanced_procedureWithin_procedure (Nat.zero_add _).symm h)

/-- Procedures go on as long as the next token is `procedure`. -/
theorem procedures_looksOneAhead : LooksOneAhead procedures :=
  looksOneAhead_of_recognises procedures_recognises
    (setsNoLimit_of_balanced (fun levels ↦ do moreProcedures (procedureWithin levels) (← remaining))
      fun h ↦ balanced_remaining.bind fun bound ↦ balanced_moreProcedures
        (balanced_procedureWithin_procedure (Nat.zero_add _).symm h) bound)

/-- **One token of lookahead.** Every parser of a part of a program, on every stream: what it reads
in front of a token it reads in front of the same token whatever comes behind, and what it refuses
for a token it refuses for the same token whatever comes behind. A block is parsed as statements
are. -/
theorem parsers_look_one_ahead :
    LooksOneAhead procedures ∧ LooksOneAhead procedure ∧
    LooksOneAhead statements ∧ (LooksOneAhead fun levels ↦ block (statement levels)) ∧
    LooksOneAhead statement ∧ LooksOneAhead expression ∧
    (LooksOneAhead fun levels ↦ relational (inside? levels)) ∧
    (LooksOneAhead fun levels ↦ additive (inside? levels)) ∧
    (LooksOneAhead fun levels ↦ multiplicative (inside? levels)) ∧
    (LooksOneAhead fun levels ↦ negation (inside? levels)) ∧
    (LooksOneAhead fun levels ↦ value (inside? levels)) :=
  ⟨procedures_looksOneAhead, procedure_looksOneAhead, statements_looksOneAhead,
    statements_looksOneAhead, statement_looksOneAhead, expression_looksOneAhead,
    relational_looksOneAhead, additive_looksOneAhead, multiplicative_looksOneAhead,
    negation_looksOneAhead, value_looksOneAhead⟩

/-- An assignment of a call that is followed by `end`, and one whose parenthesis is left open. -/
theorem parsers_look_one_ahead_call :
    let c : List Lexeme :=
      [⟨.identifier "x", 1⟩, ⟨.symbol .colonEquals, 1⟩, ⟨.identifier "f", 1⟩,
        ⟨.symbol .leftParen, 1⟩, ⟨.integer .one, 1⟩]
    let closed : List Lexeme := c ++ [⟨.symbol .rightParen, 1⟩]
    let last : Lexeme := ⟨.keyword .endKw, 2⟩
    let s : Statement := .assign "x" (.call "f" [.number .one] 1) 1
    let e : SyntaxError :=
      ⟨.unexpectedToken (.commaOr (.symbol .rightParen)) (.keyword .endKw), 2⟩
    (parse statement (closed ++ [last]) = .ok (s, [last]) ∧
      ∀ r, parse statement (closed ++ last :: r) = .ok (s, last :: r)) ∧
    parse statement (c ++ [last]) = .error e ∧
      ∃ c' r, c ++ [last] = c' ++ last :: r ∧
        ∀ r', parse statement (c' ++ last :: r') = .error e := by
  intro c closed last s e
  have hstatement : LooksOneAhead statement := parsers_look_one_ahead.2.2.2.2.1
  have hread : parse statement (closed ++ [last]) = .ok (s, [last]) := rfl
  have hrefused : parse statement (c ++ [last]) = .error e := rfl
  exact ⟨⟨hread, hstatement.reads hread⟩, hrefused, hstatement.refuses hrefused⟩

end TinyProc.Parser
