import TinyProc.Syntax.Parser

/-!
# Parsing expressions

```
expression     := relational
relational     := additive ((= | <> | < | > | <= | >=) additive)*
additive       := multiplicative ((+ | -) multiplicative)*
multiplicative := negation ((* | /) negation)*
negation       := - value | value
value          := ( expression ) | number | name | name ( [expression (, expression)*] )
```

The layers are written over the parser of what stands inside parentheses, and the knot is tied by
recursion on the number of *levels* that may still be opened: `inside? levels` is that parser, or
nothing when no level is left. A stream never has more levels than tokens, so that whoever gives as
many levels as there are tokens sets no limit at all.
-/

namespace TinyProc.Parser

/-- Fails because a token opens a level where none is left. -/
def failTooDeep {α : Type} (opening : Lexeme) : Parser α :=
  throw ⟨.nestingTooDeep 0, opening.line⟩

/-! ### Values -/

/-- A value, given the parser of what stands inside parentheses. -/
def value (inside? : Option (Parser Expr)) : Parser Expr := do
  let first ← peek
  match first.token with
  | .symbol .leftParen =>
    advance
    match inside? with
    | none => failTooDeep first
    | some inside =>
      let e ← inside
      let _ ← expect (.symbol .rightParen)
      pure e
  | .integer n =>
    advance
    pure (.number n)
  | .identifier name =>
    advance
    match ← take? (.symbol .leftParen) with
    | none => pure (.variable name first.line)
    | some line =>
      match inside? with
      | none => failTooDeep ⟨.symbol .leftParen, line⟩
      | some inside =>
        let arguments ← commaList inside (.symbol .rightParen)
        pure (.call name arguments first.line)
  | _ => failAt first .value

/-- A value, or a minus sign and a value. The sign is a multiplication by minus one. -/
def negation (inside? : Option (Parser Expr)) : Parser Expr := do
  match ← take? (.symbol .minus) with
  | some line =>
    let v ← value inside?
    pure (.binary .mul (.number .minusOne) v line)
  | none => value inside?

/-! ### Operators -/

/-- The operator that comes next, if it binds on the given level, and its line. -/
def operator? (level : Precedence) : Parser (Option (Operator × Nat)) := do
  match ← peek? with
  | none => pure none
  | some found =>
    match Operator.ofToken? found.token with
    | none => pure none
    | some op =>
      if op.precedence = level then
        advance
        pure (some (op, found.line))
      else pure none

/-- Extends a left operand by the operators of one level and their operands, grouping to the left.
-/
def operations (level : Precedence) (operand : Parser Expr) :
    (bound : Nat) → (left : Expr) → Parser Expr
  | 0, left => pure left
  | bound + 1, left => do
    match ← operator? level with
    | none => pure left
    | some (op, line) =>
      let right ← operand
      operations level operand bound (.binary op left right line)

/-- Operands joined by the operators of one level. -/
def leftGrouped (level : Precedence) (operand : Parser Expr) : Parser Expr := do
  let first ← operand
  operations level operand (← remaining) first

/-- Negations joined by `*` and `/`. -/
def multiplicative (inside? : Option (Parser Expr)) : Parser Expr :=
  leftGrouped .multiplicative (negation inside?)

/-- Products joined by `+` and `-`. -/
def additive (inside? : Option (Parser Expr)) : Parser Expr :=
  leftGrouped .additive (multiplicative inside?)

/-- Sums joined by comparisons. -/
def relational (inside? : Option (Parser Expr)) : Parser Expr :=
  leftGrouped .relational (additive inside?)

/-! ### Levels -/

/-- An expression in which so many levels may be opened. What stands inside parentheses has one
level less. -/
def expression : (levels : Nat) → Parser Expr
  | 0 => relational none
  | levels + 1 => relational (some (expression levels))

/-- What stands inside parentheses where so many levels may be opened. -/
def inside? : (levels : Nat) → Option (Parser Expr)
  | 0 => none
  | levels + 1 => some (expression levels)

@[simp] theorem inside?_zero : inside? 0 = none := rfl

@[simp] theorem inside?_succ (levels : Nat) : inside? (levels + 1) = some (expression levels) := rfl

theorem expression_eq (levels : Nat) : expression levels = relational (inside? levels) := by
  cases levels <;> rfl

end TinyProc.Parser
