import TinyProc.Syntax.Program

/-!
# Parsers one step at a time

What each parser does with the first token of a stream, as an equation. Where a parser goes on from
there in a way that depends on what it has seen, the way it goes on is given a name: `afterItem` for
lists, `afterName` for values, `afterOperator` for operands that are joined, and so on. The
equations say that a parser is its first step and then this.

Both directions of the theory of parsers work along these equations and open no parser again.
-/

namespace TinyProc.Parser

variable {α : Type}

/-! ### Single tokens -/

/-- A token that is expected is consumed in either case: an error is noticed behind the token that
is reported. -/
theorem expect_cons (token : Token) (found : Lexeme) (ts : List Lexeme) (j : Journal) :
    expect token ⟨found :: ts, j⟩ =
      if found.token = token then .ok found.line ⟨ts, j⟩
      else .error ⟨.unexpectedToken (.token token) found.token, found.line⟩ ⟨ts, j⟩ := by
  show (if found.token = token then pure found.line else failAt found (.token token) :
    Parser Nat) ⟨ts, j⟩ = _
  split <;> rfl

/-- A token that may be missing is consumed only if it is there. -/
theorem take?_cons (token : Token) (found : Lexeme) (ts : List Lexeme) (j : Journal) :
    take? token ⟨found :: ts, j⟩ =
      if found.token = token then .ok (some found.line) ⟨ts, j⟩
      else .ok none ⟨found :: ts, j⟩ := by
  show (if found.token = token then (do
      advance
      pure (some found.line))
    else pure none : Parser (Option Nat)) ⟨found :: ts, j⟩ = _
  split <;> rfl

/-! ### Lists with commas -/

/-- What follows an item: a comma and other items, or the token that closes the list. -/
def afterItem (others : Parser (List α)) (closing : Token) (first : α) : Parser (List α) := do
  match ← next? with
  | none => failAtEnd
  | some found =>
    if found.token = .symbol .comma then
      let rest ← others
      pure (first :: rest)
    else if found.token = closing then pure [first]
    else failAt found (.commaOr closing)

/-- A bound of one more pays for one item, which is then followed by what the bound has left. -/
theorem items_succ (item : Parser α) (closing : Token) (bound : Nat) :
    items item closing (bound + 1) = item >>= afterItem (items item closing bound) closing := rfl

/-- A comma goes on with the list and the closing token ends it. Anything else is reported, and is
consumed like these. -/
theorem afterItem_cons (others : Parser (List α)) (closing : Token) (first : α) (found : Lexeme)
    (ts : List Lexeme) (j : Journal) :
    afterItem others closing first ⟨found :: ts, j⟩ =
      if found.token = .symbol .comma then
        (others >>= fun rest ↦ pure (first :: rest)) ⟨ts, j⟩
      else if found.token = closing then .ok [first] ⟨ts, j⟩
      else .error ⟨.unexpectedToken (.commaOr closing) found.token, found.line⟩ ⟨ts, j⟩ := by
  show (if found.token = .symbol .comma then others >>= fun rest ↦ pure (first :: rest)
    else if found.token = closing then pure [first]
    else failAt found (.commaOr closing) : Parser (List α)) ⟨ts, j⟩ = _
  split
  · rfl
  · split <;> rfl

/-! ### Expressions -/

/-- What follows a name that begins a value, given the line of the parenthesis behind it if there is
one. -/
def afterName (inside? : Option (Parser Expr)) (name : String) (line : Nat) :
    Option Nat → Parser Expr
  | none => pure (.variable name line)
  | some line' =>
    match inside? with
    | none => failTooDeep ⟨.symbol .leftParen, line'⟩
    | some inside => do
      let arguments ← commaList inside (.symbol .rightParen)
      pure (.call name arguments line)

/-- A name is a variable, unless a parenthesis follows that opens the arguments of a call. -/
theorem value_identifier (inside? : Option (Parser Expr)) (name : String) (line : Nat)
    (ts : List Lexeme) (j : Journal) :
    value inside? ⟨⟨.identifier name, line⟩ :: ts, j⟩ =
      (take? (.symbol .leftParen) >>= afterName inside? name line) ⟨ts, j⟩ := rfl

/-- An operator is read from its own symbol only. -/
theorem ofToken?_eq_some_iff {token : Token} {op : Operator} :
    Operator.ofToken? token = some op ↔ token = .symbol op.symbol := by
  cases token with
  | symbol s =>
    rw [Operator.ofToken?, Operator.ofSymbol?_eq_some_iff, Token.symbol.injEq]
    exact eq_comm
  | _ => simp [Operator.ofToken?]

/-- An operator is consumed if it is of the level that is asked for. All others stay for the other
levels. -/
theorem operator?_cons (level : Precedence) (found : Lexeme) (ts : List Lexeme) (j : Journal) :
    operator? level ⟨found :: ts, j⟩ =
      match Operator.ofToken? found.token with
      | none => .ok none ⟨found :: ts, j⟩
      | some op =>
        if op.precedence = level then .ok (some (op, found.line)) ⟨ts, j⟩
        else .ok none ⟨found :: ts, j⟩ := by
  show (match Operator.ofToken? found.token with
    | none => pure none
    | some op =>
      if op.precedence = level then (do
        advance
        pure (some (op, found.line)))
      else pure none : Parser (Option (Operator × Nat))) ⟨found :: ts, j⟩ = _
  cases Operator.ofToken? found.token with
  | none => rfl
  | some op =>
    dsimp only
    split <;> rfl

/-- What follows a left operand, given the operator that comes next if there is one. -/
def afterOperator (operand : Parser Expr) (more : Expr → Parser Expr) (left : Expr) :
    Option (Operator × Nat) → Parser Expr
  | none => pure left
  | some (op, line) => do
    let right ← operand
    more (.binary op left right line)

/-- At the end of the stream no operator follows, whatever the bound. -/
theorem operations_nil (level : Precedence) (operand : Parser Expr) (bound : Nat) (left : Expr)
    (j : Journal) : operations level operand bound left ⟨[], j⟩ = .ok left ⟨[], j⟩ := by
  cases bound <;> rfl

/-- A bound of one more pays for one operator with its right operand. -/
theorem operations_succ (level : Precedence) (operand : Parser Expr) (bound : Nat) (left : Expr) :
    operations level operand (bound + 1) left =
      operator? level >>= afterOperator operand (operations level operand bound) left := rfl

/-! ### Statements -/

/-- Both signs of an assignment are consumed, and so is what stands in their place. -/
theorem assignmentSign_cons (line : Nat) (found : Lexeme) (ts : List Lexeme) (j : Journal) :
    assignmentSign line ⟨found :: ts, j⟩ =
      if found.token = .symbol .colonEquals ∨ found.token = .symbol .equals then .ok () ⟨ts, j⟩
      else .error ⟨.unexpectedToken .assignmentSign found.token, found.line⟩ ⟨ts, j⟩ := by
  show (if found.token = .symbol .colonEquals ∨ found.token = .symbol .equals then pure ()
    else failAt found .assignmentSign : Parser Unit) ⟨ts, j⟩ = _
  split <;> rfl

/-- A first statement, and more up to the end of the block. -/
def statementThen (stmt : Parser Statement) (more : Parser Block) : Parser Block := do
  let first ← stmt
  let others ← more
  pure (first :: others)

/-- A block goes on up to a token that ends blocks, which stays for the parser that has opened the
block. -/
theorem moreStatements_cons (stmt : Parser Statement) (bound : Nat) (found : Lexeme)
    (ts : List Lexeme) (j : Journal) :
    moreStatements stmt (bound + 1) ⟨found :: ts, j⟩ =
      if found.token.endsBlock then .ok [] ⟨found :: ts, j⟩
      else statementThen stmt (moreStatements stmt bound) ⟨found :: ts, j⟩ := by
  show (if found.token.endsBlock then pure [] else
    statementThen stmt (moreStatements stmt bound) : Parser Block) ⟨found :: ts, j⟩ = _
  split <;> rfl

/-- The first statement of a block is not optional: a token that ends blocks is reported there, and
not consumed. -/
theorem block_cons (stmt : Parser Statement) (found : Lexeme) (ts : List Lexeme) (j : Journal) :
    block stmt ⟨found :: ts, j⟩ =
      if found.token.endsBlock then
        .error ⟨.unexpectedToken .statement found.token, found.line⟩ ⟨found :: ts, j⟩
      else statementThen stmt (do moreStatements stmt (← remaining)) ⟨found :: ts, j⟩ := by
  show (if found.token.endsBlock then failAt found .statement else
    statementThen stmt (do moreStatements stmt (← remaining)) : Parser Block)
      ⟨found :: ts, j⟩ = _
  split <;> rfl

/-- The parsers of what a conditional or a loop holds where so many levels may be opened. -/
def interior? : (levels : Nat) → Option Interior
  | 0 => none
  | levels + 1 => some ⟨expression levels, statements levels⟩

/-- Statements where no level may be opened are no case of their own: only the interior is missing.
-/
theorem statement_eq (levels : Nat) :
    statement levels = statementWith (expression levels) (interior? levels) := by
  cases levels <;> rfl

/-! ### Programs -/

/-- What follows the names of a procedure, the keyword of which stood on the given line. -/
def procedureBody (body : Parser Block) (name : String) (params locals : List String)
    (line : Nat) : Parser Procedure := do
  checkDistinct name (params ++ locals) line
  let statements ← body
  let _ ← expect (.keyword .endKw)
  skipSemicolon
  note (.declared ⟨name, params, locals, statements, line⟩)
  pure ⟨name, params, locals, statements, line⟩

/-- What follows the keyword `procedure`, which stood on the given line. -/
def afterProcedure (body : Parser Block) (line : Nat) : Parser Procedure := do
  let name ← identifier
  let _ ← expect (.symbol .leftParen)
  let params ← commaList identifier (.symbol .rightParen)
  let locals ← localNames
  procedureBody body name params locals line

/-- The parser of the body of a procedure where so many levels may be opened, the procedure
included. -/
def body? : (levels : Nat) → Option (Parser Block)
  | 0 => none
  | levels + 1 => some (statements levels)

/-- Nor are procedures: only the body is missing. -/
theorem procedure_eq (levels : Nat) : procedure levels = procedureWith (body? levels) := by
  cases levels <;> rfl

/-- A first procedure, and more. -/
def procedureThen (proc : Parser Procedure) (more : Parser (List Procedure)) :
    Parser (List Procedure) := do
  let first ← proc
  let others ← more
  pure (first :: others)

/-- At the end of the stream no procedure follows, whatever the bound. -/
theorem moreProcedures_nil (proc : Parser Procedure) (bound : Nat) (j : Journal) :
    moreProcedures proc bound ⟨[], j⟩ = .ok [] ⟨[], j⟩ := by
  cases bound <;> rfl

/-- Procedures go on as long as the next token is their keyword; the first token of the statements
stays. -/
theorem moreProcedures_cons (proc : Parser Procedure) (bound : Nat) (found : Lexeme)
    (ts : List Lexeme) (j : Journal) :
    moreProcedures proc (bound + 1) ⟨found :: ts, j⟩ =
      if found.token = .keyword .procedureKw then
        procedureThen proc (moreProcedures proc bound) ⟨found :: ts, j⟩
      else .ok [] ⟨found :: ts, j⟩ := by
  show (if found.token = .keyword .procedureKw then
      procedureThen proc (moreProcedures proc bound)
    else pure [] : Parser (List Procedure)) ⟨found :: ts, j⟩ = _
  split <;> rfl

/-- The check of the nesting reads the whole stream in advance and consumes nothing. -/
theorem checkNesting_apply (limit : Nat) (ts : List Lexeme) (j : Journal) :
    checkNesting limit ⟨ts, j⟩ =
      match tooDeep? limit 0 ts with
      | none => .ok () ⟨ts, j⟩
      | some opening => .error ⟨.nestingTooDeep limit, opening.line⟩ ⟨ts, j⟩ := by
  show (match tooDeep? limit 0 ts with
    | none => pure ()
    | some opening => throw ⟨.nestingTooDeep limit, opening.line⟩ : Parser Unit) ⟨ts, j⟩ = _
  cases tooDeep? limit 0 ts <;> rfl

/-- Consumes the end of the input behind a program. -/
def programEnd (p : Program) : Parser Program := do
  match ← next? with
  | none => failAtEnd
  | some last =>
    if last.token = .eof then
      note (.parsed p.procedures.length p.statements.length)
      pure p
    else failAt last (.token .eof)

/-- A program is its procedures, its statements and the end of the input, in this order. -/
theorem uncheckedProgram_eq (levels : Nat) :
    uncheckedProgram levels = procedures levels >>= fun ps ↦
      statements levels >>= fun block ↦ programEnd ⟨ps, block⟩ := rfl

end TinyProc.Parser
