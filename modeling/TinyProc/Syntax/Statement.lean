import TinyProc.Syntax.Expression

/-!
# Parsing statements and blocks

```
block     := statement+                     up to end, else or the end of the input
statement := ( display expression [read name]
             | read name
             | [assign] name (:= | =) expression
             | if expression then block [else block] end
             | while expression do block end ) [;]
```

A conditional and a loop open a level, as a parenthesis does. What they hold is parsed with one
level less, the condition included.
-/

namespace TinyProc

/-- Whether a token ends a block. It is left to whoever opened the block. -/
def Token.endsBlock : Token → Bool
  | .keyword .endKw | .keyword .elseKw | .eof => true
  | _ => false

namespace Parser

/-! ### Simple statements -/

/-- The name after the keyword `read`, which stood on the given line. -/
def readTarget (line : Nat) : Parser ReadTarget := do
  let name ← identifier
  pure ⟨name, line⟩

/-- A read attached to a display, if there is one. -/
def attachedRead? : Parser (Option ReadTarget) := do
  match ← take? (.keyword .readKw) with
  | none => pure none
  | some line =>
    let target ← readTarget line
    pure (some target)

/-- What follows the keyword `display`, which stood on the given line. -/
def display (expression : Parser Expr) (line : Nat) : Parser Statement := do
  let value ← expression
  let attached ← attachedRead?
  pure (.display value attached line)

/-- Consumes the sign of an assignment to a name on the given line, which is also the line on which
a missing sign at the end of the stream is reported. -/
def assignmentSign (line : Nat) : Parser Unit := do
  match ← next? with
  | none => throw ⟨.unexpectedEnd, line⟩
  | some found =>
    if found.token = .symbol .colonEquals ∨ found.token = .symbol .equals then pure ()
    else failAt found .assignmentSign

/-- An assignment, from the name on. -/
def assignment (expression : Parser Expr) : Parser Statement := do
  let first ← peek
  let name ← identifier
  assignmentSign first.line
  let value ← expression
  pure (.assign name value first.line)

/-! ### Blocks -/

/-- Statements up to the end of a block, possibly none. -/
def moreStatements (statement : Parser Statement) : (bound : Nat) → Parser Block
  | 0 => failAtEnd
  | bound + 1 => do
    let next ← peek
    if next.token.endsBlock then pure []
    else
      let first ← statement
      let others ← moreStatements statement bound
      pure (first :: others)

/-- One or more statements, up to the end of a block. -/
def block (statement : Parser Statement) : Parser Block := do
  let next ← peek
  if next.token.endsBlock then failAt next .statement
  else
    let first ← statement
    let others ← moreStatements statement (← remaining)
    pure (first :: others)

/-! ### Statements that hold blocks -/

/-- The parsers of what a conditional or a loop holds. -/
structure Interior where
  /-- The condition. -/
  condition : Parser Expr
  /-- A block. -/
  block : Parser Block

/-- The block after `else`, if there is one. -/
def elseBlock? (interior : Interior) : Parser (Option Block) := do
  match ← take? (.keyword .elseKw) with
  | none => pure none
  | some _ =>
    let statements ← interior.block
    pure (some statements)

/-- What follows the keyword `if`, which stood on the given line. -/
def branch (interior : Interior) (line : Nat) : Parser Statement := do
  let condition ← interior.condition
  let _ ← expect (.keyword .thenKw)
  let thenBlock ← interior.block
  let elseBlock ← elseBlock? interior
  let _ ← expect (.keyword .endKw)
  pure (.branch condition thenBlock elseBlock line)

/-- What follows the keyword `while`, which stood on the given line. -/
def loop (interior : Interior) (line : Nat) : Parser Statement := do
  let condition ← interior.condition
  let _ ← expect (.keyword .doKw)
  let body ← interior.block
  let _ ← expect (.keyword .endKw)
  pure (.loop condition body line)

/-- A statement without the semicolon behind it, given the parser of its expressions and those of
what it may hold. -/
def bareStatement (expression : Parser Expr) (interior? : Option Interior) : Parser Statement := do
  let first ← peek
  match first.token with
  | .keyword .displayKw =>
    advance
    display expression first.line
  | .keyword .readKw =>
    advance
    let target ← readTarget first.line
    pure (.read target)
  | .keyword .assignKw =>
    advance
    assignment expression
  | .identifier _ => assignment expression
  | .keyword .ifKw =>
    advance
    match interior? with
    | none => failTooDeep first
    | some interior => branch interior first.line
  | .keyword .whileKw =>
    advance
    match interior? with
    | none => failTooDeep first
    | some interior => loop interior first.line
  | _ => failAt first .statement

/-- A statement and the semicolon behind it, if there is one. -/
def statementWith (expression : Parser Expr) (interior? : Option Interior) : Parser Statement := do
  let statement ← bareStatement expression interior?
  skipSemicolon
  note (.statement statement)
  pure statement

/-! ### Levels -/

/-- A statement in which so many levels may be opened. -/
def statement : (levels : Nat) → Parser Statement
  | 0 => statementWith (expression 0) none
  | levels + 1 =>
    statementWith (expression (levels + 1)) (some ⟨expression levels, block (statement levels)⟩)

/-- One or more statements in which so many levels may be opened. -/
def statements (levels : Nat) : Parser Block :=
  block (statement levels)

end Parser

end TinyProc
