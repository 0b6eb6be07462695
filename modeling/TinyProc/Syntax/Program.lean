import TinyProc.Syntax.Statement

/-!
# Parsing programs

```
program   := procedure* statement+ end of input
procedure := procedure name ( [name (, name)*] ) [var [name (, name)*] ;] block end [;]
```

Before a program is parsed its nesting is checked against `maxNesting`, on the whole stream and
whether or not the levels balance. The parts of a program can also be parsed alone; they are not
checked.
-/

namespace TinyProc

/-! ### Nesting -/

/-- How deep parentheses and blocks may be nested in a program. -/
def maxNesting : Nat := 64

/-- Whether a token opens a level. -/
def Token.opensLevel : Token → Bool
  | .symbol .leftParen | .keyword .ifKw | .keyword .whileKw | .keyword .procedureKw => true
  | _ => false

/-- Whether a token closes a level. -/
def Token.closesLevel : Token → Bool
  | .symbol .rightParen | .keyword .endKw => true
  | _ => false

/-- The first token that opens a level beyond the limit, with so many levels open at the start. A
token that closes a level where none is open changes nothing. -/
def tooDeep? (limit : Nat) : (depth : Nat) → List Lexeme → Option Lexeme
  | _, [] => none
  | depth, lexeme :: rest =>
    if lexeme.token.opensLevel then
      if depth + 1 > limit then some lexeme else tooDeep? limit (depth + 1) rest
    else if lexeme.token.closesLevel then tooDeep? limit (depth - 1) rest
    else tooDeep? limit depth rest

/-! ### Distinct names -/

/-- The first name of the list that stands earlier in it or is among those seen. -/
def firstRepeated? (seen : List String) : List String → Option String
  | [] => none
  | name :: rest => if name ∈ seen then some name else firstRepeated? (name :: seen) rest

namespace Parser

/-- Fails if the tokens left are nested too deep. -/
def checkNesting (limit : Nat) : Parser Unit := do
  match tooDeep? limit 0 (← get).rest with
  | none => pure ()
  | some lexeme => throw ⟨.nestingTooDeep limit, lexeme.line⟩

/-- Fails if a procedure binds a name twice. -/
def checkDistinct (procedure : String) (names : List String) (line : Nat) : Parser Unit :=
  match firstRepeated? [procedure] names with
  | none => pure ()
  | some name => throw ⟨.duplicateBinding name procedure, line⟩

/-! ### Procedures -/

/-- The local variables of a procedure, if it declares some. -/
def localNames : Parser (List String) := do
  match ← take? (.keyword .varKw) with
  | none => pure []
  | some _ => commaList identifier (.symbol .semicolon)

/-- A procedure, given the parser of its body; none if no level is left to open. -/
def procedureWith (body? : Option (Parser Block)) : Parser Procedure := do
  let line ← expect (.keyword .procedureKw)
  match body? with
  | none => failTooDeep ⟨.keyword .procedureKw, line⟩
  | some body =>
    let name ← identifier
    let _ ← expect (.symbol .leftParen)
    let params ← commaList identifier (.symbol .rightParen)
    let locals ← localNames
    checkDistinct name (params ++ locals) line
    let statements ← body
    let _ ← expect (.keyword .endKw)
    skipSemicolon
    let procedure : Procedure := ⟨name, params, locals, statements, line⟩
    note (.declared procedure)
    pure procedure

/-- A procedure in which so many levels may be opened, itself included. -/
def procedure : (levels : Nat) → Parser Procedure
  | 0 => procedureWith none
  | levels + 1 => procedureWith (some (statements levels))

/-- Procedures as long as there are any. -/
def moreProcedures (procedure : Parser Procedure) : (bound : Nat) → Parser (List Procedure)
  | 0 => pure []
  | bound + 1 => do
    match ← peek? with
    | none => pure []
    | some next =>
      if next.token = .keyword .procedureKw then
        let first ← procedure
        let others ← moreProcedures procedure bound
        pure (first :: others)
      else pure []

/-- The procedures at the head of a program, in which so many levels may be opened. -/
def procedures (levels : Nat) : Parser (List Procedure) := do
  moreProcedures (procedure levels) (← remaining)

/-! ### Programs -/

/-- A program in which so many levels may be opened, without the check of its nesting. -/
def uncheckedProgram (levels : Nat) : Parser Program := do
  let procedures ← procedures levels
  let statements ← statements levels
  match ← next? with
  | none => failAtEnd
  | some last =>
    if last.token = .eof then
      note (.parsed procedures.length statements.length)
      pure ⟨procedures, statements⟩
    else failAt last (.token .eof)

/-- A program. -/
def program (levels : Nat) : Parser Program := do
  checkNesting maxNesting
  uncheckedProgram levels

/-- Runs a parser from a cursor, with as many levels as there are tokens and so without a limit of
its own. -/
def runFrom {α : Type} (parser : Nat → Parser α) (c : Cursor) :
    EStateM.Result SyntaxError Cursor α :=
  parser c.rest.length c

/-- Parses the front of a stream of tokens. Returns what it is and the tokens left. -/
def parse {α : Type} (parser : Nat → Parser α) (tokens : List Lexeme) :
    Except SyntaxError (α × List Lexeme) :=
  match runFrom parser ⟨tokens, .silent⟩ with
  | .ok a c => .ok (a, c.rest)
  | .error e _ => .error e

end Parser

end TinyProc
