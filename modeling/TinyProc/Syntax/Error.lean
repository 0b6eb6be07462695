import TinyProc.Token.Basic

/-!
# Syntax errors

The ways in which a stream of tokens can fail to be a program, or the part of one that is asked for.
-/

namespace TinyProc

/-- What the grammar asks for at some place. -/
inductive Expectation
  /-- This very token. -/
  | token (token : Token)
  /-- The start of a statement. -/
  | statement
  /-- The start of a value. -/
  | value
  /-- A name. -/
  | identifier
  /-- Either sign of an assignment. -/
  | assignmentSign
  /-- A comma, or the token that closes the list. -/
  | commaOr (closing : Token)
deriving DecidableEq

/-- The words for what is expected. -/
def Expectation.text : Expectation → String
  | token t => t.describe
  | statement => "a statement"
  | value => "a number, a variable or '('"
  | identifier => "an identifier"
  | assignmentSign => "':=' or '='"
  | commaOr closing => "',' or " ++ closing.describe

/-- Why parsing stopped. -/
inductive SyntaxCause
  /-- The token found is not what the grammar asks for. -/
  | unexpectedToken (expected : Expectation) (found : Token)
  /-- The stream ended where the grammar asks for more. -/
  | unexpectedEnd
  /-- A procedure binds a name twice among its own name, its parameters and its locals. -/
  | duplicateBinding (name procedure : String)
  /-- Parentheses and blocks are nested deeper than the limit. -/
  | nestingTooDeep (limit : Nat)
deriving DecidableEq

/-- The sentence for a syntax error. -/
def SyntaxCause.text : SyntaxCause → String
  | unexpectedToken expected found =>
    "Expected " ++ expected.text ++ ", found " ++ found.describe
  | unexpectedEnd => "Unexpected end of input"
  | duplicateBinding name procedure =>
    inQuotes name ++ " is bound more than once in procedure " ++ inQuotes procedure
  | nestingTooDeep limit => "Nesting is deeper than " ++ Decimal.ofNat limit ++ " levels"

instance : Explained SyntaxCause := ⟨SyntaxCause.text⟩

/-- A syntax error and its line. -/
abbrev SyntaxError := Diagnostic SyntaxCause

end TinyProc
