import TinyProc.Journal.Basic
import TinyProc.Syntax.Error

/-!
# Parsers

A parser works on a `Cursor`: the tokens not yet consumed, and the journal. It looks at most one
token ahead and never goes back, so that a parser that fails has consumed what it has consumed.

The repetitions of the grammar are loops over the tokens left. Each is given the number of these
tokens as a bound; every round consumes at least one of them, so that a loop that has used up its
bound stands at the end of the stream, and answers what it answers there.
-/

namespace TinyProc

/-- A place in a stream of tokens. -/
structure Cursor where
  /-- The tokens not yet consumed. -/
  rest : List Lexeme
  /-- What has been noted. -/
  journal : Journal

/-- A parser. -/
abbrev Parser := EStateM SyntaxError Cursor

namespace Parser

/-! ### Single tokens -/

/-- The next token, left where it is. -/
def peek? : Parser (Option Lexeme) :=
  return (← get).rest.head?

/-- Passes the next token. -/
def advance : Parser Unit :=
  modify fun c ↦ { c with rest := c.rest.tail }

/-- The number of tokens left. -/
def remaining : Parser Nat :=
  return (← get).rest.length

/-- Notes an event. -/
def note (e : Event) : Parser Unit :=
  modify fun c ↦ { c with journal := c.journal.note e }

@[simp] theorem peek?_apply (c : Cursor) : peek? c = .ok c.rest.head? c := rfl

@[simp] theorem advance_apply (c : Cursor) :
    advance c = .ok () { c with rest := c.rest.tail } := rfl

@[simp] theorem remaining_apply (c : Cursor) : remaining c = .ok c.rest.length c := rfl

@[simp] theorem note_apply (e : Event) (c : Cursor) :
    note e c = .ok () { c with journal := c.journal.note e } := rfl

/-- Fails because the stream has ended. There is no token to take a line from, and the line is
zero. -/
def failAtEnd {α : Type} : Parser α :=
  throw ⟨.unexpectedEnd, 0⟩

/-- Fails at a token. -/
def failAt {α : Type} (found : Lexeme) (expected : Expectation) : Parser α :=
  throw ⟨.unexpectedToken expected found.token, found.line⟩

/-- The next token, left where it is; there has to be one. -/
def peek : Parser Lexeme := do
  match ← peek? with
  | some lexeme => pure lexeme
  | none => failAtEnd

/-- Consumes the next token, if there is one. -/
def next? : Parser (Option Lexeme) := do
  let lexeme? ← peek?
  advance
  pure lexeme?

@[simp] theorem next?_apply (c : Cursor) :
    next? c = .ok c.rest.head? { c with rest := c.rest.tail } := rfl

/-- Consumes the given token and returns its line. -/
def expect (token : Token) : Parser Nat := do
  match ← next? with
  | none => failAtEnd
  | some found => if found.token = token then pure found.line else failAt found (.token token)

/-- Consumes a name. -/
def identifier : Parser String := do
  match ← next? with
  | none => failAtEnd
  | some found =>
    match found.token with
    | .identifier name => pure name
    | _ => failAt found .identifier

/-- Whether the next token is the given one; if so, passes it and returns its line. -/
def take? (token : Token) : Parser (Option Nat) := do
  match ← peek? with
  | none => pure none
  | some found =>
    if found.token = token then
      advance
      pure (some found.line)
    else pure none

/-- Passes a semicolon, if there is one. -/
def skipSemicolon : Parser Unit := do
  let _ ← take? (.symbol .semicolon)

/-! ### Lists with commas -/

/-- The items of a list that is not empty, up to and with the token that closes it. -/
def items {α : Type} (item : Parser α) (closing : Token) : (bound : Nat) → Parser (List α)
  | 0 => failAtEnd
  | bound + 1 => do
    let first ← item
    match ← next? with
    | none => failAtEnd
    | some found =>
      if found.token = .symbol .comma then
        let others ← items item closing bound
        pure (first :: others)
      else if found.token = closing then pure [first]
      else failAt found (.commaOr closing)

/-- A list with commas, up to and with the token that closes it. The list may be empty. -/
def commaList {α : Type} (item : Parser α) (closing : Token) : Parser (List α) := do
  match ← take? closing with
  | some _ => pure []
  | none => items item closing (← remaining)

end Parser

end TinyProc
