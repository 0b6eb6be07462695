import TinyProc.Diagnostic
import TinyProc.Word

/-!
# Tokens

The units that source text is cut into. A token is a number, a name, a keyword, a symbol, a piece of
layout or the end of the input; a `Lexeme` is a token together with the line it stands on.

Two texts belong to a token. `Token.text` is its canonical spelling, so that `007` and `7` have one
text and so have `IF` and `if`. `Token.describe` is how a message names it: the spelling in quotes,
except that the end of input is spelled out and so cannot be mistaken for the keyword `end`.

Layout tokens are never produced by scanning, which skips what they stand for. They are tokens all
the same, since a stream put together by other means may hold them.
-/

namespace TinyProc

/-! ### Keywords -/

/-- The words of the language that cannot be names. -/
inductive Keyword
  | displayKw
  | readKw
  | assignKw
  | ifKw
  | thenKw
  | elseKw
  | whileKw
  | doKw
  | endKw
  | procedureKw
  | varKw
deriving DecidableEq

namespace Keyword

/-- Every keyword. -/
def all : List Keyword :=
  [displayKw, readKw, assignKw, ifKw, thenKw, elseKw, whileKw, doKw, endKw, procedureKw, varKw]

theorem mem_all (k : Keyword) : k ∈ all := by
  cases k <;> decide

/-- The canonical spelling, in lower case. -/
def text : Keyword → String
  | displayKw => "display"
  | readKw => "read"
  | assignKw => "assign"
  | ifKw => "if"
  | thenKw => "then"
  | elseKw => "else"
  | whileKw => "while"
  | doKw => "do"
  | endKw => "end"
  | procedureKw => "procedure"
  | varKw => "var"

/-- The spelling in capitals, for the keywords that have one: those that shape the program, and not
the three that open a simple statement. -/
def capitals? : Keyword → Option String
  | displayKw | readKw | assignKw => none
  | ifKw => some "IF"
  | thenKw => some "THEN"
  | elseKw => some "ELSE"
  | whileKw => some "WHILE"
  | doKw => some "DO"
  | endKw => some "END"
  | procedureKw => some "PROCEDURE"
  | varKw => some "VAR"

/-- Whether `word` is one of the spellings of the keyword. -/
def isSpelled (k : Keyword) (word : String) : Bool :=
  word == k.text || some word == k.capitals?

/-- The keyword with the spelling `word`, if there is one. Mixed case is no spelling. -/
def ofSpelling? (word : String) : Option Keyword :=
  all.find? (·.isSpelled word)

end Keyword

/-! ### Symbols -/

/-- Operators and punctuation. -/
inductive Symbol
  | colonEquals
  | lessEqual
  | greaterEqual
  | notEqual
  | less
  | greater
  | equals
  | plus
  | minus
  | star
  | slash
  | percent
  | leftParen
  | rightParen
  | semicolon
  | colon
  | comma
  | period
deriving DecidableEq

/-- The spelling of a symbol. -/
def Symbol.text : Symbol → String
  | colonEquals => ":="
  | lessEqual => "<="
  | greaterEqual => ">="
  | notEqual => "<>"
  | less => "<"
  | greater => ">"
  | equals => "="
  | plus => "+"
  | minus => "-"
  | star => "*"
  | slash => "/"
  | percent => "%"
  | leftParen => "("
  | rightParen => ")"
  | semicolon => ";"
  | colon => ":"
  | comma => ","
  | period => "."

/-! ### Tokens -/

/-- Pieces of source text that mean nothing to a program. -/
inductive Layout
  | comment
  | newLine
  | space
deriving DecidableEq

/-- How a message shows a piece of layout: a line break by its escape, the others by nothing. -/
def Layout.text : Layout → String
  | newLine => "\\n"
  | comment | space => ""

/-- A token. -/
inductive Token
  /-- A number. -/
  | integer (value : Word)
  /-- The name of a variable or a procedure. -/
  | identifier (name : String)
  | keyword (keyword : Keyword)
  | symbol (symbol : Symbol)
  | layout (layout : Layout)
  /-- The end of the input. -/
  | eof
deriving DecidableEq

namespace Token

/-- The canonical spelling of a token. -/
def text : Token → String
  | integer value => value.text
  | identifier name => name
  | keyword k => k.text
  | symbol s => s.text
  | layout l => l.text
  | eof => "end"

/-- How a message names a token. -/
def describe : Token → String
  | eof => "end of input"
  | token => inQuotes token.text

/-- Whether a token is a number, a name or a keyword. -/
def isWord : Token → Bool
  | integer _ | identifier _ | keyword _ => true
  | symbol _ | layout _ | eof => false

/-- Whether `c` is white space in source text. -/
def isWhiteSpace (c : Char) : Bool :=
  c == ' ' || c == '\t' || c == '\r' || c == '\n'

/-- Whether `c` is an operator or punctuation character. The full stop is none: it ends the text. -/
def isOperatorChar (c : Char) : Bool :=
  ['-', '=', '+', '*', '/', '%', '(', ')', ';', ':', '<', '>', ','].contains c

/-- Whether `c` may stand directly after the token. White space and operator characters may follow
everything; letters and digits may follow what is not a word. -/
def mayPrecede (token : Token) (c : Char) : Bool :=
  isWhiteSpace c || isOperatorChar c || (!token.isWord && c.isAlphanum)

end Token

/-- A token and the line it stands on. -/
structure Lexeme where
  /-- The token. -/
  token : Token
  /-- Its line, counted from 1. -/
  line : Nat
deriving DecidableEq

end TinyProc
