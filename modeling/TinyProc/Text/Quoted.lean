import TinyProc.Text.Shown

/-!
# Quoted characters

How a message shows one character: between single quotes, with a short escape where there is one,
as it is where a reader can see it, and by its code point in braces otherwise.
-/

namespace TinyProc

/-- The characters that have a short escape: the letter after the backslash. -/
def shortEscape? : Char → Option Char
  | '\x00' => some '0'
  | '\t' => some 't'
  | '\r' => some 'r'
  | '\n' => some 'n'
  | '\'' => some '\''
  | '\\' => some '\\'
  | _ => none

/-- The escape of a character by its code point, in lower-case hexadecimal without padding. -/
def codeEscape (c : Char) : String :=
  "\\u\x7b" ++ String.ofList (Nat.toDigits 16 c.toNat) ++ "\x7d"

/-- A character as it stands between the quotes. -/
def escapeChar (c : Char) : String :=
  match shortEscape? c with
  | some letter => String.ofList ['\\', letter]
  | none => if isShown c then String.ofList [c] else codeEscape c

/-- A character in a message. -/
def quoteChar (c : Char) : String :=
  "'" ++ escapeChar c ++ "'"

end TinyProc
