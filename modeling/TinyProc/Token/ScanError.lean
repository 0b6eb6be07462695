import TinyProc.Diagnostic
import TinyProc.Text.Quoted

/-!
# Scan errors

The three ways in which source text can fail to be cut into tokens.
-/

namespace TinyProc

/-- Why scanning stopped. -/
inductive ScanCause
  /-- A character that no token starts with. -/
  | unexpectedCharacter (found : Char)
  /-- A character that may not stand directly after the spelling before it. -/
  | illegalTrailing (spelling : String) (found : Char)
  /-- Digits that stand for a number beyond the words. -/
  | literalTooLarge (digits : String)
deriving DecidableEq

/-- The sentence for a scan error. -/
def ScanCause.text : ScanCause → String
  | unexpectedCharacter found => "Unexpected character " ++ quoteChar found
  | illegalTrailing spelling found =>
    "Expected white space or an operator after " ++ inQuotes spelling ++ ", found " ++
      quoteChar found
  | literalTooLarge digits => "Literal " ++ digits ++ " is too large"

instance : Explained ScanCause := ⟨ScanCause.text⟩

/-- A scan error and its line. -/
abbrev ScanError := Diagnostic ScanCause

end TinyProc
