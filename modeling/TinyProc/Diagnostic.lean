import TinyProc.Text.Decimal

/-!
# Diagnostics

Everything that can go wrong, while scanning, parsing or running, is a *cause* and the source line
it is reported on. The causes of the three phases are separate types; the frame of the message is
the same for all of them and stands here.
-/

namespace TinyProc

/-- A cause of failure and the line it is reported on. -/
structure Diagnostic (κ : Type) where
  /-- What went wrong. -/
  cause : κ
  /-- The line of the source it is reported on. -/
  line : Nat
deriving DecidableEq

/-- Causes that can be put into words. The text is a sentence without its full stop. -/
class Explained (κ : Type) where
  /-- The sentence that explains a cause. -/
  explain : κ → String

/-- The message shown for a diagnostic. -/
def Diagnostic.message {κ : Type} [Explained κ] (d : Diagnostic κ) : String :=
  "Error on line " ++ Decimal.ofNat d.line ++ ": " ++ Explained.explain d.cause ++ "."

/-- A text between single quotes. -/
def inQuotes (text : String) : String :=
  "'" ++ text ++ "'"

end TinyProc
