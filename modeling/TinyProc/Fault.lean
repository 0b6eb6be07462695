import TinyProc.Diagnostic

/-!
# Faults

What can stop a running program, and the words for it.
-/

namespace TinyProc

/-- Failures of the streams behind a program. -/
inductive StreamFailure
  /-- A line of input is not UTF-8. -/
  | notText
  /-- The output takes no more lines. -/
  | outputFull
  /-- The output could not be flushed. -/
  | flushFailed
deriving DecidableEq

/-- The words for a failing stream. -/
def StreamFailure.text : StreamFailure → String
  | notText => "stream did not contain valid UTF-8"
  | outputFull => "output full"
  | flushFailed => "flush failed"

/-- Why a program stopped. -/
inductive FaultCause
  /-- A variable is read that no scope in reach binds. -/
  | undefinedVariable (name : String)
  /-- A procedure is called that is not registered. -/
  | unknownProcedure (name : String)
  /-- A procedure is declared under a name that is taken. -/
  | procedureAlreadyDefined (name : String)
  /-- A call has the wrong number of arguments. -/
  | arityMismatch (name : String) (expected found : Nat)
  | divisionByZero
  /-- The exact result of an operation is no word. -/
  | overflow
  /-- A line of input, given without the blanks around it, is no word. -/
  | inputFormat (input : String)
  /-- There is no input left for a variable. -/
  | inputExhausted (name : String)
  /-- Calls are nested deeper than the limit. -/
  | callsTooDeep (limit : Nat)
  /-- A stream failed. -/
  | stream (failure : StreamFailure)
deriving DecidableEq

/-- The sentence for a fault. -/
def FaultCause.text : FaultCause → String
  | undefinedVariable name => "Undefined variable " ++ inQuotes name
  | unknownProcedure name => "Unknown procedure " ++ inQuotes name
  | procedureAlreadyDefined name => "Procedure " ++ inQuotes name ++ " is already defined"
  | arityMismatch name expected found =>
    "Procedure " ++ inQuotes name ++ " expects " ++ Decimal.ofNat expected ++
      " argument(s), but " ++ Decimal.ofNat found ++ " were supplied"
  | divisionByZero => "Division by zero"
  | overflow => "Integer overflow while trying to compute result"
  | inputFormat input => "Expected an integer as input, found " ++ inQuotes input
  | inputExhausted name => "No input left to read into " ++ inQuotes name
  | callsTooDeep limit => "Procedure calls nested deeper than " ++ Decimal.ofNat limit
  | stream failure => "I/O failure: " ++ failure.text

instance : Explained FaultCause := ⟨FaultCause.text⟩

/-- A fault and the line of the source at fault. -/
abbrev Fault := Diagnostic FaultCause

end TinyProc
