import TinyProc.Run.Evaluation
import TinyProc.Syntax.Program
import TinyProc.Token.Scanner

/-!
# From source text to output

The three phases in a row. Source text is scanned, the tokens are parsed, the program is run; the
first phase that fails decides the outcome, and nothing runs unless the whole text is a program.
-/

namespace TinyProc

/-- A failure of one of the phases. -/
inductive Failure
  /-- The text cannot be cut into tokens. -/
  | scan (error : ScanError)
  /-- The tokens are no program. -/
  | parse (error : SyntaxError)
  /-- The program has stopped with a fault. -/
  | run (fault : Fault)
deriving DecidableEq

namespace Failure

/-- The message of a failure is the message of what failed. -/
def message : Failure → String
  | scan e => e.message
  | parse e => e.message
  | run f => f.message

/-- The line of a failure. -/
def line : Failure → Nat
  | scan e => e.line
  | parse e => e.line
  | run f => f.line

end Failure

/-! ### Parsing source text -/

/-- The events of a scan: the tokens delivered, without the end of the input, and their number if
the scan succeeded. -/
def Scan.events (s : Scan) : List Event :=
  (s.lexemes.filter (·.token ≠ .eof)).map .token ++
    match s.error? with
    | none => [.scanned s.lexemes.length]
    | some _ => []

/-- Scans and parses a text, and notes what happens. -/
def parseNoting {α : Type} (parser : Nat → Parser α) (source : String) (journal : Journal) :
    Except Failure α × Journal :=
  let s := scan source
  let scanned := journal.noteAll s.events
  match s.error? with
  | some e => (.error (.scan e), scanned)
  | none =>
    match Parser.runFrom parser ⟨s.lexemes, scanned⟩ with
    | .ok a c => (.ok a, c.journal)
    | .error e c => (.error (.parse e), c.journal)

/-- Scans and parses a text as the given part of a program. Tokens behind the part are left alone.
-/
def parseAs {α : Type} (parser : Nat → Parser α) (source : String) : Except Failure α :=
  (parseNoting parser source .silent).1

/-- Scans and parses a text as a program. -/
def parseProgram (source : String) : Except Failure Program :=
  parseAs Parser.program source

/-! ### Running source text -/

/-- How a run of a source text has ended. -/
inductive Ending
  /-- It has come to its end. -/
  | finished
  /-- One of the phases has failed. -/
  | failed (failure : Failure)
  /-- It has used the address of a scope that is gone, or has lost count of its calls. -/
  | staleScope
  /-- It has not finished within its bounds. -/
  | unfinished
deriving DecidableEq

/-- The ending that a halt is. -/
def Halt.ending : Halt → Ending
  | fault f => .failed (.run f)
  | staleScope | miscounted => .staleScope
  | outOfRounds => .unfinished

/-- How a run has ended and what it has left behind. -/
structure Outcome where
  /-- How it has ended. -/
  ending : Ending
  /-- The machine as the run has left it. -/
  machine : Machine

/-- Runs a source text on a console, in an environment of its own. -/
def run (bounds : Bounds) (source : String) (console : Console) (journal : Journal) : Outcome :=
  match parseNoting Parser.program source journal with
  | (.error e, journal') => ⟨.failed e, ⟨.empty, console, journal'⟩⟩
  | (.ok program, journal') =>
    match Run.runProgram bounds program ⟨.empty, console, journal'⟩ with
    | .ok _ m => ⟨.finished, m⟩
    | .error halt m => ⟨halt.ending, m⟩

/-- Everything that a source text displays when it reads from the given text, or the failure that
stops it. There is no answer if the text has not finished within the given rounds. -/
def result? (rounds : Nat) (source input : String) : Option (Except Failure String) :=
  let console := Console.start input.toUTF8.toList .reliable
  let outcome := run ⟨defaultCalls, rounds⟩ source console .silent
  match outcome.ending with
  | .finished => some (.ok outcome.machine.console.outputText)
  | .failed failure => some (.error failure)
  | .staleScope | .unfinished => none

end TinyProc
