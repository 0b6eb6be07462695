import TinyProc.CommandLine

/-!
# The command

The thin layer between the library and the outside: arguments, files, input and output. A program is
run on the input that has arrived so far. If it asks for more, its output is shown, another line is
waited for, and it is run again on the longer input; the output shown before is the start of the new
one. A loop that has used up its rounds is given more in the same way.
-/

namespace TinyProc.CommandLine

/-- Reads the bytes of a line, up to and with the byte that ends it. -/
partial def readLineBytes (stream : IO.FS.Stream) (line : List UInt8) : IO (List UInt8) := do
  let bytes ← stream.read 1
  match bytes.toList with
  | [] => pure line.reverse
  | b :: _ =>
    if b = Console.lineEnd then pure (b :: line).reverse else readLineBytes stream (b :: line)

/-- Whether a run has stopped because the input has not arrived. -/
def wantsInput (o : Outcome) : Bool :=
  match o.ending with
  | .failed (.run fault) =>
    match fault.cause with
    | .inputExhausted _ => true
    | _ => false
  | _ => false

/-- Runs a source text on input that arrives line by line. The first `shown` lines of output have
been shown before. -/
partial def interact (settings : Settings) (source : String) (rounds : Nat) (input : List UInt8)
    (atEnd : Bool) (shown : Nat) : IO UInt32 := do
  let outcome := settings.run rounds source input
  let words := outcome.machine.console.output.toList
  let stdout ← IO.getStdout
  stdout.putStr (Console.textOf (words.drop shown))
  stdout.flush
  if outcome.ending = .unfinished then
    interact settings source (2 * rounds) input atEnd words.length
  else if wantsInput outcome && !atEnd then
    let line ← readLineBytes (← IO.getStdin) []
    interact settings source rounds (input ++ line) line.isEmpty words.length
  else
    (← IO.getStderr).putStr (errorText outcome)
    pure (exitCode outcome).toUInt32

/-- Writes a report and returns its exit code. -/
def emit (report : Report) : IO UInt32 := do
  (← IO.getStdout).putStr report.stdout
  (← IO.getStderr).putStr report.stderr
  pure report.exit.toUInt32

/-- The text of a file, if it can be read. -/
def readFile? (name : String) : IO (Option String) := do
  try
    let text ← IO.FS.readFile name
    pure (some text)
  catch _ => pure none

end TinyProc.CommandLine

open TinyProc.CommandLine in
/-- Does what the arguments ask for. -/
def main (arguments : List String) : IO UInt32 := do
  match requestOf arguments with
  | .run settings contents =>
    let file? ← if settings.fromFile then readFile? contents else pure none
    match settings.source? (fun _ ↦ file?) contents with
    | some source => interact settings source 1000 [] false 0
    | none => emit ⟨1, "", unreadableText contents⟩
  | request => emit (request.report (fun _ ↦ none) 0 [])
