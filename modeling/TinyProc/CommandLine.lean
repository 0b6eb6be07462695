import TinyProc.Interpreter

/-!
# The command line

```
[-f | --file] [-v | --verbose]… [--max-depth N] [--] CONTENTS
-V | --version
-h | --help
```

`CONTENTS` is the source text, or with `-f` the name of a file that holds it. The arguments are read
from left to right, and the first that is wrong, or that asks for the version or the help, decides.
What starts with a minus sign is an option, up to the argument `--`; a minus sign alone is none.
Short options may be joined. `-v` may be repeated, `-f` and `--max-depth` may not.

`Settings.read` reads the arguments, `Settings.report` runs what they ask for. Files and input are
given to them as data, so that nothing here touches the outside.
-/

namespace TinyProc.CommandLine

/-! ### Arguments -/

/-- What the arguments read so far say. -/
structure Settings where
  /-- Whether the contents are the name of a file. -/
  fromFile : Bool
  /-- How deep calls may be nested, if told. -/
  depth? : Option Nat
  /-- How often more details were asked for. -/
  verbosity : Nat
  /-- The source text or the name of a file. -/
  contents? : Option String
deriving DecidableEq

/-- Nothing said. -/
def Settings.initial : Settings where
  fromFile := false
  depth? := none
  verbosity := 0
  contents? := none

/-- What the arguments ask for. -/
inductive Request
  /-- To run the contents. -/
  | run (settings : Settings) (contents : String)
  | version
  | help
  /-- Nothing that can be done: the arguments are wrong. -/
  | misuse
deriving DecidableEq

/-- The options without a value. -/
inductive Flag
  | file
  | verbose
  | version
  | help
deriving DecidableEq

/-- The flag with a short name. -/
def Flag.ofShort? : Char → Option Flag
  | 'f' => some file
  | 'v' => some verbose
  | 'V' => some version
  | 'h' => some help
  | _ => none

/-- The flag with a long name. -/
def Flag.ofLong? (argument : String) : Option Flag :=
  if argument = "--file" then some file
  else if argument = "--verbose" then some verbose
  else if argument = "--version" then some version
  else if argument = "--help" then some help
  else none

/-- Reads a depth: digits, a plus sign in front allowed, up to the largest number of 64 bits. -/
def depthOf? (text : List Char) : Option Nat :=
  let digits := match text with
    | '+' :: rest => rest
    | _ => text
  match Decimal.natural? digits with
  | none => none
  | some n => if n < 18446744073709551616 then some n else none

namespace Settings

/-- What a flag makes of the settings, or what it asks for at once. -/
def flag (s : Settings) : Flag → Except Request Settings
  | .file => if s.fromFile then .error .misuse else .ok { s with fromFile := true }
  | .verbose => .ok { s with verbosity := s.verbosity + 1 }
  | .version => .error .version
  | .help => .error .help

/-- What the short names joined in one argument make of the settings. -/
def flags (s : Settings) : List Char → Except Request Settings
  | [] => .ok s
  | c :: rest =>
    match Flag.ofShort? c with
    | none => .error .misuse
    | some f =>
      match s.flag f with
      | .error request => .error request
      | .ok s' => s'.flags rest

/-- Takes the text of a depth. -/
def depth (s : Settings) (text : List Char) : Except Request Settings :=
  match s.depth?, depthOf? text with
  | none, some n => .ok { s with depth? := some n }
  | _, _ => .error .misuse

/-- Takes an argument that is no option. -/
def positional (s : Settings) (argument : String) : Except Request Settings :=
  match s.contents? with
  | none => .ok { s with contents? := some argument }
  | some _ => .error .misuse

/-- Whether an argument is an option, by the minus sign in front. -/
def isOption (argument : String) : Bool :=
  match argument.toList with
  | '-' :: _ :: _ => true
  | _ => false

/-- Takes an argument that stands for itself, the value of `--max-depth` in it if it has one. -/
def argument (s : Settings) (argument : String) : Except Request Settings :=
  match argument.toList with
  | '-' :: '-' :: 'm' :: 'a' :: 'x' :: '-' :: 'd' :: 'e' :: 'p' :: 't' :: 'h' :: '=' :: value =>
    s.depth value
  | '-' :: '-' :: _ =>
    match Flag.ofLong? argument with
    | none => .error .misuse
    | some f => s.flag f
  | '-' :: c :: rest => s.flags (c :: rest)
  | _ => s.positional argument

/-- What the settings ask for when all arguments are read. -/
def request (s : Settings) : Request :=
  match s.contents? with
  | none => .misuse
  | some contents => .run s contents

/-- Reads arguments none of which is an option. -/
def readPositionals (s : Settings) : List String → Request
  | [] => s.request
  | a :: rest =>
    match s.positional a with
    | .error request => request
    | .ok s' => s'.readPositionals rest

/-- Reads the arguments. -/
def read (s : Settings) : List String → Request
  | [] => s.request
  | "--" :: rest => s.readPositionals rest
  | "--max-depth" :: value :: rest =>
    if isOption value then .misuse
    else
      match s.depth value.toList with
      | .error request => request
      | .ok s' => s'.read rest
  | a :: rest =>
    match s.argument a with
    | .error request => request
    | .ok s' => s'.read rest

end Settings

/-- What the arguments ask for. -/
def requestOf (arguments : List String) : Request :=
  Settings.initial.read arguments

/-! ### Reports -/

/-- What the command leaves behind. -/
structure Report where
  /-- The exit code. -/
  exit : Nat
  /-- The text on the standard output. -/
  stdout : String
  /-- The text on the standard error output. -/
  stderr : String
deriving DecidableEq

/-- The name and version of the command. -/
def versionText : String := "simpas 0.1.0\n"

/-- How to use the command. -/
def usageText : String :=
  "Usage: simpas [OPTIONS] <CONTENTS>\n\nOptions:\n" ++
    "  -f, --file       Take CONTENTS as the name of a file\n" ++
    "      --max-depth  How deep procedure calls may nest [default: 64]\n" ++
    "  -v, --verbose    Log more details; repeat for even more\n" ++
    "  -h, --help       Print help\n" ++
    "  -V, --version    Print version\n"

/-- What is said of a file that cannot be read. -/
def unreadableText (name : String) : String :=
  "Failed to read the input file " ++ inQuotes name ++ ". Perhaps this file does not exist?\n"

/-- The journal that the settings ask for. -/
def Settings.journal (s : Settings) : Journal :=
  match s.verbosity with
  | 0 => .silent
  | 1 => .upTo .debug
  | _ => .upTo .trace

/-- The depth that the settings ask for. -/
def Settings.calls (s : Settings) : Nat :=
  s.depth?.getD defaultCalls

/-- Runs a source text as the settings ask, on the given input. -/
def Settings.run (s : Settings) (rounds : Nat) (source : String) (input : List UInt8) : Outcome :=
  TinyProc.run ⟨s.calls, rounds⟩ source (.start input .reliable) s.journal

/-- What is written on the standard error output after a run: the records, then the failure. -/
def errorText (o : Outcome) : String :=
  String.join (o.machine.journal.records.map (· ++ "\n")) ++
    match o.ending with
    | .failed failure => failure.message ++ "\n"
    | .finished | .staleScope | .unfinished => ""

/-- The exit code of a run: zero if it has finished. -/
def exitCode (o : Outcome) : Nat :=
  match o.ending with
  | .finished => 0
  | .failed _ | .staleScope | .unfinished => 1

/-- The report of a run. -/
def reportOf (o : Outcome) : Report where
  exit := exitCode o
  stdout := o.machine.console.outputText
  stderr := errorText o

/-- The source text that is to be run, given what the files hold; none if the file cannot be read.
-/
def Settings.source? (s : Settings) (file? : String → Option String) (contents : String) :
    Option String :=
  if s.fromFile then file? contents else some contents

/-- Does what is asked for, given what the files hold and what the input holds. -/
def Request.report (file? : String → Option String) (rounds : Nat) (input : List UInt8) :
    Request → Report
  | .version => ⟨0, versionText, ""⟩
  | .help => ⟨0, usageText, ""⟩
  | .misuse => ⟨2, "", usageText⟩
  | .run settings contents =>
    match settings.source? file? contents with
    | none => ⟨1, "", unreadableText contents⟩
    | some source => reportOf (settings.run rounds source input)

end TinyProc.CommandLine
