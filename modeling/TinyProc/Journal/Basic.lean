import TinyProc.Journal.Rendering

/-!
# The journal

What happens while a program is scanned, parsed and run is noted as *events*. A `Journal` keeps the
events up to a level of detail, in order, or keeps nothing at all; `Journal.records` puts them into
words. Nothing in the library reads a journal back: an event has no influence on what follows it.
-/

namespace TinyProc

/-- The levels of detail, the coarser first. -/
inductive Level
  | debug
  | trace
deriving DecidableEq

/-- The name of a level in a record. -/
def Level.text : Level → String
  | debug => "DEBUG"
  | trace => "TRACE"

/-- Whether a journal of level `limit` keeps events of the given level. -/
def Level.within (level limit : Level) : Bool :=
  level = .debug || limit = .trace

/-- Something worth noting. -/
inductive Event
  /-- A token was delivered. -/
  | token (lexeme : Lexeme)
  /-- A whole text was cut into so many tokens. -/
  | scanned (tokens : Nat)
  /-- A statement was parsed. -/
  | statement (statement : Statement)
  /-- A procedure was parsed. -/
  | declared (procedure : Procedure)
  /-- A program was parsed. -/
  | parsed (procedures statements : Nat)
  /-- A variable was given a value, in the scope with the given index. -/
  | assigned (name : String) (value : Word) (scope : Nat)
  /-- A value was read for a variable. -/
  | read (name : String) (value : Word) (line : Nat)
  /-- A procedure is being called. -/
  | called (name : String) (arguments : List Word) (line : Nat)

namespace Event

/-- The level of an event. -/
def level : Event → Level
  | token _ | statement _ | assigned _ _ _ => .trace
  | scanned _ | declared _ | parsed _ _ | read _ _ _ | called _ _ _ => .debug

/-- The start of the text of an event that belongs to a line. -/
def onLine (line : Nat) (text : String) : String :=
  "line " ++ Decimal.ofNat line ++ ": " ++ text

/-- The text of an event. -/
def text : Event → String
  | token lexeme => onLine lexeme.line ("token " ++ lexeme.token.rendered)
  | scanned tokens => "scanned " ++ Decimal.ofNat tokens ++ " token(s)"
  | statement s => onLine s.line ("parsed " ++ s.rendered)
  | declared p =>
    onLine p.line
      ("declared procedure " ++ inQuotes p.name ++ " with " ++ Decimal.ofNat p.params.length ++
        " parameter(s) and " ++ Decimal.ofNat p.locals.length ++ " local(s)")
  | parsed procedures statements =>
    "parsed " ++ Decimal.ofNat procedures ++ " procedure(s) and " ++ Decimal.ofNat statements ++
      " top-level statement(s)"
  | assigned name value scope =>
    "set " ++ name ++ " = " ++ value.text ++ " in scope " ++ Decimal.ofNat scope
  | read name value line => onLine line ("read " ++ value.text ++ " into " ++ inQuotes name)
  | called name arguments line =>
    onLine line
      ("calling " ++ inQuotes name ++ " with " ++ Rendering.list (arguments.map Word.text))

/-- The record of an event: its level and its text. -/
def record (e : Event) : String :=
  e.level.text ++ " " ++ e.text

end Event

/-- The events noted so far. -/
structure Journal where
  /-- The finest level that is kept; none keeps nothing. -/
  limit : Option Level
  /-- The events, in order. -/
  events : Array Event

namespace Journal

/-- An empty journal that keeps events up to a level. -/
def upTo (limit : Level) : Journal where
  limit := some limit
  events := #[]

/-- The journal that keeps nothing. -/
def silent : Journal where
  limit := none
  events := #[]

/-- Whether the journal keeps events of a level. -/
def keeps (j : Journal) (level : Level) : Bool :=
  match j.limit with
  | none => false
  | some limit => level.within limit

/-- Notes an event. -/
def note (j : Journal) (e : Event) : Journal :=
  if j.keeps e.level then { j with events := j.events.push e } else j

@[simp] theorem note_silent (e : Event) : silent.note e = silent := rfl

/-- Notes several events in order. -/
def noteAll (j : Journal) (es : List Event) : Journal :=
  es.foldl note j

/-- The records of the events, in order. -/
def records (j : Journal) : List String :=
  j.events.toList.map Event.record

end Journal

end TinyProc
