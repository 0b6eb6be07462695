import TinyProc.Fault
import TinyProc.Text.Blank
import TinyProc.Word

/-!
# The console

What a program reads from and writes to. The input is a string of bytes, consumed by whole lines.
The output is the list of the words displayed, each on a line of its own, and it may be made to fail
in two ways: its *sink* may take only so many lines, and one of the flushes, which come one after
each line, may fail.

The console also counts the calls that are active at it. It outlives the programs that are run at
it, one after the other and perhaps in several environments, so that each of them, whether it fails
or not, has to leave the count where it has found it.
-/

namespace TinyProc

/-- What the output is written to. -/
structure Sink where
  /-- How many lines it takes; none if there is no bound. -/
  capacity : Option Nat
  /-- Which flush fails, counted from 1; none if all succeed. -/
  failingFlush : Option Nat
deriving DecidableEq

/-- A sink that never fails. -/
def Sink.reliable : Sink where
  capacity := none
  failingFlush := none

/-- The input left, the output so far, the sink, and the count of active calls. -/
structure Console where
  /-- The bytes not yet read. -/
  input : List UInt8
  /-- The words displayed, in order. -/
  output : Array Word
  /-- What the output is written to. -/
  sink : Sink
  /-- How many calls are active. -/
  activeCalls : Nat

namespace Console

/-- A console with the given input and no output yet. -/
def start (input : List UInt8) (sink : Sink) : Console where
  input := input
  output := #[]
  sink := sink
  activeCalls := 0

/-! ### Counting calls -/

/-- The largest number that the count of active calls can be. -/
def maxCalls : Nat := 18446744073709551615

/-- Counts one more active call, if the count can hold it. -/
def enter? (c : Console) : Option Console :=
  if c.activeCalls < maxCalls then some { c with activeCalls := c.activeCalls + 1 } else none

/-- Counts one active call less, if there is one. -/
def leave? (c : Console) : Option Console :=
  if 0 < c.activeCalls then some { c with activeCalls := c.activeCalls - 1 } else none

/-! ### Output -/

/-- The line that shows a word. -/
def lineOf (w : Word) : String :=
  w.text ++ "\n"

/-- The text of words displayed one after the other. -/
def textOf (words : List Word) : String :=
  String.join (words.map lineOf)

/-- The whole output as a text. -/
def outputText (c : Console) : String :=
  textOf c.output.toList

/-- Whether the sink takes no more lines. -/
def isFull (c : Console) : Bool :=
  match c.sink.capacity with
  | none => false
  | some capacity => capacity ≤ c.output.size

/-- Displays a word and flushes. A full sink takes nothing of the line; if the flush fails, the line
has been written. Returns the failure, if any. -/
def display (c : Console) (w : Word) : Option StreamFailure × Console :=
  if c.isFull then (some .outputFull, c)
  else
    let c' := { c with output := c.output.push w }
    if c.sink.failingFlush = some c'.output.size then (some .flushFailed, c') else (none, c')

/-! ### Input -/

/-- The byte that ends a line. -/
def lineEnd : UInt8 := 10

/-- Cuts the first line off, up to and with the byte that ends it. The last line may lack that byte.
-/
def splitLine : List UInt8 → List UInt8 × List UInt8
  | [] => ([], [])
  | b :: rest =>
    if b = lineEnd then ([b], rest)
    else
      let (line, others) := splitLine rest
      (b :: line, others)

@[simp] theorem splitLine_nil : splitLine [] = ([], []) := rfl

/-- The line and the rest make up the input. -/
theorem splitLine_append (input : List UInt8) :
    (splitLine input).1 ++ (splitLine input).2 = input := by
  induction input with
  | nil => rfl
  | cons b rest ih =>
    unfold splitLine
    split
    · rfl
    · simpa using ih

/-- The text of a line, if it is UTF-8. -/
def decode? (line : List UInt8) : Option String :=
  String.fromUTF8? ⟨line.toArray⟩

/-- Reads a word from the bytes of a line, for the given variable. An empty line does not even hold
the byte that ends it, and means that the input is exhausted. -/
def readLine (name : String) (line : List UInt8) : Except FaultCause Word :=
  if line.isEmpty then .error (.inputExhausted name)
  else
    match decode? line with
    | none => .error (.stream .notText)
    | some text =>
      let trimmed := trim text.toList
      match Word.read? trimmed with
      | none => .error (.inputFormat (String.ofList trimmed))
      | some w => .ok w

/-- An empty line is missing input, and any other one fails by what it holds. -/
theorem readLine_eq_error {name : String} {line : List UInt8} {cause : FaultCause}
    (h : readLine name line = .error cause) :
    (line = [] ∧ cause = .inputExhausted name) ∨
      (line ≠ [] ∧ (cause = .stream .notText ∨ ∃ text, cause = .inputFormat text)) := by
  unfold readLine at h
  split at h
  case isTrue hempty =>
    exact .inl ⟨List.isEmpty_iff.1 hempty, (Except.error.inj h).symm⟩
  case isFalse hline =>
    refine .inr ⟨fun hnil ↦ hline (List.isEmpty_iff.2 hnil), ?_⟩
    split at h
    · exact .inl (Except.error.inj h).symm
    · dsimp only at h
      split at h
      · exact .inr ⟨_, (Except.error.inj h).symm⟩
      · cases h

/-- Consumes a line of the input and reads a word from it. The line is consumed in any case. -/
def read (c : Console) (name : String) : Except FaultCause Word × Console :=
  let (line, rest) := splitLine c.input
  (readLine name line, { c with input := rest })

end Console

end TinyProc
