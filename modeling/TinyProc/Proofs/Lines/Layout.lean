import TinyProc.Interpreter
import TinyProc.Proofs.Lines.Running
import TinyProc.Proofs.Token.Rendering

/-!
# Layout has no influence

Two source texts with the same tokens are the same program, however they are laid out. They differ
in the lines of their tokens, and by the theory of moved lines this is all that parsing and running
them differ in (`run_moved`).

That a text goes on for ever is said of all numbers of rounds: within none of them it comes to an
end (`Diverges`). If it comes to an end within some rounds, it comes to the same end within more
(`run_of_le`), and this is how it ends (`EndsAs`).
-/

namespace TinyProc

variable {R : Nat → Nat → Prop} {source source' : String} {ts ts' : List Lexeme}

/-! ### Streams that scanning delivers -/

/-- Two lists that are moved token by token are two streams, if the first ends in its only end mark.
-/
theorem stream_append {front : List Lexeme} {line : Nat} (hfront : ∀ t ∈ front, t.token ≠ .eof)
    (h : List.Forall₂ (Lexeme.Moved R) (front ++ [⟨.eof, line⟩]) ts') :
    Parser.Stream R (front ++ [⟨.eof, line⟩]) ts' := by
  induction front generalizing ts' with
  | nil =>
    obtain _ | ⟨⟨_, hline⟩, _ | _⟩ := h
    exact .last hline
  | cons t front ih =>
    have ⟨ht, htail⟩ := List.forall_mem_cons.1 hfront
    obtain _ | ⟨⟨_, hline⟩, hrest⟩ := h
    exact .cons ht hline (ih htail hrest)

/-- The end mark is the last token, and only the last. -/
def EndsInMark (ts : List Lexeme) : Prop :=
  ∃ front line, ts = front ++ [⟨.eof, line⟩] ∧ ∀ t ∈ front, t.token ≠ .eof

theorem EndsInMark.stream (h : EndsInMark ts)
    (hmoved : List.Forall₂ (Lexeme.Moved R) ts ts') : Parser.Stream R ts ts' := by
  obtain ⟨front, line, rfl, hfront⟩ := h
  exact stream_append hfront hmoved

/-- Scanning puts an end mark last, and delivers none before. -/
theorem endsInMark_of_tokenize (h : tokenize source = .ok ts) : EndsInMark ts := by
  obtain ⟨tail, hlexed⟩ := tokenize_eq_ok_iff_lexed.1 h
  obtain ⟨front, line, hts, hfront⟩ := hlexed.exists_front
  refine ⟨front, line, hts, fun t ht heof ↦ ?_⟩
  have hrenderable := hfront t ht
  rw [heof] at hrenderable
  exact hrenderable

/-! ### Parsing -/

/-- A failure of a text that has been scanned, and the same failure on a line that is moved. That
the stream has ended too early is none. -/
inductive Failure.Moved (R : Nat → Nat → Prop) : Failure → Failure → Prop
  | parse {cause : SyntaxCause} {line line' : Nat} (hcause : cause ≠ .unexpectedEnd)
    (hline : R line line') : Moved R (.parse ⟨cause, line⟩) (.parse ⟨cause, line'⟩)
  | run (cause : FaultCause) {line line' : Nat} (hline : R line line') :
    Moved R (.run ⟨cause, line⟩) (.run ⟨cause, line'⟩)

/-- What two texts have been parsed to: the same program with its lines moved, or the same failure
on a line that is moved. -/
inductive ParsedAlike (R : Nat → Nat → Prop) :
    Except Failure Program → Except Failure Program → Prop
  | ok {p p' : Program} (h : p.Moved R p') : ParsedAlike R (.ok p) (.ok p')
  | error {f f' : Failure} (h : f.Moved R f') : ParsedAlike R (.error f) (.error f')

/-- A text that can be scanned is parsed from its tokens. The journal starts with what scanning has
noted. -/
theorem parseNoting_of_tokenize {α : Type} (h : tokenize source = .ok ts)
    (parser : Nat → Parser α) (journal : Journal) :
    parseNoting parser source journal =
      match Parser.runFrom parser ⟨ts, journal.noteAll (scan source).events⟩ with
      | .ok a c => (.ok a, c.journal)
      | .error e c => (.error (.parse e), c.journal) := by
  unfold tokenize at h
  unfold parseNoting
  cases herror : (scan source).error? with
  | some e =>
    simp only [herror] at h
    cases h
  | none =>
    simp only [herror] at h ⊢
    cases h
    rfl

/-- Parsing two texts whose tokens are moved ends alike, whatever their journals. -/
theorem parseNoting_moved (h : tokenize source = .ok ts) (h' : tokenize source' = .ok ts')
    (hmoved : List.Forall₂ (Lexeme.Moved R) ts ts') (journal journal' : Journal) :
    ParsedAlike R (parseNoting Parser.program source journal).1
      (parseNoting Parser.program source' journal').1 := by
  have hends := Parser.runFrom_program_ends ((endsInMark_of_tokenize h).stream hmoved)
    (journal.noteAll (scan source).events) (journal'.noteAll (scan source').events)
  rw [parseNoting_of_tokenize h, parseNoting_of_tokenize h']
  revert hends
  generalize Parser.runFrom Parser.program ⟨ts, _⟩ = r, Parser.runFrom Parser.program ⟨ts', _⟩ = r'
  intro hends
  cases hends with
  | ok hp _ => exact .ok hp
  | error hcause hline => exact .error (.parse hcause hline)

/-! ### Running -/

/-- How two runs have ended: in the same way, on a line that is moved if they have failed. -/
inductive Ending.Moved (R : Nat → Nat → Prop) : Ending → Ending → Prop
  | finished : Moved R .finished .finished
  | failed {f f' : Failure} (h : f.Moved R f') : Moved R (.failed f) (.failed f')
  | staleScope : Moved R .staleScope .staleScope
  | unfinished : Moved R .unfinished .unfinished

/-- Two runs have ended in the same way and have left the same machine, but for lines. -/
structure Outcome.Moved (R : Nat → Nat → Prop) (o o' : Outcome) : Prop where
  /-- They have ended in the same way. -/
  ending : o.ending.Moved R o'.ending
  /-- They have left the same variables, procedures, input and output. -/
  machine : o.machine.Moved R o'.machine

/-- Halts that are moved are endings that are moved. Those that are not faults have no line. -/
theorem Halt.Moved.ending {h h' : Halt} (hh : h.Moved R h') : h.ending.Moved R h'.ending := by
  cases hh with
  | fault cause hline => exact .failed (.run cause hline)
  | staleScope => exact .staleScope
  | miscounted => exact .staleScope
  | outOfRounds => exact .unfinished

/-- **Texts with the same tokens end alike**, whatever lines their tokens stand on. -/
theorem run_moved (h : tokenize source = .ok ts) (h' : tokenize source' = .ok ts')
    (hmoved : List.Forall₂ (Lexeme.Moved R) ts ts') (bounds : Bounds) (console : Console)
    (journal journal' : Journal) :
    Outcome.Moved R (run bounds source console journal) (run bounds source' console journal') := by
  have hparsed := parseNoting_moved h h' hmoved journal journal'
  have hstart : ∀ j j' : Journal, Machine.Moved R ⟨.empty, console, j⟩ ⟨.empty, console, j'⟩ :=
    fun j j' ↦ .intro .empty [] console j j' .nil
  unfold run
  revert hparsed
  generalize parseNoting Parser.program source journal = parsed,
    parseNoting Parser.program source' journal' = parsed'
  obtain ⟨result, j⟩ := parsed
  obtain ⟨result', j'⟩ := parsed'
  intro hparsed
  cases hparsed with
  | error hf => exact ⟨.failed hf, hstart j j'⟩
  | @ok p p' hp =>
    have hends := Run.runProgram_parallel bounds hp _ _ (hstart j j')
    dsimp only
    revert hends
    generalize Run.runProgram bounds p ⟨.empty, console, j⟩ = r,
      Run.runProgram bounds p' ⟨.empty, console, j'⟩ = r'
    intro hends
    cases hends with
    | ok _ hm => exact ⟨.finished, hm⟩
    | error hh hm => exact ⟨hh.ending, hm⟩

/-! ### Going on for ever -/

/-- With so many calls allowed to be nested, the text does not come to an end within any number of
rounds. -/
def Diverges (calls : Nat) (source : String) (console : Console) (journal : Journal) : Prop :=
  ∀ rounds, (run ⟨calls, rounds⟩ source console journal).ending = .unfinished

/-- With so many calls allowed to be nested, and with rounds enough, the text comes to this end. -/
structure EndsAs (calls : Nat) (source : String) (console : Console) (journal : Journal)
    (o : Outcome) : Prop where
  /-- It is an end. -/
  ended : o.ending ≠ .unfinished
  /-- More rounds make no difference. -/
  eventually : ∃ enough, ∀ rounds, enough ≤ rounds → run ⟨calls, rounds⟩ source console journal = o

/-- A text that comes to an end within some rounds comes to the same end within more of them. -/
theorem run_of_le {calls rounds rounds' : Nat} {console : Console} {journal : Journal}
    (hle : rounds ≤ rounds')
    (h : (run ⟨calls, rounds⟩ source console journal).ending ≠ .unfinished) :
    run ⟨calls, rounds'⟩ source console journal = run ⟨calls, rounds⟩ source console journal := by
  unfold run at h ⊢
  revert h
  generalize parseNoting Parser.program source journal = parsed
  obtain ⟨result, j⟩ := parsed
  cases result with
  | error f => exact fun _ ↦ rfl
  | ok p =>
    intro h
    dsimp only at h ⊢
    have hb : (Bounds.mk calls rounds).Within ⟨calls, rounds'⟩ := ⟨Nat.le_refl _, hle⟩
    have hlasts := (Run.runProgram_outruns hb p).outlasts ⟨.empty, console, j⟩ rfl
    have hrounds : Run.halt? (Run.runProgram ⟨calls, rounds⟩ p ⟨.empty, console, j⟩) ≠
        some .outOfRounds := by
      intro hhalt
      cases hr : Run.runProgram ⟨calls, rounds⟩ p ⟨.empty, console, j⟩ with
      | ok _ m =>
        rw [hr] at hhalt
        cases hhalt
      | error halt m =>
        rw [hr] at h hhalt
        cases hhalt
        exact h rfl
    rw [hlasts.eq hrounds (.inl rfl)]

theorem endsAs_of_ending {calls rounds : Nat} {console : Console} {journal : Journal}
    (h : (run ⟨calls, rounds⟩ source console journal).ending ≠ .unfinished) :
    EndsAs calls source console journal (run ⟨calls, rounds⟩ source console journal) :=
  ⟨h, rounds, fun _ hle ↦ run_of_le hle h⟩

/-! ### Layout -/

/-- Any line may be put in the place of any other. -/
def AnyLine (_ _ : Nat) : Prop :=
  True

/-- Texts with the same tokens are moved, if any line may stand for any other. -/
theorem moved_of_same_tokens (h : ts'.map (·.token) = ts.map (·.token)) :
    List.Forall₂ (Lexeme.Moved AnyLine) ts ts' := by
  induction ts generalizing ts' with
  | nil =>
    rw [List.map_eq_nil_iff.1 h]
    exact .nil
  | cons t ts ih =>
    obtain ⟨⟨token, line⟩, rest, rfl, rfl, hrest⟩ := List.map_eq_cons_iff.1 h
    exact .cons (.intro t.token trivial) (ih hrest)

/-- **Layout has no influence.** Two texts that are scanned into the same tokens, on whatever lines,
are parsed to programs that differ in lines only, or fail to be parsed for the same cause. On every
console, with every limit on nested calls, both go on for ever or both come to an end, in the same
way but for the line of a failure, and with the same variables, input, output and procedures, but
for the lines of these. -/
theorem layout_has_no_influence {source source' : String} {ts ts' : List Lexeme}
    (h : tokenize source = .ok ts) (h' : tokenize source' = .ok ts')
    (hsame : ts'.map (·.token) = ts.map (·.token)) :
    ParsedAlike AnyLine (parseProgram source) (parseProgram source') ∧
    ∀ (calls : Nat) (console : Console) (journal journal' : Journal),
      (Diverges calls source console journal ∧ Diverges calls source' console journal') ∨
      ∃ o o', EndsAs calls source console journal o ∧ EndsAs calls source' console journal' o' ∧
        o.Moved AnyLine o' := by
  have hmoved := moved_of_same_tokens hsame
  refine ⟨parseNoting_moved h h' hmoved .silent .silent, fun calls console journal journal' ↦ ?_⟩
  have hrun : ∀ rounds, Outcome.Moved AnyLine (run ⟨calls, rounds⟩ source console journal)
      (run ⟨calls, rounds⟩ source' console journal') :=
    fun rounds ↦ run_moved h h' hmoved ⟨calls, rounds⟩ console journal journal'
  have hunfinished : ∀ {e e' : Ending}, e.Moved AnyLine e' →
      (e' = .unfinished ↔ e = .unfinished) := by
    intro e e' he
    cases he <;> simp
  by_cases hdiverges : Diverges calls source console journal
  · exact .inl ⟨hdiverges, fun rounds ↦ (hunfinished (hrun rounds).ending).2 (hdiverges rounds)⟩
  · -- within so many rounds the first text comes to an end, and the second does so too
    obtain ⟨rounds, hrounds⟩ := not_forall.1 hdiverges
    have hrounds' := mt (hunfinished (hrun rounds).ending).1 hrounds
    exact .inr ⟨_, _, endsAs_of_ending hrounds, endsAs_of_ending hrounds', hrun rounds⟩

/-- A division on one line, and the same with a comment and a number of another spelling on three.
The variable is missing in both. -/
theorem layout_has_no_influence_comment :
    let source := "display 1/x"
    let source' := "display 01 // one\n/\nx"
    let ts : List Lexeme := [⟨.keyword .displayKw, 1⟩, ⟨.integer .one, 1⟩, ⟨.symbol .slash, 1⟩,
      ⟨.identifier "x", 1⟩, ⟨.eof, 1⟩]
    let ts' : List Lexeme := [⟨.keyword .displayKw, 1⟩, ⟨.integer .one, 1⟩, ⟨.symbol .slash, 2⟩,
      ⟨.identifier "x", 3⟩, ⟨.eof, 3⟩]
    tokenize source = .ok ts ∧ tokenize source' = .ok ts' ∧
      ts'.map (·.token) = ts.map (·.token) ∧
      ParsedAlike AnyLine (parseProgram source) (parseProgram source') ∧
      ∀ calls console, (Diverges calls source console .silent ∧
          Diverges calls source' console .silent) ∨
        ∃ o o', EndsAs calls source console .silent o ∧ EndsAs calls source' console .silent o' ∧
          o.Moved AnyLine o' := by
  intro source source' ts ts'
  have h : tokenize source = .ok ts := by decide +kernel
  have h' : tokenize source' = .ok ts' := by decide +kernel
  have hsame : ts'.map (·.token) = ts.map (·.token) := rfl
  obtain ⟨hparsed, hrun⟩ := layout_has_no_influence h h' hsame
  exact ⟨h, h', hsame, hparsed, fun calls console ↦ hrun calls console .silent .silent⟩

end TinyProc
