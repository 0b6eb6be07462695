import TinyProc.Proofs.Lines.Layout
import TinyProc.Proofs.Token.Pulling

/-!
# Failures point into the source

Every failure is reported on a line of the text, from the first to the last. Scanning begins on line
1 and adds one at each line break that it passes, so that its tokens and its error stand on lines of
the text (`Scanner.scan_isOn`). All other lines are taken from tokens. For parsing and running this
is an instance of the theory of moved lines: a text is compared with itself, and a line is related
to another one if it is a line of the text.

No failure is that the tokens have run out. The end mark that scanning puts last is left by every
part of a program (`Steady.leavesMark`), and whoever consumes it is at the end of the program.
-/

namespace TinyProc

variable {source : String} {ts : List Lexeme}

/-! ### Lines of tokens -/

namespace Scanner

variable {s s' : Scanner} {line : Nat}

/-- The last line of the text left. -/
def lastLine (s : Scanner) : Nat :=
  s.line + s.rest.count '\n'

/-- A line of the text left. -/
structure IsOn (s : Scanner) (line : Nat) : Prop where
  /-- It is not behind the scanner. -/
  line_le : s.line ≤ line
  /-- It is not beyond the text. -/
  le_lastLine : line ≤ s.lastLine

/-- One scanner stands in the text that another one has left. -/
structure IsAfter (s' s : Scanner) : Prop where
  /-- No line is taken back. -/
  line_le : s.line ≤ s'.line
  /-- No line is added. -/
  lastLine_le : s'.lastLine ≤ s.lastLine

/-- A line of what is left later is a line of what is left now. -/
theorem IsOn.of_isAfter (h : s'.IsAfter s) (hon : s'.IsOn line) : s.IsOn line :=
  ⟨Nat.le_trans h.line_le hon.line_le, Nat.le_trans hon.le_lastLine h.lastLine_le⟩

theorem isOn_line (s : Scanner) : s.IsOn s.line :=
  ⟨Nat.le_refl _, Nat.le_add_right _ _⟩

/-- The line of what a step delivers. -/
def deliveredLine : Except ScanError Lexeme → Nat
  | .ok t => t.line
  | .error e => e.line

/-- What a step delivers, be it a token or an error, stands on the line that the scanner has
reached. -/
theorem Finds.deliveredLine_eq {text : List Char} {delivered : Except ScanError Lexeme}
    (h : Finds line text delivered s) : deliveredLine delivered = s.line := by
  cases h <;> rfl

/-- A step goes on in the text, and delivers something on the line that it has reached. -/
theorem next_isAfter (s : Scanner) :
    s.next.2.IsAfter s ∧ deliveredLine s.next.1 = s.next.2.line := by
  obtain ⟨taken, hrest, hline⟩ := s.exists_taken
  have hlast : s.next.2.lastLine = s.lastLine := by
    rw [lastLine, lastLine, hline, hrest, List.count_append, Nat.add_assoc]
  refine ⟨⟨hline ▸ Nat.le_add_right _ _, Nat.le_of_eq hlast⟩, ?_⟩
  by_cases h : s.finished = true
  · rw [next_of_finished h, deliveredLine]
  · obtain ⟨_, _, -, -, -, hfinds⟩ := exists_finds (Bool.not_eq_true _ ▸ h)
    exact hfinds.deliveredLine_eq

/-- **Tokens and scan errors stand on lines of the text.** -/
theorem scan_isOn (n : Nat) (s : Scanner) :
    (∀ t ∈ (s.scan n).lexemes, s.IsOn t.line) ∧ ∀ e ∈ (s.scan n).error?, s.IsOn e.line := by
  induction n generalizing s with
  | zero => exact ⟨List.forall_mem_nil _, by simp [scan]⟩
  | succ n ih =>
    obtain ⟨hafter, hline⟩ := s.next_isAfter
    have hdelivered : s.IsOn (deliveredLine s.next.1) := by
      rw [hline]
      exact s.next.2.isOn_line.of_isAfter hafter
    have hlater := ih s.next.2
    rw [scan]
    generalize s.next = delivered at *
    obtain ⟨result, s'⟩ := delivered
    cases result with
    | error e =>
      refine ⟨List.forall_mem_nil _, ?_⟩
      rintro _ ⟨rfl⟩
      exact hdelivered
    | ok t =>
      dsimp only
      split
      · exact ⟨List.forall_mem_singleton.2 hdelivered, by simp⟩
      · refine ⟨fun u hu ↦ ?_, fun e he ↦ (hlater.2 e he).of_isAfter hafter⟩
        obtain rfl | hu := List.mem_cons.1 hu
        · exact hdelivered
        · exact (hlater.1 u hu).of_isAfter hafter

end Scanner

/-- A line of the text, counted from 1. -/
def IsLineOf (source : String) (line : Nat) : Prop :=
  1 ≤ line ∧ line ≤ 1 + source.toList.count '\n'

/-- The lines from the start of a text are its lines. -/
theorem isLineOf_of_isOn {line : Nat} (h : (Scanner.start source.toList).IsOn line) :
    IsLineOf source line :=
  ⟨h.line_le, h.le_lastLine⟩

/-- Every token stands on a line of the text, and so does the end mark. -/
theorem isLineOf_of_tokenize (h : tokenize source = .ok ts) :
    ∀ t ∈ ts, IsLineOf source t.line := by
  have hon := (Scanner.scan_isOn (source.toList.length + 1) (.start source.toList)).1
  unfold tokenize at h
  dsimp only at h
  split at h
  · cases h
  · cases h
    exact fun t ht ↦ isLineOf_of_isOn (hon t ht)

/-- A scanning error is on a line of the text. -/
theorem isLineOf_of_scanError {e : ScanError} (h : (scan source).error? = some e) :
    IsLineOf source e.line :=
  isLineOf_of_isOn <|
    (Scanner.scan_isOn (source.toList.length + 1) (.start source.toList)).2 e h

/-! ### The end mark -/

namespace Parser

variable {α : Type} {V : α → α → Prop} {x : Parser α}

/-- In front of an end mark the parser does not run out of tokens, and if it succeeds, the end mark
is still to come. -/
def LeavesMark (x : Parser α) : Prop :=
  ∀ ts journal, EndsInMark ts →
    (∀ a c, x ⟨ts, journal⟩ = .ok a c → EndsInMark c.rest) ∧
    ∀ e c, x ⟨ts, journal⟩ = .error e c → e.cause ≠ .unexpectedEnd

/-- What is compared as streams ends in a mark. -/
theorem Stream.endsInMark {R : Nat → Nat → Prop} {ts ts' : List Lexeme} (h : Stream R ts ts') :
    EndsInMark ts := by
  induction h with
  | last _ => exact ⟨[], _, rfl, List.forall_mem_nil _⟩
  | cons htoken _ _ ih =>
    obtain ⟨front, line, rfl, hfront⟩ := ih
    exact ⟨_ :: front, line, rfl, List.forall_mem_cons.2 ⟨htoken, hfront⟩⟩

/-- A steady parser leaves a stream behind, and every stream ends in a mark. The stream is compared
with itself. -/
theorem Steady.leavesMark (h : Steady AnyLine V x x) : LeavesMark x := by
  intro ts journal hmark
  have hstream : Stream AnyLine ts ts := hmark.stream (moved_of_same_tokens rfl)
  have hends := h ts.length ts ts journal journal ⟨hstream, Nat.le_refl _⟩
  constructor
  · intro a c hok
    rw [hok] at hends
    cases hends with
    | ok _ hrest => exact hrest.stream.endsInMark
  · intro e c herror
    rw [herror] at hends
    cases hends with
    | error hcause _ => exact hcause

end Parser

/-! ### Failures -/

/-- A failure is on a line of the text, and is not that the tokens have run out. -/
structure Failure.PointsInto (source : String) (f : Failure) : Prop where
  /-- It is on a line of the text. -/
  isLineOf : IsLineOf source f.line
  /-- It is not that the tokens have run out. -/
  ne_unexpectedEnd : ∀ line, f ≠ .parse ⟨.unexpectedEnd, line⟩

/-- A failure that is moved onto itself by the lines of the text is on one of them. -/
theorem Failure.Moved.pointsInto {f f' : Failure}
    (h : f.Moved (fun line _ ↦ IsLineOf source line) f') : f.PointsInto source := by
  cases h with
  | parse hcause hline =>
    refine ⟨hline, fun _ heq ↦ ?_⟩
    cases heq
    exact hcause rfl
  | run _ hline => exact ⟨hline, nofun⟩

/-- A text is compared with itself, its lines being those of the text. -/
theorem moved_of_isLineOf (h : ∀ t ∈ ts, IsLineOf source t.line) :
    List.Forall₂ (Lexeme.Moved fun line _ ↦ IsLineOf source line) ts ts :=
  List.forall₂_same.2 fun t ht ↦ .intro t.token (h t ht)

theorem tokenize_of_error?_eq_none (h : (scan source).error? = none) :
    tokenize source = .ok (scan source).lexemes := by
  unfold tokenize
  simp only [h]

/-- A run that fails does so on a line of the text, whatever the bounds and the console. -/
theorem run_pointsInto {bounds : Bounds} {console : Console} {journal : Journal} {f : Failure}
    (h : (run bounds source console journal).ending = .failed f) : f.PointsInto source := by
  cases hscan : (scan source).error? with
  | some e =>
    have hfailed : (run bounds source console journal).ending = .failed (.scan e) := by
      simp only [run, parseNoting, hscan]
    cases hfailed.symm.trans h
    exact ⟨isLineOf_of_scanError hscan, nofun⟩
  | none =>
    -- the text is compared with itself
    have htokens := tokenize_of_error?_eq_none hscan
    have hmoved := moved_of_isLineOf (isLineOf_of_tokenize htokens)
    have hending := (run_moved htokens htokens hmoved bounds console journal journal).ending
    rw [h] at hending
    cases hending with
    | failed hf => exact hf.pointsInto

/-- A text that cannot be parsed fails in the same way when it is run. -/
theorem parseProgram_pointsInto {f : Failure} (h : parseProgram source = .error f) :
    f.PointsInto source := by
  have hrun : (run ⟨0, 0⟩ source (.start [] .reliable) .silent).ending = .failed f := by
    unfold parseProgram parseAs at h
    unfold run
    generalize parseNoting Parser.program source .silent = parsed at h ⊢
    obtain ⟨result, journal⟩ := parsed
    cases h
    rfl
  exact run_pointsInto hrun

/-- **Failures point into the source.** Scanning puts the end mark last and nowhere else, and all
parts of a program leave it. So no failure of parsing or running a text, whatever the phase, the
input, the limit on calls and the journal, is that the tokens have run out, and each is on a line of
the text. -/
theorem failures_point_into_source (source : String) :
    (∀ ts, tokenize source = .ok ts → EndsInMark ts) ∧
    (∀ levels, (Parser.expression levels).LeavesMark ∧ (Parser.statement levels).LeavesMark ∧
      (Parser.statements levels).LeavesMark ∧ (Parser.procedure levels).LeavesMark ∧
      (Parser.procedures levels).LeavesMark) ∧
    (∀ f, parseProgram source = .error f → f.PointsInto source) ∧
    ∀ bounds console journal f,
      (run bounds source console journal).ending = .failed f → f.PointsInto source := by
  refine ⟨fun _ ↦ endsInMark_of_tokenize, fun levels ↦ ?_, fun _ ↦ parseProgram_pointsInto,
    fun _ _ _ _ ↦ run_pointsInto⟩
  refine ⟨?_, ?_, ?_, ?_, ?_⟩
  · exact (Parser.expression_steady levels).leavesMark
  · exact (Parser.statement_consuming levels).steady.leavesMark
  · exact (Parser.statements_steady levels).leavesMark
  · exact (Parser.procedure_steady levels).leavesMark
  · exact (Parser.procedures_steady levels).leavesMark

/-- Failures of the three phases, each on the last line of its text. The second text ends where its
expression is to begin. -/
theorem failures_point_into_source_last_line :
    let console := Console.start [] .reliable
    (tokenize "x\n:=" = .ok [⟨.identifier "x", 1⟩, ⟨.symbol .colonEquals, 2⟩, ⟨.eof, 2⟩] ∧
      EndsInMark [⟨.identifier "x", 1⟩, ⟨.symbol .colonEquals, 2⟩, ⟨.eof, 2⟩]) ∧
    (parseProgram "x\n?" = .error (.scan ⟨.unexpectedCharacter '?', 2⟩) ∧
      Failure.PointsInto "x\n?" (.scan ⟨.unexpectedCharacter '?', 2⟩)) ∧
    (parseProgram "x :=\n" = .error (.parse ⟨.unexpectedToken .value .eof, 2⟩) ∧
      Failure.PointsInto "x :=\n" (.parse ⟨.unexpectedToken .value .eof, 2⟩)) ∧
    ((run ⟨1, 0⟩ "display\nx" console .silent).ending =
        .failed (.run ⟨.undefinedVariable "x", 2⟩) ∧
      Failure.PointsInto "display\nx" (.run ⟨.undefinedVariable "x", 2⟩)) := by
  intro console
  have htokens : tokenize "x\n:=" =
      .ok [⟨.identifier "x", 1⟩, ⟨.symbol .colonEquals, 2⟩, ⟨.eof, 2⟩] := by decide +kernel
  have hscan : parseProgram "x\n?" = .error (.scan ⟨.unexpectedCharacter '?', 2⟩) := by rfl
  have hparse : parseProgram "x :=\n" = .error (.parse ⟨.unexpectedToken .value .eof, 2⟩) := by
    rfl
  have hrun : (run ⟨1, 0⟩ "display\nx" console .silent).ending =
      .failed (.run ⟨.undefinedVariable "x", 2⟩) := by decide +kernel
  exact ⟨⟨htokens, (failures_point_into_source _).1 _ htokens⟩,
    ⟨hscan, (failures_point_into_source _).2.2.1 _ hscan⟩,
    ⟨hparse, (failures_point_into_source _).2.2.1 _ hparse⟩,
    ⟨hrun, (failures_point_into_source _).2.2.2 _ _ _ _ hrun⟩⟩

end TinyProc
