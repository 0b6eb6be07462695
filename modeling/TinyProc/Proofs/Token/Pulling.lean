import TinyProc.Proofs.Token.Scanning

/-!
# Pulling tokens, and going on after errors

A scanner may be asked for the next token as often as one likes, whether the last call has delivered
a token, an error or the end of the input. What one call does is read off `Scanner.Finds` once
(`Scanner.next_takes`), and what holds of a run of calls follows by induction on their number:

* up to the end of the input every call takes something off the text, so that the end comes after as
  many calls as there are characters at the latest (`isEnd_or_length_le`), and it stays
  (`pulled_of_eof`);
* the text taken and the text left make up the source, and the line counts the line breaks taken
  (`exists_consumed`);
* a scanner that has not come to the end is a scanner in front of the text left, on another line
  (`eq_shift_start`), and moving a scanner to another line moves what it delivers and nothing else
  (`after_shift`, `next_shift`).
-/

namespace TinyProc

open Lexis

/-- The characters at fault, which a scanner that goes on has taken off the text. -/
def ScanCause.chars : ScanCause → List Char
  | unexpectedCharacter found => [found]
  | illegalTrailing spelling _ => spelling.toList
  | literalTooLarge digits => digits.toList

namespace Scanner

/-! ### What a call does to the scanner -/

/-- A call passes the gap in front of the text and finds something behind it. -/
theorem exists_finds {s : Scanner} (h : s.finished = false) :
    ∃ gap text, s.rest = gap ++ text ∧ IsGap text gap ∧ IsPastGap text ∧
      Finds (s.line + gap.count '\n') text s.next.1 s.next.2 := by
  obtain ⟨rest, line, finished⟩ := s
  obtain rfl : finished = false := h
  obtain ⟨gap, text, rfl, hgap, hpast⟩ := exists_gap rest
  refine ⟨gap, text, rfl, hgap, hpast, ?_⟩
  rw [next_append hgap]
  exact finds_next hpast _

/-- Whether the end of the input was delivered. -/
def IsEnd (delivered : Except ScanError Lexeme) : Prop :=
  ∃ line, delivered = .ok ⟨.eof, line⟩

section Finds

variable {line : Nat} {text : List Char} {delivered : Except ScanError Lexeme} {s : Scanner}

/-- The end of the input is delivered where the scanner has come to it. -/
theorem Finds.eq_eof_iff (h : Finds line text delivered s) {l : Nat} :
    delivered = .ok ⟨.eof, l⟩ ↔ s.finished = true ∧ s.line = l := by
  cases h with
  | endOfText => simp
  | fullStop => simp
  | token _ hdenotes _ => simp [hdenotes.ne_eof]
  | illegalTrailing _ _ _ => simp
  | literalTooLarge _ _ _ => simp
  | unexpectedCharacter _ _ => simp

/-- What is found lies on one line, and is the characters at fault if it is an error. -/
theorem Finds.exists_taken (h : Finds line text delivered s) (hpast : IsPastGap text) :
    ∃ taken, text = taken ++ s.rest ∧ '\n' ∉ taken ∧ s.line = line ∧
      (s.finished = false → taken ≠ []) ∧ ∀ e, delivered = .error e → taken = e.cause.chars := by
  cases h with
  | endOfText => exact ⟨[], rfl, by simp, rfl, nofun, nofun⟩
  | fullStop => exact ⟨['.'], rfl, by decide, rfl, nofun, nofun⟩
  | @token spelling _ _ hlongest _ _ =>
    have hspelling := hlongest.isSpelling
    exact ⟨spelling, rfl, hspelling.newline_not_mem, rfl, fun _ ↦ hspelling.ne_nil, nofun⟩
  | @illegalTrailing spelling _ _ _ hlongest _ _ =>
    have hspelling := hlongest.isSpelling
    refine ⟨spelling, rfl, hspelling.newline_not_mem, rfl, fun _ ↦ hspelling.ne_nil, ?_⟩
    rintro _ ⟨rfl⟩
    exact String.toList_ofList.symm
  | @literalTooLarge digits _ hlongest _ _ =>
    have hspelling := hlongest.isSpelling
    refine ⟨digits, rfl, hspelling.newline_not_mem, rfl, fun _ ↦ hspelling.ne_nil, ?_⟩
    rintro _ ⟨rfl⟩
    exact String.toList_ofList.symm
  | @unexpectedCharacter c _ _ _ =>
    refine ⟨[c], rfl, ?_, rfl, fun _ ↦ List.cons_ne_nil _ _, ?_⟩
    · rw [List.mem_singleton]
      rintro rfl
      exact absurd (hpast.1 '\n' rfl) (by decide)
    · rintro _ ⟨rfl⟩
      rfl

end Finds

/-- The end of the input is delivered exactly by a scanner that comes to it or has come to it. -/
theorem next_eq_eof_iff {s : Scanner} {l : Nat} :
    s.next.1 = .ok ⟨.eof, l⟩ ↔ s.next.2.finished = true ∧ s.next.2.line = l := by
  by_cases h : s.finished = true
  · simp [next_of_finished h, h]
  · obtain ⟨_, _, -, -, -, hfinds⟩ := exists_finds (Bool.not_eq_true _ ▸ h)
    exact hfinds.eq_eof_iff

/-- The end is delivered exactly if the scanner is at its end from then on. -/
theorem isEnd_next_iff {s : Scanner} : IsEnd s.next.1 ↔ s.next.2.finished = true := by
  simp only [IsEnd, next_eq_eof_iff, exists_and_left, exists_eq', and_true]

/-- **What one call does.** It passes a gap and takes off what it finds behind it: something, unless
it delivers the end of the input, and the characters at fault if it delivers an error. The line
counts the line breaks on the way. -/
theorem next_takes {s : Scanner} (h : s.finished = false) :
    ∃ gap taken, s.rest = gap ++ (taken ++ s.next.2.rest) ∧
      IsGap (taken ++ s.next.2.rest) gap ∧ IsPastGap (taken ++ s.next.2.rest) ∧
      s.next.2.line = s.line + (gap ++ taken).count '\n' ∧
      (¬ IsEnd s.next.1 → taken ≠ []) ∧ ∀ e, s.next.1 = .error e → taken = e.cause.chars := by
  obtain ⟨gap, text, hrest, hgap, hpast, hfinds⟩ := exists_finds h
  obtain ⟨taken, rfl, hbreaks, hline, hsome, herror⟩ := hfinds.exists_taken hpast
  refine ⟨gap, taken, hrest, hgap, hpast, ?_, fun hend ↦ hsome ?_, herror⟩
  · rw [hline, List.count_append, List.count_eq_zero.2 hbreaks, Nat.add_zero]
  · rwa [isEnd_next_iff, Bool.not_eq_true] at hend

/-! ### Other lines -/

/-- Moves what was delivered down by some lines. -/
def shiftLine (lines : Nat) : Except ScanError Lexeme → Except ScanError Lexeme
  | .ok lexeme => .ok { lexeme with line := lexeme.line + lines }
  | .error e => .error { e with line := e.line + lines }

/-- Moves the scanner down by some lines, on the same text. -/
def shift (lines : Nat) (s : Scanner) : Scanner :=
  { s with line := s.line + lines }

/-- A gap is passed in the same way on whatever line it starts. -/
theorem skipGap_add (inComment : Bool) (line lines : Nat) (text : List Char) :
    skipGap inComment (line + lines) text =
      ((skipGap inComment line text).1 + lines, (skipGap inComment line text).2) := by
  induction text generalizing inComment line with
  | nil => simp
  | cons c rest ih =>
    have hline : line + lines + 1 = line + 1 + lines := Nat.add_right_comm _ _ _
    simp only [skipGap, hline, ih]
    split_ifs <;> rfl

/-- An error or a token is the same on another line, but for the line. -/
theorem checkTrailing_add (token : Token) (spelling : Spelling) (line lines : Nat) :
    checkTrailing token spelling (line + lines) =
      shiftLine lines (checkTrailing token spelling line) := by
  unfold checkTrailing
  cases spelling.rest.head? with
  | none => rfl
  | some c =>
    show (if _ then _ else _) = shiftLine lines (if _ then _ else _)
    split <;> rfl

/-- A scanner on another line delivers the same, on another line. -/
theorem next_shift (lines : Nat) (s : Scanner) :
    (s.shift lines).next = (shiftLine lines s.next.1, s.next.2.shift lines) := by
  obtain ⟨rest, line, finished⟩ := s
  cases finished with
  | true => rfl
  | false =>
    simp only [next, shift, skipGap_add, Bool.false_eq_true, if_false]
    generalize skipGap false line rest = skipped
    obtain ⟨line, text⟩ := skipped
    cases text with
    | nil => rfl
    | cons c text =>
      simp only
      cases Spelling.split? (c :: text) with
      | none => rfl
      | some spelling =>
        simp only
        split
        · rfl
        · rfl
        · rw [checkTrailing_add]

/-! ### Runs of calls -/

/-- The scanner after `n` calls, whatever they have delivered. -/
def after (s : Scanner) : (n : Nat) → Scanner
  | 0 => s
  | n + 1 => (s.after n).next.2

/-- What the call after `n` other calls delivers. -/
def pulled (s : Scanner) (n : Nat) : Except ScanError Lexeme :=
  (s.after n).next.1

theorem after_add (s : Scanner) (n k : Nat) : s.after (n + k) = (s.after n).after k := by
  induction k with
  | zero => rfl
  | succ k ih => exact congrArg (fun s ↦ s.next.2) ih

/-- Moving a scanner to another line, and then making calls, is the same as making them first. -/
theorem after_shift (lines : Nat) (s : Scanner) (k : Nat) :
    (s.shift lines).after k = (s.after k).shift lines := by
  induction k with
  | zero => rfl
  | succ k ih => rw [after, ih, next_shift, after]

/-- At its end a scanner stays. -/
theorem after_of_finished {s : Scanner} (h : s.finished = true) (k : Nat) : s.after k = s := by
  induction k with
  | zero => rfl
  | succ k ih => rw [after, ih, next_of_finished h]

variable {s : Scanner} {n : Nat}

/-- Before the end of the input the scanner goes on. -/
theorem finished_after (hs : s.finished = false) (h : ∀ k < n, ¬ IsEnd (s.pulled k)) :
    (s.after n).finished = false := by
  cases n with
  | zero => exact hs
  | succ n =>
    have hend := h n (Nat.lt_succ_self n)
    rwa [pulled, isEnd_next_iff, Bool.not_eq_true] at hend

/-- A call that does not deliver the end of the input comes from a scanner that goes on. -/
theorem finished_of_not_isEnd (h : ¬ IsEnd (s.pulled n)) : (s.after n).finished = false := by
  refine Bool.eq_false_iff.2 fun hfinished ↦ h ?_
  rw [pulled, next_of_finished hfinished]
  exact ⟨_, rfl⟩

/-- The end of the input stays, and so does its line. -/
theorem pulled_of_eof {line : Nat} (h : s.pulled n = .ok ⟨.eof, line⟩) {k : Nat} (hk : n ≤ k) :
    s.pulled k = .ok ⟨.eof, line⟩ ∧ (s.after (k + 1)).line = line := by
  obtain ⟨hfinished, hline⟩ := next_eq_eof_iff.1 h
  have hstays : (s.after k).next.2 = (s.after n).next.2 := by
    obtain ⟨j, rfl⟩ := Nat.exists_eq_add_of_le hk
    show s.after (n + j + 1) = s.after (n + 1)
    rw [Nat.add_right_comm, after_add]
    exact after_of_finished hfinished j
  rw [after, pulled, next_eq_eof_iff, hstays]
  exact ⟨⟨hfinished, hline⟩, hline⟩

/-- A call that does not deliver the end of the input takes something off the text. -/
theorem exists_taken_of_not_isEnd (h : ¬ IsEnd (s.pulled n)) :
    ∃ taken, taken ≠ [] ∧ (s.after n).rest = taken ++ (s.after (n + 1)).rest := by
  obtain ⟨gap, taken, hrest, -, -, -, htaken, -⟩ := next_takes (finished_of_not_isEnd h)
  refine ⟨gap ++ taken, ?_, by rw [hrest, List.append_assoc]; rfl⟩
  exact List.append_ne_nil_of_right_ne_nil _ (htaken h)

/-- Each call up to the end of the input takes at least one character. -/
theorem isEnd_or_length_le (s : Scanner) (n : Nat) :
    (∃ k < n, IsEnd (s.pulled k)) ∨ n + (s.after n).rest.length ≤ s.rest.length := by
  induction n with
  | zero => exact .inr (Nat.le_of_eq (Nat.zero_add _))
  | succ n ih =>
    obtain ⟨k, hk, hend⟩ | hlength := ih
    · exact .inl ⟨k, Nat.lt_succ_of_lt hk, hend⟩
    · by_cases hend : IsEnd (s.pulled n)
      · exact .inl ⟨n, Nat.lt_succ_self n, hend⟩
      · obtain ⟨taken, hne, hrest⟩ := exists_taken_of_not_isEnd hend
        have hpos := List.length_pos_iff.2 hne
        rw [hrest, List.length_append] at hlength
        exact .inr (by omega)

theorem exists_isEnd (s : Scanner) : ∃ n ≤ s.rest.length, IsEnd (s.pulled n) := by
  obtain ⟨n, hn, hend⟩ | hlength := s.isEnd_or_length_le (s.rest.length + 1)
  · exact ⟨n, Nat.le_of_lt_succ hn, hend⟩
  · omega

/-- A call takes a part of the text, and the line counts its line breaks. -/
theorem exists_taken (s : Scanner) :
    ∃ taken, s.rest = taken ++ s.next.2.rest ∧ s.next.2.line = s.line + taken.count '\n' := by
  by_cases h : s.finished = true
  · exact ⟨[], by rw [next_of_finished h]; exact ⟨rfl, rfl⟩⟩
  · obtain ⟨gap, taken, hrest, -, -, hline, -⟩ := next_takes (Bool.not_eq_true _ ▸ h)
    exact ⟨gap ++ taken, by rw [hrest, List.append_assoc], hline⟩

/-- The line never goes back. -/
theorem line_le_line {k : Nat} (h : n ≤ k) : (s.after n).line ≤ (s.after k).line := by
  induction h with
  | refl => exact Nat.le_refl _
  | @step k _ ih =>
    obtain ⟨taken, -, hline⟩ := (s.after k).exists_taken
    exact Nat.le_trans ih (hline ▸ Nat.le_add_right _ _)

/-- An error takes the gap in front of it and the characters at fault off the text. -/
theorem exists_gap_of_error {e : ScanError} (h : s.pulled n = .error e) :
    ∃ gap, (s.after n).rest = gap ++ (e.cause.chars ++ (s.after (n + 1)).rest) ∧
      IsGap (e.cause.chars ++ (s.after (n + 1)).rest) gap ∧
      IsPastGap (e.cause.chars ++ (s.after (n + 1)).rest) := by
  have hend : ¬ IsEnd (s.pulled n) := by
    rintro ⟨line, hline⟩
    cases h.symm.trans hline
  obtain ⟨gap, taken, hrest, hgap, hpast, -, -, htaken⟩ := next_takes (finished_of_not_isEnd hend)
  obtain rfl := htaken e h
  exact ⟨gap, hrest, hgap, hpast⟩

/-- What the calls have taken and what they have left make up the text. -/
theorem exists_consumed (text : List Char) (n : Nat) :
    ∃ consumed, text = consumed ++ ((start text).after n).rest ∧
      ((start text).after n).line = lineAfter consumed := by
  induction n with
  | zero => exact ⟨[], rfl, rfl⟩
  | succ n ih =>
    obtain ⟨consumed, htext, hline⟩ := ih
    obtain ⟨taken, hrest, hnext⟩ := ((start text).after n).exists_taken
    refine ⟨consumed ++ taken, ?_, ?_⟩
    · rw [List.append_assoc]
      exact htext.trans (congrArg (consumed ++ ·) hrest)
    · rw [lineAfter_append, ← hline]
      exact hnext

/-- A scanner that goes on is a scanner in front of the text left, some lines further down. -/
theorem eq_shift_start (h : s.finished = false) (hline : 1 ≤ s.line) :
    s = (start s.rest).shift (s.line - 1) := by
  obtain ⟨rest, line, finished⟩ := s
  obtain rfl : finished = false := h
  simp only [start, shift, Nat.add_sub_cancel' hline]

/-- **Pulling tokens makes progress and has no memory.** Whatever the calls before have delivered,
errors or tokens:

* a call that does not deliver the end of the input takes something off the text;
* the end of the input comes after as many calls as there are characters at the latest, and from
  then on every call delivers it on the same line;
* the line of the scanner is the line behind the text taken, and never goes back;
* an error takes the gap in front of it and the characters at fault off the text, and no more;
* up to the end of the input a call passes a gap and delivers what is found behind it, and all
  further calls deliver what a scanner in front of the text left delivers, on lines counted from
  there. -/
theorem pulling_progresses (text : List Char) :
    (∀ n, ¬ IsEnd ((start text).pulled n) →
      ∃ taken, taken ≠ [] ∧
        ((start text).after n).rest = taken ++ ((start text).after (n + 1)).rest) ∧
    (∃ n ≤ text.length, IsEnd ((start text).pulled n)) ∧
    (∀ n line, (start text).pulled n = .ok ⟨.eof, line⟩ → ∀ k, n ≤ k →
      (start text).pulled k = .ok ⟨.eof, line⟩ ∧ ((start text).after (k + 1)).line = line) ∧
    (∀ n, ∃ consumed, text = consumed ++ ((start text).after n).rest ∧
      ((start text).after n).line = lineAfter consumed) ∧
    (∀ n k, n ≤ k → ((start text).after n).line ≤ ((start text).after k).line) ∧
    (∀ n e, (start text).pulled n = .error e →
      let left := e.cause.chars ++ ((start text).after (n + 1)).rest
      ∃ gap, ((start text).after n).rest = gap ++ left ∧ IsGap left gap ∧ IsPastGap left) ∧
    ∀ n, (∀ k < n, ¬ IsEnd ((start text).pulled k)) →
      let s := (start text).after n
      let lines := s.line - 1
      (∃ gap left, s.rest = gap ++ left ∧ IsGap left gap ∧ IsPastGap left ∧
        Finds (s.line + gap.count '\n') left ((start text).pulled n) ((start text).after (n + 1))) ∧
      ∀ k, (start text).pulled (n + k) = shiftLine lines ((start s.rest).pulled k) ∧
        (start text).after (n + k) = ((start s.rest).after k).shift lines := by
  refine ⟨fun n ↦ exists_taken_of_not_isEnd, (start text).exists_isEnd,
    fun n line h k ↦ pulled_of_eof h, exists_consumed text, fun n k ↦ line_le_line,
    fun n e ↦ exists_gap_of_error, fun n hn ↦ ?_⟩
  intro s lines
  have hgoes : s.finished = false := finished_after rfl hn
  refine ⟨exists_finds hgoes, fun k ↦ ?_⟩
  have hline : ((start text).after 0).line ≤ s.line := line_le_line (Nat.zero_le n)
  have hafter : (start text).after (n + k) = ((start s.rest).after k).shift lines := by
    rw [after_add, ← after_shift, ← eq_shift_start hgoes hline]
  refine ⟨?_, hafter⟩
  rw [pulled, hafter, next_shift, pulled]

/-- All three errors one after another, a comment with a full stop in it, and the full stop that is
the end of the input. -/
theorem pulling_progresses_errors :
    let s := start "1é\n99999999999999999999?//.\n.x".toList
    (¬ IsEnd (s.pulled 0) ∧
      ∃ taken, taken ≠ [] ∧ (s.after 0).rest = taken ++ (s.after 1).rest) ∧
    (s.pulled 2 = .error ⟨.literalTooLarge "99999999999999999999", 2⟩ ∧
      ∃ gap, (s.after 2).rest = gap ++ ("99999999999999999999".toList ++ (s.after 3).rest) ∧
        IsGap ("99999999999999999999".toList ++ (s.after 3).rest) gap ∧
        IsPastGap ("99999999999999999999".toList ++ (s.after 3).rest)) ∧
    (s.pulled 4 = .ok ⟨.eof, 3⟩ ∧
      ∀ k, 4 ≤ k → s.pulled k = .ok ⟨.eof, 3⟩ ∧ (s.after (k + 1)).line = 3) ∧
    (∀ k < 3, ¬ IsEnd (s.pulled k)) ∧
      ∀ k, s.pulled (3 + k) = shiftLine 1 ((start "?//.\n.x".toList).pulled k) := by
  intro s
  have hillegal : s.pulled 0 = .error ⟨.illegalTrailing "1" 'é', 1⟩ := rfl
  have hunexpected : s.pulled 1 = .error ⟨.unexpectedCharacter 'é', 1⟩ := rfl
  have hlarge : s.pulled 2 = .error ⟨.literalTooLarge "99999999999999999999", 2⟩ := rfl
  have heof : s.pulled 4 = .ok ⟨.eof, 3⟩ := rfl
  have hend : ∀ k < 3, ¬ IsEnd (s.pulled k) := by
    rintro (_ | _ | _ | k) hk ⟨line, h⟩
    · cases hillegal.symm.trans h
    · cases hunexpected.symm.trans h
    · cases hlarge.symm.trans h
    · omega
  obtain ⟨htaken, -, hstays, -, -, herror, hfresh⟩ :=
    pulling_progresses "1é\n99999999999999999999?//.\n.x".toList
  exact ⟨⟨hend 0 (by decide), htaken 0 (hend 0 (by decide))⟩, ⟨hlarge, herror 2 _ hlarge⟩,
    ⟨heof, hstays 4 3 heof⟩, hend, fun k ↦ ((hfresh 3 hend).2 k).1⟩

end Scanner

end TinyProc
