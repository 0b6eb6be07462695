import TinyProc.Proofs.Syntax.Acceptance

/-!
# Syntax errors stand at the first impossible token

Where a program is refused for a token, the tokens in front of it begin some program, and together
with it they begin none. Where it is refused since the stream ends, all of its tokens begin some
program (`stops_at_first_impossible`).

The first half is the *viability* that comes with recognition. The second half is a contradiction
between two facts about one stream. Suppose that a program begins with the tokens up to the one
complained about. Then put its other tokens behind them, on whatever lines: the stream is a program,
and so it is read, or refused for a repeated name. But as far as the token in question it is the
stream that has been refused, and by *locality* it is refused for the same token.
-/

namespace TinyProc

namespace Grammar

variable {c d : List Lexeme} {p : Program}

/-- A list of tokens that is a program, of whatever lines, with the end mark behind it. -/
def IsSentence (s : List Token) : Prop :=
  ∃ c p, IsProgram .free c p ∧ s = c.map (·.token) ++ [.eof]

/-- A list whose tokens begin a sentence. -/
def BeginsSentence (c : List Lexeme) : Prop :=
  ∃ s, IsSentence s ∧ c.map (·.token) <+: s

theorem IsSource.isSentence (h : IsSource .free c p) : IsSentence (c.map (·.token)) := by
  obtain ⟨c', line, rfl, hp⟩ := h
  exact ⟨c', p, hp, List.map_append ..⟩

/-- What has the tokens of a sentence is a program, with reads attached. -/
theorem IsSentence.isSource (h : IsSentence (c.map (·.token))) : ∃ p, IsSource .attached c p := by
  obtain ⟨c', p, hp, hc⟩ := h
  obtain ⟨d, e, rfl, hd, he⟩ := List.map_eq_append_iff.1 hc
  obtain ⟨⟨token, line⟩, rfl, rfl⟩ := List.map_eq_singleton_iff.1 he
  obtain ⟨p', hp'⟩ := hp.attach hd.symm
  exact ⟨p', d, line, rfl, hp'⟩

/-- What begins a sentence can be completed to a program, and keeps its lines. -/
theorem BeginsSentence.completed (h : BeginsSentence c) :
    ∃ c' p, IsSource .attached (c ++ c') p := by
  obtain ⟨_, hs, tokens, rfl⟩ := h
  refine ⟨tokens.map (⟨·, 0⟩), IsSentence.isSource ?_⟩
  rw [List.map_append, List.map_map]
  exact (List.map_id tokens).symm ▸ hs

end Grammar

namespace Parser

open Grammar

variable {ts c : List Lexeme} {p : Program} {levels : Nat}

theorem Viable.beginsSentence (h : Viable (IsSource .free) c) : BeginsSentence c := by
  obtain ⟨c', p, hp⟩ := h
  refine ⟨_, hp.isSentence, c'.map (·.token), ?_⟩
  rw [List.map_append]

/-- A program is not refused for a token. -/
theorem ne_unexpectedToken (h : IsSource .attached c p) (hlevels : c.length ≤ levels)
    (j : Journal) (expected : Expectation) (found : Token) (line : Nat) (stopped : Cursor) :
    uncheckedProgram levels ⟨c, j⟩ ≠ .error ⟨.unexpectedToken expected found, line⟩ stopped := by
  have hsettles := uncheckedProgram_settles h hlevels
  intro herror
  by_cases hp : p.HasDistinctNames
  · obtain ⟨j', hread⟩ := hsettles.reads hp [] j trivial
    rw [List.append_nil, herror] at hread
    cases hread
  · obtain ⟨name, procedure, line', stopped', hrefused⟩ := hsettles.refuses hp [] j trivial
    rw [List.append_nil, herror] at hrefused
    cases hrefused

/-- More levels make no difference to a program that is refused for a token. -/
theorem unexpectedToken_of_le {levels' : Nat} {j : Journal} {expected : Expectation}
    {found : Token} {line : Nat} {stopped : Cursor} (h : levels ≤ levels')
    (herror : uncheckedProgram levels ⟨ts, j⟩ =
      .error ⟨.unexpectedToken expected found, line⟩ stopped) :
    ∃ stopped', uncheckedProgram levels' ⟨ts, j⟩ =
      .error ⟨.unexpectedToken expected found, line⟩ stopped' :=
  (uncheckedProgram_recognises h).unexpectedToken (Nat.le_refl _) herror

/-- **Where a program is refused for a token**, this is the first one that is impossible. -/
theorem impossible_of_unexpectedToken {expected : Expectation} {found : Token} {line : Nat}
    (h : parse uncheckedProgram ts = .error ⟨.unexpectedToken expected found, line⟩) :
    ∃ c rest, ts = c ++ ⟨found, line⟩ :: rest ∧ BeginsSentence c ∧
      ¬ BeginsSentence (c ++ [⟨found, line⟩]) := by
  obtain ⟨stopped, herror⟩ := parse_eq_error_iff.1 h
  have hexplained := explained_from_start ts
  rw [herror] at hexplained
  obtain ⟨c, rest, hts, hc, hlocal⟩ := hexplained
  refine ⟨c, rest, hts, hc.beginsSentence, fun hbegins ↦ ?_⟩
  -- the stream with the completion in the place of the rest is refused for the same token
  obtain ⟨c', p, hp⟩ := hbegins.completed
  rw [List.append_assoc, List.singleton_append] at hp
  obtain ⟨_, hcompleted⟩ := hlocal _ c' (Nat.lt_succ_self _)
  -- it may be longer than the first one, and a program is only read with levels enough
  obtain ⟨stopped', hmore⟩ := unexpectedToken_of_le (Nat.le_max_left _ _) hcompleted
  exact ne_unexpectedToken hp (Nat.le_max_right _ _) _ _ _ _ _ hmore

theorem beginsSentence_of_unexpectedEnd {line : Nat}
    (h : parse uncheckedProgram ts = .error ⟨.unexpectedEnd, line⟩) : BeginsSentence ts := by
  obtain ⟨stopped, herror⟩ := parse_eq_error_iff.1 h
  have hexplained := explained_from_start ts
  rw [herror] at hexplained
  exact Viable.beginsSentence hexplained

/-- **Syntax errors stand at the first impossible token.** A program that is refused for a token is
refused for one of the stream, which is named with its line: the tokens in front of it begin a
sentence, and no sentence begins with these and the token. Where the stream ends too early, all of
it begins a sentence. -/
theorem stops_at_first_impossible {e : SyntaxError} (h : parse program ts = .error e) :
    (∀ expected found, e.cause = .unexpectedToken expected found →
      ∃ i, ts[i]? = some ⟨found, e.line⟩ ∧
        e.cause.text = "Expected " ++ expected.text ++ ", found " ++ found.describe ∧
        BeginsSentence (ts.take i) ∧ ¬ BeginsSentence (ts.take (i + 1))) ∧
    (e.cause = .unexpectedEnd → BeginsSentence ts) := by
  obtain ⟨cause, line⟩ := e
  rw [parse_program] at h
  cases hdeep : tooDeep? maxNesting 0 ts with
  | some t =>
    rw [hdeep] at h
    cases h
    exact ⟨fun _ _ hcause ↦ (nomatch hcause), fun hcause ↦ (nomatch hcause)⟩
  | none =>
    rw [hdeep] at h
    refine ⟨?_, ?_⟩
    · rintro expected found rfl
      obtain ⟨c, rest, rfl, hbegins, himpossible⟩ := impossible_of_unexpectedToken h
      refine ⟨c.length, by simp, rfl, ?_, ?_⟩
      · rwa [List.take_left]
      · rwa [List.append_cons, List.take_left' (by simp)]
    · rintro rfl
      exact beginsSentence_of_unexpectedEnd h

/-- A second `else`, and a branch that ends too early. -/
theorem stops_at_first_impossible_else :
    let c : List Lexeme :=
      [⟨.keyword .ifKw, 1⟩, ⟨.identifier "a", 1⟩, ⟨.keyword .thenKw, 1⟩, ⟨.keyword .readKw, 2⟩,
        ⟨.identifier "x", 2⟩, ⟨.keyword .elseKw, 3⟩]
    let ts : List Lexeme := c ++ [⟨.keyword .elseKw, 4⟩, ⟨.eof, 4⟩]
    parse program ts = .error ⟨.unexpectedToken .statement (.keyword .elseKw), 4⟩ ∧
      (∃ i, ts[i]? = some ⟨.keyword .elseKw, 4⟩ ∧ BeginsSentence (ts.take i) ∧
        ¬ BeginsSentence (ts.take (i + 1))) ∧
      parse program c = .error ⟨.unexpectedEnd, 0⟩ ∧ BeginsSentence c := by
  intro c ts
  have htoken : parse program ts =
      .error ⟨.unexpectedToken .statement (.keyword .elseKw), 4⟩ := rfl
  have hend : parse program c = .error ⟨.unexpectedEnd, 0⟩ := rfl
  obtain ⟨i, hi, -, hbegins, himpossible⟩ := (stops_at_first_impossible htoken).1 _ _ rfl
  exact ⟨htoken, ⟨i, hi, hbegins, himpossible⟩, hend, (stops_at_first_impossible hend).2 rfl⟩

end Parser

end TinyProc
