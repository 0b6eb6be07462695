import TinyProc.Proofs.Syntax.Attachment
import TinyProc.Proofs.Syntax.Completeness.Program
import TinyProc.Proofs.Syntax.Recognition.Program

/-!
# Programs are accepted as the grammar derives them

A stream is accepted as a program exactly if what stands in front of its first end mark is derived
by the grammar, no procedure binds a name twice and the nesting is not too deep
(`accepts_exactly_derived`). The tree that is returned is the one of the derivation, and the only
one that the grammar gives to the same lexemes.

Each direction has its own source. That derived programs are accepted is what *reading* says, and
this is about the strict rule for reads. That nothing else is accepted comes from *recognition*, and
this is about the free rule: a parser is known to return some tree of the free grammar, but not that
reads are attached in it. The two meet in `eq_of_parse`. What the free grammar derives is also
derived by the strict one, as some tree, and if that tree is read then it is the tree returned.
-/

namespace TinyProc.Parser

open Grammar

variable {α : Type} {ts c rest : List Lexeme} {p p' : Program}

/-! ### Runs from the start -/

theorem parse_eq_ok_iff {parser : Nat → Parser α} {a : α} :
    parse parser ts = .ok (a, rest) ↔
      ∃ j, parser ts.length ⟨ts, .silent⟩ = .ok a ⟨rest, j⟩ := by
  rw [parse, runFrom]
  cases parser ts.length ⟨ts, .silent⟩ with
  | ok b c =>
    constructor
    · rintro ⟨⟩
      exact ⟨c.journal, rfl⟩
    · rintro ⟨j, ⟨⟩⟩
      rfl
  | error e c => simp

theorem parse_eq_error_iff {parser : Nat → Parser α} {e : SyntaxError} :
    parse parser ts = .error e ↔
      ∃ stopped, parser ts.length ⟨ts, .silent⟩ = .error e stopped := by
  rw [parse, runFrom]
  cases parser ts.length ⟨ts, .silent⟩ with
  | ok b c => simp
  | error e' c => simp

/-- The check of the nesting comes first and does nothing else. -/
theorem parse_program (ts : List Lexeme) :
    parse program ts = match tooDeep? maxNesting 0 ts with
      | none => parse uncheckedProgram ts
      | some t => .error ⟨.nestingTooDeep maxNesting, t.line⟩ := by
  have hcheck : checkNesting maxNesting ⟨ts, .silent⟩ = match tooDeep? maxNesting 0 ts with
      | none => .ok () ⟨ts, .silent⟩
      | some t => .error ⟨.nestingTooDeep maxNesting, t.line⟩ ⟨ts, .silent⟩ := by
    show (match tooDeep? maxNesting 0 ts with
      | none => pure ()
      | some t => throw ⟨.nestingTooDeep maxNesting, t.line⟩ : Parser Unit) ⟨ts, .silent⟩ = _
    cases tooDeep? maxNesting 0 ts <;> rfl
  cases h : tooDeep? maxNesting 0 ts with
  | none =>
    rw [h] at hcheck
    rw [parse, runFrom, program, bind_of_ok hcheck]
    rfl
  | some t =>
    rw [h] at hcheck
    exact parse_eq_error_iff.2 ⟨_, bind_of_error hcheck⟩

/-- A program is accepted exactly if the check of the nesting passes and the parser without the
check accepts it. -/
theorem parse_program_eq_ok_iff :
    parse program ts = .ok (p, rest) ↔
      tooDeep? maxNesting 0 ts = none ∧ parse uncheckedProgram ts = .ok (p, rest) := by
  rw [parse_program]
  cases tooDeep? maxNesting 0 ts with
  | none => simp
  | some t => simp

/-- What recognition says about a run from the start. -/
theorem explained_from_start (ts : List Lexeme) :
    Explained (IsSource .free) (fun _ ↦ uncheckedProgram ts.length) ts .silent
      (uncheckedProgram ts.length ⟨ts, .silent⟩) :=
  (uncheckedProgram_recognises (Nat.le_refl _)).explained ts .silent (Nat.le_refl _)

/-! ### What is accepted -/

/-- There are as many levels as tokens, so what has been derived is settled. -/
theorem settles_of_derived (h : IsProgram .attached c p) (line : Nat) (rest : List Lexeme) :
    Settles (uncheckedProgram (c ++ ⟨.eof, line⟩ :: rest).length) (c ++ [⟨.eof, line⟩]) p
      p.HasDistinctNames Anything := by
  refine uncheckedProgram_settles ⟨c, line, rfl, h⟩ ?_
  simp only [List.length_append, List.length_cons, List.length_nil]
  omega

/-- Derived programs are accepted, if no procedure repeats a name. -/
theorem parse_of_distinct (h : IsProgram .attached c p) (hp : p.HasDistinctNames) (line : Nat)
    (rest : List Lexeme) :
    parse uncheckedProgram (c ++ ⟨.eof, line⟩ :: rest) = .ok (p, rest) := by
  obtain ⟨j, hread⟩ := (settles_of_derived h line rest).reads hp rest .silent trivial
  rw [List.append_assoc] at hread
  exact parse_eq_ok_iff.2 ⟨j, hread⟩

/-- They are refused, if one does. -/
theorem parse_of_repeated (h : IsProgram .attached c p) (hp : ¬ p.HasDistinctNames) (line : Nat)
    (rest : List Lexeme) :
    ∃ e, parse uncheckedProgram (c ++ ⟨.eof, line⟩ :: rest) = .error e := by
  obtain ⟨name, procedure, line', stopped, hstop⟩ :=
    (settles_of_derived h line rest).refuses hp rest .silent trivial
  rw [List.append_assoc] at hstop
  exact ⟨_, parse_eq_error_iff.2 ⟨stopped, hstop⟩⟩

/-- **There is no other tree.** A tree that the grammar derives from what has been accepted is the
tree returned, and it binds distinct names. -/
theorem eq_of_parse {line : Nat}
    (h : parse uncheckedProgram (c ++ ⟨.eof, line⟩ :: rest) = .ok (p, rest))
    (hp' : IsProgram .attached c p') : p' = p ∧ p'.HasDistinctNames := by
  by_cases hdistinct : p'.HasDistinctNames
  · rw [parse_of_distinct hp' hdistinct line rest] at h
    cases h
    exact ⟨rfl, hdistinct⟩
  · obtain ⟨e, he⟩ := parse_of_repeated hp' hdistinct line rest
    rw [he] at h
    cases h

/-- What has been accepted is derived, and with reads attached. -/
theorem derived_of_parse (h : parse uncheckedProgram ts = .ok (p, rest)) :
    ∃ c line, ts = c ++ ⟨.eof, line⟩ :: rest ∧ IsProgram .attached c p ∧ p.HasDistinctNames := by
  obtain ⟨j, hok⟩ := parse_eq_ok_iff.1 h
  have hexplained := explained_from_start ts
  rw [hok] at hexplained
  obtain ⟨_, rfl, ⟨c, line, rfl, hfree⟩, -⟩ := hexplained
  rw [List.append_assoc, List.singleton_append] at h ⊢
  -- nothing is known yet about the reads in `p`, but some tree has them attached
  obtain ⟨p', hp'⟩ := hfree.attach (.refl c)
  obtain ⟨rfl, hdistinct⟩ := eq_of_parse h hp'
  exact ⟨c, line, rfl, hp', hdistinct⟩

/-- **The accepted programs are the derived ones.** A stream is accepted and `rest` is left exactly
if the grammar derives the tree from what stands in front of an end mark and `rest`, every procedure
binds distinct names, and the nesting of the whole stream keeps to the limit. What is accepted has
no other tree. -/
theorem accepts_exactly_derived :
    (∀ ts p rest, parse program ts = .ok (p, rest) ↔
      ∃ c line, ts = c ++ ⟨.eof, line⟩ :: rest ∧ IsProgram .attached c p ∧
        p.HasDistinctNames ∧ tooDeep? maxNesting 0 ts = none) ∧
    ∀ c line rest p p', parse program (c ++ ⟨.eof, line⟩ :: rest) = .ok (p, rest) →
      IsProgram .attached c p' → p' = p := by
  refine ⟨fun ts p rest ↦ ⟨fun h ↦ ?_, ?_⟩, fun c line rest p p' h hp' ↦ ?_⟩
  · obtain ⟨hdeep, hparse⟩ := parse_program_eq_ok_iff.1 h
    obtain ⟨c, line, hts, hp, hdistinct⟩ := derived_of_parse hparse
    exact ⟨c, line, hts, hp, hdistinct, hdeep⟩
  · rintro ⟨c, line, rfl, hp, hdistinct, hdeep⟩
    exact parse_program_eq_ok_iff.2 ⟨hdeep, parse_of_distinct hp hdistinct line rest⟩
  · obtain ⟨-, hparse⟩ := parse_program_eq_ok_iff.1 h
    exact (eq_of_parse hparse hp').1

/-- Operators of every level, on lines of their own, and a read that is attached. -/
theorem accepts_exactly_derived_operators :
    let c : List Lexeme :=
      [⟨.keyword .displayKw, 1⟩, ⟨.identifier "a", 1⟩, ⟨.symbol .minus, 2⟩, ⟨.identifier "b", 2⟩,
        ⟨.symbol .minus, 3⟩, ⟨.identifier "c", 3⟩, ⟨.symbol .star, 4⟩, ⟨.symbol .minus, 5⟩,
        ⟨.identifier "d", 5⟩, ⟨.symbol .less, 6⟩, ⟨.identifier "e", 6⟩, ⟨.keyword .readKw, 7⟩,
        ⟨.identifier "x", 7⟩]
    let product : Expr :=
      .binary .mul (.variable "c" 3) (.binary .mul (.number .minusOne) (.variable "d" 5) 5) 4
    let difference : Expr :=
      .binary .sub (.binary .sub (.variable "a" 1) (.variable "b" 2) 2) product 3
    let p : Program :=
      ⟨[], [.display (.binary .less difference (.variable "e" 6) 6) (some ⟨"x", 7⟩) 1]⟩
    parse program (c ++ [⟨.eof, 8⟩]) = .ok (p, []) ∧
      ∀ p', IsProgram .attached c p' → p' = p := by
  intro c product difference p
  have haccepted : parse program (c ++ [⟨.eof, 8⟩]) = .ok (p, []) := rfl
  exact ⟨haccepted, fun p' hp' ↦ accepts_exactly_derived.2 c 8 [] p p' haccepted hp'⟩

end TinyProc.Parser
