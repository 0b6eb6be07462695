import TinyProc.Proofs.Token.Lexis

/-!
# Scanning follows the lexical grammar

The scanner and the lexical grammar cut every text in the same way. Each of the three parts of a
step of the scanner is compared with its own part of the grammar:

* `skipGap` passes exactly one gap, up to a place where no gap starts (`skipGap_append`,
  `skipGap_of_isPastGap`, `exists_gap`);
* `Spelling.split?` finds the longest spelling and the token it denotes
  (`Spelling.isLongest_of_split?`, `Spelling.token?_eq_some_iff`);
* `Scanner.checkTrailing` is the rule of what may follow (`mayPrecede_iff`).

One step of the scanner is then one rule of the grammar, or one of the three errors: `next_token`
goes from the rule to the step, and `Scanner.Finds` says all that a step can do. Whole texts follow
by induction: on the grammar in one direction, on the number of steps in the other.
-/

namespace TinyProc

open Lexis

/-! ### Gaps -/

theorem isWhiteSpace_iff {c : Char} :
    Token.isWhiteSpace c = true ↔ c ∈ [' ', '\t', '\r', '\n'] := by
  simp [Token.isWhiteSpace, or_assoc]

/-- Up to the end of its line, a comment is passed whatever it says. -/
theorem skipGap_comment {body : List Char} (h : '\n' ∉ body) (line : Nat) (rest : List Char) :
    skipGap true line (body ++ rest) = skipGap true line rest := by
  induction body with
  | nil => rfl
  | cons c body ih =>
    obtain ⟨hc, hbody⟩ := not_or.1 (mt List.mem_cons.2 h)
    rw [List.cons_append, skipGap, if_neg (Ne.symm hc), if_pos rfl, ih hbody]

/-- At the end of its line a comment makes no difference. -/
theorem skipGap_of_lineEnd {text : List Char} (h : ∀ c ∈ text.head?, c = '\n') (line : Nat) :
    skipGap true line text = skipGap false line text := by
  cases text with
  | nil => rfl
  | cons c rest =>
    obtain rfl : c = '\n' := h c rfl
    rfl

/-- A gap is passed, and its line breaks are counted. -/
theorem skipGap_append {gap rest : List Char} (h : IsGap rest gap) (line : Nat) :
    skipGap false line (gap ++ rest) = skipGap false (line + gap.count '\n') rest := by
  induction h generalizing line with
  | nil => rfl
  | @whiteSpace c gap hc _ ih =>
    rw [List.cons_append, skipGap]
    by_cases hn : c = '\n'
    · rw [if_pos hn, ih, hn, List.count_cons_self, Nat.add_right_comm, Nat.add_assoc]
    · rw [if_neg hn, if_neg Bool.false_ne_true, if_pos (isWhiteSpace_iff.2 hc), ih,
        List.count_cons_of_ne hn]
  | @comment body gap hbody hend _ ih =>
    have hslash : skipGap false line ('/' :: '/' :: (body ++ gap) ++ rest) =
        skipGap true line (body ++ (gap ++ rest)) := by
      rw [← List.append_assoc]
      rfl
    have hcount : ('/' :: '/' :: (body ++ gap)).count '\n' = gap.count '\n' := by
      simp [List.count_eq_zero.2 hbody]
    rw [hslash, skipGap_comment hbody, skipGap_of_lineEnd hend, ih, hcount]

/-- Where no gap starts, nothing is passed. -/
theorem skipGap_of_isPastGap {text : List Char} (h : IsPastGap text) (line : Nat) :
    skipGap false line text = (line, text) := by
  cases text with
  | nil => rfl
  | cons c rest =>
    have hspace : Token.isWhiteSpace c = false := h.1 c rfl
    have hnewline : c ≠ '\n' := by
      rintro rfl
      exact absurd hspace (by decide)
    have hslash : ¬ (c = '/' ∧ rest.head? = some '/') := by
      rintro ⟨rfl, hrest⟩
      obtain ⟨tail, rfl⟩ := List.head?_eq_some_iff.1 hrest
      exact h.2 ⟨tail, rfl⟩
    rw [skipGap, if_neg hnewline, if_neg Bool.false_ne_true, hspace, if_neg Bool.false_ne_true,
      if_neg hslash]

/-- In front of every text stands a gap that no further gap follows. The second half is the same
inside a comment, which has to be brought to its end first. -/
theorem exists_gap_and_comment (text : List Char) :
    (∃ gap rest, text = gap ++ rest ∧ IsGap rest gap ∧ IsPastGap rest) ∧
    ∃ body gap rest, text = body ++ (gap ++ rest) ∧ '\n' ∉ body ∧
      (∀ c ∈ (gap ++ rest).head?, c = '\n') ∧ IsGap rest gap ∧ IsPastGap rest := by
  induction text with
  | nil =>
    have hpast : IsPastGap [] := ⟨by simp, by simp⟩
    exact ⟨⟨[], [], rfl, .nil, hpast⟩, [], [], [], rfl, by simp, by simp, .nil, hpast⟩
  | cons c text ih =>
    obtain ⟨⟨gap, rest, htext, hgap, hpast⟩, body, gap', rest', htext', hbody, hend, hgap',
      hpast'⟩ :=
      ih
    constructor
    · by_cases hspace : Token.isWhiteSpace c = true
      · exact ⟨c :: gap, rest, by rw [htext]; rfl, .whiteSpace (isWhiteSpace_iff.1 hspace) hgap,
          hpast⟩
      · by_cases hslash : ['/', '/'] <+: c :: text
        · -- the rest of the text is inside the comment, and starts with its second slash
          obtain ⟨tail, htail⟩ := hslash
          obtain ⟨rfl, rfl⟩ : '/' = c ∧ '/' :: tail = text := List.cons.inj htail
          cases body with
          | nil =>
            rw [List.nil_append] at htext'
            exact absurd (hend '/' (htext' ▸ rfl)) (by decide)
          | cons d body =>
            obtain ⟨rfl, rfl⟩ := List.cons.inj htext'
            refine ⟨'/' :: '/' :: (body ++ gap'), rest', by simp, ?_, hpast'⟩
            exact .comment (fun h ↦ hbody (List.mem_cons_of_mem _ h)) hend hgap'
        · refine ⟨[], c :: text, rfl, .nil, ?_, hslash⟩
          rintro d ⟨rfl⟩
          exact Bool.eq_false_iff.2 hspace
    · by_cases hn : c = '\n'
      · subst hn
        exact ⟨[], '\n' :: gap, rest, by rw [htext]; rfl, by simp, by simp,
          .whiteSpace (by decide) hgap, hpast⟩
      · refine ⟨c :: body, gap', rest', by rw [htext']; rfl, ?_, hend, hgap', hpast'⟩
        rintro (_ | ⟨_, h⟩)
        · exact hn rfl
        · exact hbody h

/-- Every text starts with a gap, which may be empty, and goes on with something that is none. -/
theorem exists_gap (text : List Char) :
    ∃ gap rest, text = gap ++ rest ∧ IsGap rest gap ∧ IsPastGap rest :=
  (exists_gap_and_comment text).1

/-! ### Keywords and symbols -/

theorem Keyword.isSpelled_iff {word : String} {k : Keyword} :
    k.isSpelled word = true ↔ word ∈ k.text :: k.capitals?.toList := by
  rw [isSpelled, Bool.or_eq_true, beq_iff_eq, beq_iff_eq, List.mem_cons, Option.mem_toList,
    eq_comm (a := some word)]

/-- No two keywords share a spelling, so that the first one found is the one. -/
theorem Keyword.ofSpelling?_eq_some_iff {word : String} {k : Keyword} :
    ofSpelling? word = some k ↔ k.isSpelled word = true := by
  have hfound : ∀ word ∈ k.text :: k.capitals?.toList, ofSpelling? word = some k := by
    cases k <;> decide
  refine ⟨fun h ↦ ?_, fun h ↦ hfound word (isSpelled_iff.1 h)⟩
  have hk := List.find?_some h
  exact hk

theorem Keyword.ofSpelling?_eq_none_iff {word : String} :
    ofSpelling? word = none ↔ ∀ k : Keyword, k.isSpelled word = false := by
  simp [ofSpelling?, mem_all]

/-- Every keyword is a word. -/
theorem Keyword.isWord_of_isSpelled {word : String} {k : Keyword} (h : k.isSpelled word = true) :
    IsWord word.toList := by
  have hwords : ∀ word ∈ k.text :: k.capitals?.toList, IsWord word.toList := by
    cases k <;> decide
  exact hwords word (isSpelled_iff.1 h)

/-- A symbol of two characters is found as a whole. -/
theorem Symbol.split?_of_two {s : Symbol} (h : s.text.toList.length = 2) (rest : List Char) :
    split? (s.text.toList ++ rest) = some (s, rest) := by
  cases s <;> simp [text] at h <;> rfl

theorem Symbol.length_text_pos (s : Symbol) : 0 < s.text.toList.length :=
  List.length_pos_iff.2 s.toList_text_ne_nil

/-- No symbol is longer than two characters, and so two are enough to look at. -/
theorem Symbol.length_text_le_two (s : Symbol) : s.text.toList.length ≤ 2 := by
  cases s <;> decide

/-- Where a symbol starts, one is found. -/
theorem Symbol.isSome_split? (s : Symbol) (rest : List Char) :
    (split? (s.text.toList ++ rest)).isSome = true := by
  cases s with
  | less =>
    show (split? ('<' :: rest)).isSome = true
    unfold split?
    split <;> grind
  | greater =>
    show (split? ('>' :: rest)).isSome = true
    unfold split?
    split <;> grind
  | colon =>
    show (split? (':' :: rest)).isSome = true
    unfold split?
    split <;> grind
  | _ => rfl

/-- The symbol found is the longest one: a shorter one is found only where none of the longer ones
starts. -/
theorem Symbol.length_le_of_split? {text rest : List Char} {s other : Symbol}
    (h : split? text = some (s, rest)) (hother : other.text.toList <+: text) :
    other.text.toList.length ≤ s.text.toList.length := by
  by_cases htwo : other.text.toList.length = 2
  · obtain ⟨rest', rfl⟩ := hother
    rw [split?_of_two htwo] at h
    obtain ⟨rfl, -⟩ := Prod.mk.inj (Option.some.inj h)
    exact Nat.le_refl _
  · have := other.length_text_le_two
    have := s.length_text_pos
    omega

/-- Different symbols are spelled differently. -/
theorem Symbol.text_injective {s other : Symbol} (h : s.text.toList = other.text.toList) :
    s = other := by
  revert h
  cases s <;> cases other <;> decide

/-! ### Spellings -/

theorem isDigit_eq_false_of_isAlpha {c : Char} (h : c.isAlpha = true) : c.isDigit = false := by
  change (decide (c.val ≥ 'A'.val ∧ c.val ≤ 'Z'.val) ||
    decide (c.val ≥ 'a'.val) && decide (c.val ≤ 'z'.val)) = true at h
  simp only [Bool.or_eq_true, Bool.and_eq_true, decide_eq_true_eq, UInt32.le_iff_toNat_le,
    ge_iff_le] at h
  simp only [Char.isDigit, Bool.and_eq_false_iff, decide_eq_false_iff_not,
    UInt32.le_iff_toNat_le, ge_iff_le]
  have hA : 'A'.val.toNat = 65 := rfl
  have ha : 'a'.val.toNat = 97 := rfl
  have h9 : '9'.val.toNat = 57 := rfl
  omega

theorem isAlphanum_eq_false_of_isOperatorChar {c : Char} (h : Token.isOperatorChar c = true) :
    c.isAlphanum = false := by
  have hall : ['-', '=', '+', '*', '/', '%', '(', ')', ';', ':', '<', '>', ','].all
      (fun c ↦ !c.isAlphanum) = true := by decide
  have hc := List.all_eq_true.1 hall c (List.contains_iff_mem.1 h)
  simpa using hc

/-- The first character of a spelling tells its class. -/
theorem Lexis.IsSpelling.cases_head {c : Char} {rest : List Char} (h : IsSpelling (c :: rest)) :
    (c.isDigit = true ∧ IsNumeral (c :: rest)) ∨
    (c.isAlpha = true ∧ IsWord (c :: rest)) ∨
    c.isAlphanum = false ∧ ∃ s : Symbol, s ≠ .period ∧ s.text.toList = c :: rest := by
  generalize hspelling : c :: rest = spelling at h
  cases h with
  | numeral h => exact .inl ⟨h.2 c (hspelling ▸ List.mem_cons_self), h⟩
  | word h =>
    subst hspelling
    exact .inr (.inl ⟨h.1, h⟩)
  | @symbol s h =>
    have hc : Token.isOperatorChar c = true :=
      Symbol.isOperatorChar_of_mem h (hspelling ▸ List.mem_cons_self)
    exact .inr (.inr ⟨isAlphanum_eq_false_of_isOperatorChar hc, s, h, rfl⟩)

theorem isPrefix_takeWhile {p : Char → Bool} {front text : List Char} (h : front <+: text)
    (hp : ∀ c ∈ front, p c = true) : front <+: text.takeWhile p := by
  obtain ⟨rest, rfl⟩ := h
  rw [List.takeWhile_append_of_pos hp]
  exact List.prefix_append _ _

/-- The digits in front of a text are a run of digits. -/
theorem isNumeral_takeWhile {c : Char} (h : c.isDigit = true) (text : List Char) :
    IsNumeral ((c :: text).takeWhile Char.isDigit) := by
  refine ⟨?_, List.all_eq_true.1 List.all_takeWhile⟩
  rw [List.takeWhile_cons_of_pos h]
  exact List.cons_ne_nil _ _

/-- The letters and digits in front of a text are a word, if the first is a letter. -/
theorem isWord_takeWhile {c : Char} (h : c.isAlpha = true) (text : List Char) :
    IsWord ((c :: text).takeWhile Char.isAlphanum) := by
  rw [List.takeWhile_cons_of_pos (isAlphanum_of_isAlpha h)]
  exact ⟨h, List.all_eq_true.1 List.all_takeWhile⟩

/-- The spelling that is cut off is the longest one, or the full stop. -/
theorem Spelling.isLongest_of_split? {text : List Char} {s : Spelling} (h : split? text = some s)
    (hperiod : s.token? ≠ some (.symbol .period)) : IsLongest s.chars s.rest := by
  have happend := split?_append h
  cases text with
  | nil => cases h
  | cons c text =>
    have hcons : ∀ other, IsSpelling other → other <+: c :: text → ∃ tail, other = c :: tail := by
      intro other hother hfront
      cases other with
      | nil => exact absurd rfl hother.ne_nil
      | cons d tail => exact ⟨tail, by rw [(List.cons_prefix_cons.1 hfront).1]⟩
    simp only [split?] at h
    split at h
    · rename_i hdigit
      cases h
      refine ⟨.numeral (isNumeral_takeWhile hdigit text), fun other hother hfront ↦ ?_⟩
      rw [List.takeWhile_append_dropWhile] at hfront
      obtain ⟨tail, rfl⟩ := hcons other hother hfront
      obtain ⟨-, hnum⟩ | ⟨halpha, -⟩ | ⟨halphanum, -⟩ := hother.cases_head
      · exact (isPrefix_takeWhile hfront hnum.2).length_le
      · exact absurd hdigit (by simp [isDigit_eq_false_of_isAlpha halpha])
      · exact absurd (isAlphanum_of_isDigit hdigit) (by simp [halphanum])
    · rename_i hdigit
      split at h
      · rename_i halpha
        cases h
        refine ⟨.word (isWord_takeWhile halpha text), fun other hother hfront ↦ ?_⟩
        rw [List.takeWhile_append_dropWhile] at hfront
        obtain ⟨tail, rfl⟩ := hcons other hother hfront
        obtain ⟨hdigit', -⟩ | ⟨-, hword⟩ | ⟨halphanum, -⟩ := hother.cases_head
        · exact absurd hdigit' hdigit
        · exact (isPrefix_takeWhile hfront fun d hd ↦ hword.isAlphanum hd).length_le
        · exact absurd (isAlphanum_of_isAlpha halpha) (by simp [halphanum])
      · rename_i halpha
        obtain ⟨⟨symbol, rest⟩, hsymbol, rfl⟩ := Option.map_eq_some_iff.1 h
        refine ⟨.symbol fun hs ↦ hperiod (by rw [hs]), fun other hother hfront ↦ ?_⟩
        rw [happend] at hfront
        obtain ⟨tail, rfl⟩ := hcons other hother hfront
        obtain ⟨hdigit', -⟩ | ⟨halpha', -⟩ | ⟨-, s, -, hs⟩ := hother.cases_head
        · exact absurd hdigit' hdigit
        · exact absurd halpha' halpha
        · rw [← hs] at hfront ⊢
          exact Symbol.length_le_of_split? hsymbol hfront

/-- Where there is a spelling, the scanner finds one, though perhaps a longer one. -/
theorem Spelling.exists_of_isSpelling {spelling : List Char} (h : IsSpelling spelling)
    (rest : List Char) : ∃ s, split? (spelling ++ rest) = some s := by
  cases spelling with
  | nil => exact absurd rfl h.ne_nil
  | cons c tail =>
    rw [List.cons_append]
    simp only [split?]
    split
    · exact ⟨_, rfl⟩
    · rename_i hdigit
      split
      · exact ⟨_, rfl⟩
      · rename_i halpha
        obtain ⟨hdigit', -⟩ | ⟨halpha', -⟩ | ⟨-, s, -, hs⟩ := h.cases_head
        · exact absurd hdigit' hdigit
        · exact absurd halpha' halpha
        · obtain ⟨found, hfound⟩ := Option.isSome_iff_exists.1 (s.isSome_split? rest)
          rw [← List.cons_append, ← hs, hfound]
          exact ⟨_, rfl⟩

/-! ### The tokens that spellings denote -/

/-- What begins with a digit is no word. -/
theorem Lexis.IsNumeral.not_isWord {spelling : List Char} (h : IsNumeral spelling) :
    ¬ IsWord spelling := by
  intro hword
  cases spelling with
  | nil => exact hword
  | cons c rest =>
    have hdigit : c.isDigit = true := h.2 c List.mem_cons_self
    simp [isDigit_eq_false_of_isAlpha hword.1] at hdigit

/-- A symbol is neither a numeral nor a word. -/
theorem Symbol.not_isAlphanum {s : Symbol} (h : s ≠ .period) :
    ¬ ∀ c ∈ s.text.toList, c.isAlphanum = true := by
  intro hall
  obtain ⟨c, hc⟩ := List.exists_mem_of_ne_nil _ s.toList_text_ne_nil
  have hfalse := isAlphanum_eq_false_of_isOperatorChar (Symbol.isOperatorChar_of_mem h hc)
  exact absurd (hall c hc) (by simp [hfalse])

/-- A run of digits denotes the number it stands for, if this is a word of the machine, and else
nothing. -/
theorem denotes_iff_of_isNumeral {spelling : List Char} (h : IsNumeral spelling) {token : Token} :
    Denotes spelling token ↔
      (Word.ofInt? (Decimal.value spelling)).map Token.integer = some token := by
  rw [Option.map_eq_some_iff]
  constructor
  · intro hdenotes
    cases hdenotes with
    | integer _ hvalue => exact ⟨_, Word.ofInt?_eq_some_iff.2 hvalue, rfl⟩
    | keyword hk => exact absurd (Keyword.isWord_of_isSpelled hk) h.not_isWord
    | identifier hname => exact absurd hname.1 h.not_isWord
    | symbol hs =>
      exact absurd (fun c hc ↦ isAlphanum_of_isDigit (h.2 c hc)) (Symbol.not_isAlphanum hs)
  · rintro ⟨value, hvalue, rfl⟩
    exact .integer h (Word.ofInt?_eq_some_iff.1 hvalue)

/-- A word denotes a keyword, if it is spelled like one, and else a name. -/
theorem denotes_iff_of_isWord {word : String} (h : IsWord word.toList) {token : Token} :
    Denotes word.toList token ↔ Token.ofWord word = token := by
  constructor
  · intro hdenotes
    generalize hspelling : word.toList = spelling at hdenotes
    cases hdenotes with
    | integer hnum _ => exact absurd (hspelling ▸ h) hnum.not_isWord
    | @keyword k other hk =>
      obtain rfl : word = other := String.toList_inj.1 hspelling
      rw [Token.ofWord, Keyword.ofSpelling?_eq_some_iff.2 hk]
    | @identifier other hname =>
      obtain rfl : word = other := String.toList_inj.1 hspelling
      rw [Token.ofWord, Keyword.ofSpelling?_eq_none_iff.2 hname.2]
    | symbol hs =>
      exact absurd (fun c hc ↦ h.isAlphanum (hspelling ▸ hc)) (Symbol.not_isAlphanum hs)
  · rintro rfl
    cases hk : Keyword.ofSpelling? word with
    | some k =>
      rw [Token.ofWord, hk]
      exact .keyword (Keyword.ofSpelling?_eq_some_iff.1 hk)
    | none =>
      rw [Token.ofWord, hk]
      exact .identifier ⟨h, Keyword.ofSpelling?_eq_none_iff.1 hk⟩

/-- A symbol denotes itself. -/
theorem denotes_iff_of_symbol {s : Symbol} (h : s ≠ .period) {token : Token} :
    Denotes s.text.toList token ↔ .symbol s = token := by
  constructor
  · intro hdenotes
    generalize hspelling : s.text.toList = spelling at hdenotes
    cases hdenotes with
    | integer hnum _ =>
      subst hspelling
      exact absurd (fun c hc ↦ isAlphanum_of_isDigit (hnum.2 c hc)) (Symbol.not_isAlphanum h)
    | keyword hk =>
      have hword := hspelling ▸ Keyword.isWord_of_isSpelled hk
      exact absurd (fun c hc ↦ hword.isAlphanum hc) (Symbol.not_isAlphanum h)
    | identifier hname =>
      have hword := hspelling ▸ hname.1
      exact absurd (fun c hc ↦ hword.isAlphanum hc) (Symbol.not_isAlphanum h)
    | symbol _ => rw [Symbol.text_injective hspelling]
  · rintro rfl
    exact .symbol h

/-- The token of the spelling that is cut off is the one it denotes, if it denotes one. -/
theorem Spelling.token?_eq_some_iff {text : List Char} {s : Spelling} (h : split? text = some s)
    (hperiod : s.token? ≠ some (.symbol .period)) {token : Token} :
    s.token? = some token ↔ Denotes s.chars token := by
  cases text with
  | nil => cases h
  | cons c text =>
    simp only [split?] at h
    split at h
    · rename_i hdigit
      cases h
      exact (denotes_iff_of_isNumeral (isNumeral_takeWhile hdigit text)).symm
    · split at h
      · rename_i halpha
        cases h
        have hword : IsWord (String.ofList ((c :: text).takeWhile Char.isAlphanum)).toList := by
          rw [String.toList_ofList]
          exact isWord_takeWhile halpha text
        rw [Option.some.injEq, ← denotes_iff_of_isWord hword, String.toList_ofList]
      · obtain ⟨⟨symbol, rest⟩, -, rfl⟩ := Option.map_eq_some_iff.1 h
        rw [Option.some.injEq, denotes_iff_of_symbol fun hs ↦ hperiod (by rw [hs])]

/-- Only a numeral beyond the words stands for no token. -/
theorem Spelling.isNumeral_of_token?_eq_none {text chars rest : List Char}
    (h : split? text = some ⟨chars, none, rest⟩) :
    IsNumeral chars ∧ ¬ InRange (Decimal.value chars) := by
  cases text with
  | nil => cases h
  | cons c text =>
    simp only [split?] at h
    split at h
    · rename_i hdigit
      obtain ⟨rfl, hvalue, -⟩ := Spelling.mk.inj (Option.some.inj h)
      rw [Option.map_eq_none_iff, Word.ofInt?_eq_none_iff] at hvalue
      exact ⟨isNumeral_takeWhile hdigit text, hvalue⟩
    · split at h
      · cases h
      · obtain ⟨_, -, hsymbol⟩ := Option.map_eq_some_iff.1 h
        cases hsymbol

theorem Token.ofWord_ne_symbol (word : String) (s : Symbol) : ofWord word ≠ .symbol s := by
  unfold ofWord
  split <;> exact Token.noConfusion

/-- Only a full stop stands for the full stop. -/
theorem Spelling.head?_of_period {text : List Char} {s : Spelling} (h : split? text = some s)
    (hperiod : s.token? = some (.symbol .period)) : text.head? = some '.' := by
  cases text with
  | nil => cases h
  | cons c text =>
    simp only [split?] at h
    split at h
    · cases h
      obtain ⟨_, -, hinteger⟩ := Option.map_eq_some_iff.1 hperiod
      cases hinteger
    · split at h
      · cases h
        exact absurd (Option.some.inj hperiod) (Token.ofWord_ne_symbol _ _)
      · obtain ⟨⟨symbol, rest⟩, hsymbol, rfl⟩ := Option.map_eq_some_iff.1 h
        obtain rfl : symbol = .period := by
          simpa using hperiod
        rw [← Symbol.split?_append hsymbol]
        rfl

/-- The longest spelling in front of a text is the one that is cut off. -/
theorem Spelling.split?_of_isLongest {spelling rest : List Char} {token : Token}
    (hlongest : IsLongest spelling rest) (hdenotes : Denotes spelling token) :
    split? (spelling ++ rest) = some ⟨spelling, some token, rest⟩ := by
  have hspelling := hlongest.isSpelling
  obtain ⟨⟨chars, token?, rest'⟩, hs⟩ := exists_of_isSpelling hspelling rest
  have happend : chars ++ rest' = spelling ++ rest := split?_append hs
  have hperiod : token? ≠ some (.symbol .period) := by
    intro htoken
    have hhead := head?_of_period hs htoken
    rw [List.head?_append_of_ne_nil _ hspelling.ne_nil] at hhead
    exact hspelling.period_not_mem (List.mem_of_mem_head? hhead)
  have hlongest' := isLongest_of_split? hs hperiod
  have hlength : chars.length = spelling.length :=
    Nat.le_antisymm (hlongest.longest chars hlongest'.isSpelling ⟨rest', happend⟩)
      (hlongest'.longest spelling hspelling ⟨rest, happend.symm⟩)
  obtain ⟨rfl, rfl⟩ := List.append_inj happend hlength
  obtain rfl : token? = some token := (token?_eq_some_iff hs hperiod).2 hdenotes
  exact hs

/-! ### What follows a token -/

/-- The scanner decides on the token alone what may follow, and the grammar on its kind. The two
agree on every token that a spelling denotes. -/
theorem mayPrecede_iff {spelling : List Char} {token : Token} (h : Denotes spelling token)
    {c : Char} : token.mayPrecede c = true ↔ MayFollow token c := by
  rw [Token.mayPrecede, Bool.or_eq_true, Bool.or_eq_true, isWhiteSpace_iff, Token.isOperatorChar,
    List.contains_iff_mem, Bool.and_eq_true]
  constructor
  · rintro ((hspace | hoperator) | ⟨hword, halphanum⟩)
    · exact .whiteSpace hspace
    · exact .operator hoperator
    · cases h with
      | symbol _ => exact .alphanumeric halphanum
      | _ => exact absurd hword Bool.false_ne_true
  · rintro (hspace | hoperator | halphanum)
    · exact .inl (.inl hspace)
    · exact .inl (.inr hoperator)
    · exact .inr ⟨rfl, halphanum⟩

/-! ### One step -/

namespace Scanner

/-- A token is delivered exactly if the character behind its spelling may stand there. -/
theorem checkTrailing_eq_ok_iff {token : Token} {spelling : Spelling} {line : Nat}
    {lexeme : Lexeme} : checkTrailing token spelling line = .ok lexeme ↔
      (∀ c ∈ spelling.rest.head?, token.mayPrecede c = true) ∧ lexeme = ⟨token, line⟩ := by
  unfold checkTrailing
  cases spelling.rest.head? with
  | none =>
    refine ⟨fun h ↦ ⟨nofun, (Except.ok.inj h).symm⟩, fun h ↦ ?_⟩
    rw [h.2]
  | some c =>
    show (if _ then _ else _) = _ ↔ _
    split
    · rename_i hc
      refine ⟨fun h ↦ ⟨?_, (Except.ok.inj h).symm⟩, fun h ↦ ?_⟩
      · rintro d ⟨rfl⟩
        exact hc
      · rw [h.2]
    · rename_i hc
      exact ⟨nofun, fun h ↦ absurd (h.1 c rfl) hc⟩

/-- A gap only moves the scanner on. -/
theorem next_append {gap rest : List Char} (h : IsGap rest gap) (line : Nat) :
    next ⟨gap ++ rest, line, false⟩ = next ⟨rest, line + gap.count '\n', false⟩ := by
  simp only [next, skipGap_append h, Bool.false_eq_true, if_false]

/-- The end of the text and a full stop are the end of the input. -/
theorem next_tail {tail : List Char} (h : ∀ c ∈ tail.head?, c = '.') (line : Nat) :
    (next ⟨tail, line, false⟩).1 = .ok ⟨.eof, line⟩ := by
  cases tail with
  | nil => rfl
  | cons c rest =>
    obtain rfl : c = '.' := h c rfl
    rfl

/-- Behind a gap the scanner cuts off a spelling and looks at what follows it. -/
theorem next_of_split? {text chars rest : List Char} {token : Token} (hpast : IsPastGap text)
    (hs : Spelling.split? text = some ⟨chars, some token, rest⟩)
    (htoken : token ≠ .symbol .period) (line : Nat) :
    next ⟨text, line, false⟩ =
      (checkTrailing token ⟨chars, some token, rest⟩ line, ⟨rest, line, false⟩) := by
  cases text with
  | nil => cases hs
  | cons c text =>
    simp only [next, skipGap_of_isPastGap hpast, hs, Bool.false_eq_true, if_false]

/-- Where a spelling starts, no gap does. Only the spelling of division can be taken for one, as two
of them begin a comment. -/
theorem isPastGap_of_isSpelling {spelling rest : List Char} (h : IsSpelling spelling)
    (hcomment : ¬ ['/', '/'] <+: spelling ++ rest) : IsPastGap (spelling ++ rest) := by
  refine ⟨fun c hc ↦ Bool.eq_false_iff.2 fun hspace ↦ ?_, hcomment⟩
  rw [List.head?_append_of_ne_nil _ h.ne_nil] at hc
  have hall : [' ', '\t', '\r', '\n'].all
      (fun c ↦ !(c.isAlphanum || Token.isOperatorChar c)) = true := by decide
  have hnone := List.all_eq_true.1 hall c (isWhiteSpace_iff.1 hspace)
  have hsome := h.isAlphanum_or_isOperatorChar (List.mem_of_mem_head? hc)
  rw [← Bool.or_eq_true] at hsome
  rw [hsome] at hnone
  exact Bool.false_ne_true hnone

/-- The longest spelling is delivered as the token it denotes. -/
theorem next_token {spelling rest : List Char} {token : Token}
    (hcomment : ¬ ['/', '/'] <+: spelling ++ rest) (hlongest : IsLongest spelling rest)
    (hdenotes : Denotes spelling token) (hfollow : ∀ c ∈ rest.head?, MayFollow token c)
    (line : Nat) :
    next ⟨spelling ++ rest, line, false⟩ = (.ok ⟨token, line⟩, ⟨rest, line, false⟩) := by
  have hpast := isPastGap_of_isSpelling hlongest.isSpelling hcomment
  rw [next_of_split? hpast (Spelling.split?_of_isLongest hlongest hdenotes) hdenotes.ne_period]
  rw [checkTrailing_eq_ok_iff.2 ⟨fun c hc ↦ (mayPrecede_iff hdenotes).2 (hfollow c hc), rfl⟩]

/-- What a step finds on the given line, in a text that does not start with a gap: what it delivers,
and the scanner it leaves. -/
inductive Finds (line : Nat) : List Char → Except ScanError Lexeme → Scanner → Prop
  | endOfText : Finds line [] (.ok ⟨.eof, line⟩) ⟨[], line, true⟩
  | fullStop {rest : List Char} : Finds line ('.' :: rest) (.ok ⟨.eof, line⟩) ⟨rest, line, true⟩
  | token {spelling rest : List Char} {token : Token} (hlongest : IsLongest spelling rest)
      (hdenotes : Denotes spelling token) (hfollow : ∀ c ∈ rest.head?, MayFollow token c) :
      Finds line (spelling ++ rest) (.ok ⟨token, line⟩) ⟨rest, line, false⟩
  | illegalTrailing {spelling rest : List Char} {c : Char} {token : Token}
      (hlongest : IsLongest spelling (c :: rest)) (hdenotes : Denotes spelling token)
      (hfollow : ¬ MayFollow token c) :
      Finds line (spelling ++ c :: rest)
        (.error ⟨.illegalTrailing (String.ofList spelling) c, line⟩) ⟨c :: rest, line, false⟩
  | literalTooLarge {digits rest : List Char} (hlongest : IsLongest digits rest)
      (hnumeral : IsNumeral digits) (hrange : ¬ InRange (Decimal.value digits)) :
      Finds line (digits ++ rest) (.error ⟨.literalTooLarge (String.ofList digits), line⟩)
        ⟨rest, line, false⟩
  | unexpectedCharacter {c : Char} {rest : List Char}
      (hnone : ∀ spelling, IsSpelling spelling → ¬ spelling <+: c :: rest) (hstop : c ≠ '.') :
      Finds line (c :: rest) (.error ⟨.unexpectedCharacter c, line⟩) ⟨rest, line, false⟩

/-- A longest spelling that denotes a token: either the token is delivered, or the character behind
it is an error. -/
theorem finds_checkTrailing {spelling rest : List Char} {token : Token}
    (hlongest : IsLongest spelling rest) (hdenotes : Denotes spelling token) (line : Nat) :
    Finds line (spelling ++ rest) (checkTrailing token ⟨spelling, some token, rest⟩ line)
      ⟨rest, line, false⟩ := by
  by_cases hfollow : ∀ c ∈ rest.head?, token.mayPrecede c = true
  · rw [checkTrailing_eq_ok_iff.2 ⟨hfollow, rfl⟩]
    exact .token hlongest hdenotes fun c hc ↦ (mayPrecede_iff hdenotes).1 (hfollow c hc)
  · cases rest with
    | nil => exact absurd nofun hfollow
    | cons c rest =>
      have hc : ¬ token.mayPrecede c = true := fun hc ↦ hfollow fun _ hd ↦ Option.some.inj hd ▸ hc
      have hcheck : checkTrailing token ⟨spelling, some token, c :: rest⟩ line =
          .error ⟨.illegalTrailing (String.ofList spelling) c, line⟩ := if_neg hc
      rw [hcheck]
      exact .illegalTrailing hlongest hdenotes (mt (mayPrecede_iff hdenotes).2 hc)

/-- All that a step can do behind a gap: the end, a token, or one of the three errors. -/
theorem finds_next {text : List Char} (hpast : IsPastGap text) (line : Nat) :
    Finds line text (next ⟨text, line, false⟩).1 (next ⟨text, line, false⟩).2 := by
  cases text with
  | nil => exact .endOfText
  | cons c text =>
    cases hs : Spelling.split? (c :: text) with
    | none =>
      simp only [next, skipGap_of_isPastGap hpast, hs, Bool.false_eq_true, if_false]
      refine .unexpectedCharacter (fun spelling hspelling hfront ↦ ?_) ?_
      · -- if a spelling stood here, one would have been found
        obtain ⟨rest, hrest⟩ := hfront
        obtain ⟨s, hsome⟩ := Spelling.exists_of_isSpelling hspelling rest
        rw [hrest, hs] at hsome
        cases hsome
      · rintro rfl
        cases hs
    | some spelling =>
      obtain ⟨chars, token?, rest⟩ := spelling
      have happend : chars ++ rest = c :: text := Spelling.split?_append hs
      cases token? with
      | none =>
        have hlongest := Spelling.isLongest_of_split? hs (Option.some_ne_none _).symm
        obtain ⟨hnumeral, hrange⟩ := Spelling.isNumeral_of_token?_eq_none hs
        simp only [next, skipGap_of_isPastGap hpast, hs, Bool.false_eq_true, if_false]
        rw [← happend]
        exact .literalTooLarge hlongest hnumeral hrange
      | some token =>
        by_cases hperiod : token = .symbol .period
        · subst hperiod
          obtain rfl : c = '.' := Option.some.inj (Spelling.head?_of_period hs rfl)
          exact .fullStop
        · have hperiod' : some token ≠ some (.symbol .period) := fun h ↦ hperiod (Option.some.inj h)
          rw [next_of_split? hpast hs hperiod, ← happend]
          exact finds_checkTrailing (Spelling.isLongest_of_split? hs hperiod')
            ((Spelling.token?_eq_some_iff hs hperiod').1 rfl) line

/-! ### Whole texts -/

/-- A scan goes on behind a token. -/
theorem scan_of_next {s s' : Scanner} {lexeme : Lexeme} (h : s.next = (.ok lexeme, s'))
    (hlexeme : lexeme.token ≠ .eof) (n : Nat) : s.scan (n + 1) = (s'.scan n).cons lexeme := by
  rw [scan, h]
  exact if_neg hlexeme

/-- A gap at the front makes no difference to a scan. -/
theorem scan_append {gap rest : List Char} (h : IsGap rest gap) (n line : Nat) :
    scan (n + 1) ⟨gap ++ rest, line, false⟩ =
      scan (n + 1) ⟨rest, line + gap.count '\n', false⟩ := by
  rw [scan, next_append h, scan]

end Scanner

theorem Lexis.lineAfter_append (before text : List Char) :
    lineAfter (before ++ text) = lineAfter before + text.count '\n' := by
  rw [lineAfter, lineAfter, List.count_append, Nat.add_assoc]

/-- Spellings are within a line. -/
theorem Lexis.lineAfter_append_spelling {spelling : List Char} (h : IsSpelling spelling)
    (before : List Char) : lineAfter (before ++ spelling) = lineAfter before := by
  rw [lineAfter_append, List.count_eq_zero.2 h.newline_not_mem, Nat.add_zero]

/-- A text of the grammar is scanned into its tokens. -/
theorem scan_of_lexed {before text tail : List Char} {lexemes : List Lexeme}
    (h : Lexed before text tail lexemes) {n : Nat} (hn : text.length < n) :
    Scanner.scan n ⟨text, lineAfter before, false⟩ = ⟨lexemes, none⟩ := by
  induction h generalizing n with
  | @tail before gap tail hgap htail =>
    obtain ⟨n, rfl⟩ := Nat.exists_eq_succ_of_ne_zero (Nat.ne_zero_of_lt hn)
    have hnext := Scanner.next_tail htail (lineAfter (before ++ gap))
    rw [lineAfter_append, ← Scanner.next_append hgap] at hnext
    rw [Scanner.scan]
    split
    · rename_i he
      rw [he] at hnext
      cases hnext
    · rename_i he
      rw [he] at hnext
      cases hnext
      rw [if_pos rfl, lineAfter_append]
  | @token before gap spelling rest tail token lexemes hgap hcomment hlongest hdenotes hfollow _
      ih =>
    obtain ⟨n, rfl⟩ := Nat.exists_eq_succ_of_ne_zero (Nat.ne_zero_of_lt hn)
    have hspelling := hlongest.isSpelling
    have hnext := Scanner.next_token hcomment hlongest hdenotes hfollow (lineAfter (before ++ gap))
    have hrest : rest.length < n := by
      have hpos := List.length_pos_iff.2 hspelling.ne_nil
      simp only [List.length_append] at hn
      omega
    rw [lineAfter_append] at hnext
    rw [Scanner.scan_append hgap, Scanner.scan_of_next hnext hdenotes.ne_eof]
    rw [← lineAfter_append, ← lineAfter_append_spelling hspelling, ih hrest,
      lineAfter_append_spelling hspelling]
    rfl

theorem Scan.exists_of_cons {lexeme : Lexeme} {scan : Scan} {lexemes : List Lexeme}
    (h : scan.cons lexeme = ⟨lexemes, none⟩) :
    ∃ rest, scan = ⟨rest, none⟩ ∧ lexemes = lexeme :: rest := by
  obtain ⟨rest, error?⟩ := scan
  obtain ⟨rfl, rfl⟩ := Scan.mk.inj h
  exact ⟨rest, rfl, rfl⟩

/-- What is scanned without an error is a text of the grammar. -/
theorem lexed_of_scan {n : Nat} {before text : List Char} {lexemes : List Lexeme}
    (hn : text.length < n)
    (h : Scanner.scan n ⟨text, lineAfter before, false⟩ = ⟨lexemes, none⟩) :
    ∃ tail, Lexed before text tail lexemes := by
  induction n generalizing before text lexemes with
  | zero => exact absurd hn (Nat.not_lt_zero _)
  | succ n ih =>
    obtain ⟨gap, rest, rfl, hgap, hpast⟩ := exists_gap text
    rw [Scanner.scan, Scanner.next_append hgap, ← lineAfter_append] at h
    split at h
    · cases h
    · rename_i lexeme s hnext
      have hfinds := Scanner.finds_next hpast (lineAfter (before ++ gap))
      rw [hnext] at hfinds
      cases hfinds with
      | endOfText =>
        cases h
        exact ⟨[], .tail hgap nofun⟩
      | @fullStop rest =>
        cases h
        exact ⟨'.' :: rest, .tail hgap (by simp)⟩
      | @token spelling rest token hlongest hdenotes hfollow =>
        have hspelling := hlongest.isSpelling
        -- a spelling has a character, and so the steps suffice for what is left
        have hrest : rest.length < n := by
          have hpos := List.length_pos_iff.2 hspelling.ne_nil
          simp only [List.length_append] at hn
          omega
        simp only [hdenotes.ne_eof, if_false] at h
        rw [← lineAfter_append_spelling hspelling] at h
        obtain ⟨lexemes', hscan, rfl⟩ := Scan.exists_of_cons h
        obtain ⟨tail, htail⟩ := ih hrest hscan
        rw [lineAfter_append_spelling hspelling]
        exact ⟨tail, .token hgap hpast.2 hlongest hdenotes hfollow htail⟩

/-- A text is scanned to tokens exactly if the lexical grammar cuts it into them. -/
theorem tokenize_eq_ok_iff_lexed {source : String} {lexemes : List Lexeme} :
    tokenize source = .ok lexemes ↔ ∃ tail, Lexed [] source.toList tail lexemes := by
  have hscan : tokenize source = .ok lexemes ↔ scan source = ⟨lexemes, none⟩ := by
    unfold tokenize
    obtain ⟨found, error?⟩ := scan source
    cases error? <;> simp
  rw [hscan]
  have hlength : source.toList.length < source.toList.length + 1 := Nat.lt_succ_self _
  constructor
  · intro h
    have hstart : Scanner.scan (source.toList.length + 1) ⟨source.toList, lineAfter [], false⟩ =
        ⟨lexemes, none⟩ := h
    exact lexed_of_scan hlength hstart
  · rintro ⟨tail, h⟩
    exact scan_of_lexed h hlength

/-- **Scanning follows the lexical grammar.** A text is scanned without an error exactly if gaps and
spellings take turns in it up to a tail: each spelling is the longest at its place and denotes its
token, what follows it may follow it, and each token, the end of the input included, has the line of
its place. What comes after the full stop in front of a tail has no influence on the tokens. -/
theorem tokenizes_exactly_lexed (source : String) (lexemes : List Lexeme) :
    (tokenize source = .ok lexemes ↔ ∃ tail, Lexed [] source.toList tail lexemes) ∧
    ∀ front t, source.toList = front ++ '.' :: t → Lexed [] source.toList ('.' :: t) lexemes →
      ∀ t', tokenize (String.ofList (front ++ '.' :: t')) = .ok lexemes := by
  refine ⟨tokenize_eq_ok_iff_lexed, fun front t hsource h t' ↦ ?_⟩
  obtain ⟨front', hfront, hreplace⟩ := h.replace_tail
  obtain rfl : front = front' := List.append_cancel_right (hsource.symm.trans hfront)
  refine tokenize_eq_ok_iff_lexed.2 ⟨'.' :: t', ?_⟩
  rw [String.toList_ofList]
  exact hreplace t'

/-- A keyword in capitals, a comment directly behind it and a full stop on the next line: whatever
the text has after that. -/
theorem tokenizes_exactly_lexed_comment :
    let lexemes : List Lexeme := [⟨.keyword .ifKw, 1⟩, ⟨.eof, 2⟩]
    Lexed [] "IF//.\n.?".toList ".?".toList lexemes ∧
    ∀ t, tokenize (String.ofList ("IF//.\n.".toList ++ t)) = .ok lexemes := by
  intro lexemes
  have hlexed : Lexed [] "IF//.\n.?".toList ".?".toList lexemes := by
    have hsplit : Spelling.split? "IF//.\n.?".toList =
        some ⟨"IF".toList, some (.keyword .ifKw), "//.\n.?".toList⟩ := rfl
    have hperiod : some (Token.keyword .ifKw) ≠ some (.symbol .period) := by decide
    have hlongest := Spelling.isLongest_of_split? hsplit hperiod
    have hdenotes := (Spelling.token?_eq_some_iff hsplit hperiod).1 rfl
    have hgap : IsGap ".?".toList "//.\n".toList :=
      @IsGap.comment _ ['.'] ['\n'] (by decide) (fun _ h ↦ (Option.some.inj h).symm)
        (.whiteSpace (by decide) .nil)
    refine .token .nil (by decide) hlongest hdenotes ?_ (@Lexed.tail _ _ ".?".toList hgap ?_)
    · rintro c ⟨rfl⟩
      exact .operator (by decide)
    · exact fun _ h ↦ (Option.some.inj h).symm
  refine ⟨hlexed, fun t ↦ ?_⟩
  exact (tokenizes_exactly_lexed "IF//.\n.?" lexemes).2 "IF//.\n".toList ['?'] rfl hlexed t

end TinyProc
