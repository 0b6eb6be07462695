import Mathlib.Data.List.Basic
import TinyProc.Token.Scanner

/-!
# The lexical grammar

What a source text is made of, said without reading it from left to right: gaps and spellings that
take turns, and a tail that is not read.

* `IsGap` : white space and comments;
* `IsSpelling` : runs of digits, words and symbols. A run of digits is a spelling whatever its
  length, so that a part of it never is one by itself;
* `IsLongest` : a spelling that no other one at its place exceeds;
* `Denotes` : the token that a spelling stands for, which a run of digits beyond the words has not;
* `MayFollow` : the characters that may stand directly behind a token;
* `Lexed` : the texts, with the tokens they are made of and the tail they end in.

A spelling is longest *in front of the text that follows it*. All that `Lexed` says about a place
therefore has the rest of the text in it, and two texts that differ only in the tail have the same
tokens because no spelling reaches into a tail (`Lexed.replace_tail`).
-/

namespace TinyProc

namespace Lexis

/-! ### Gaps -/

/-- The line reached behind a text. -/
def lineAfter (before : List Char) : Nat :=
  1 + before.count '\n'

/-- A text in front of `rest` that consists of white space and comments. A comment runs to the end
of its line: it holds no line break, and a line break or nothing comes after it. -/
inductive IsGap (rest : List Char) : List Char → Prop
  | nil : IsGap rest []
  | whiteSpace {c : Char} {gap : List Char} (hc : c ∈ [' ', '\t', '\r', '\n'])
      (hgap : IsGap rest gap) : IsGap rest (c :: gap)
  | comment {body gap : List Char} (hbody : '\n' ∉ body)
      (hend : ∀ c ∈ (gap ++ rest).head?, c = '\n') (hgap : IsGap rest gap) :
      IsGap rest ('/' :: '/' :: (body ++ gap))

/-- Whether neither white space nor a comment starts here. -/
def IsPastGap (text : List Char) : Prop :=
  (∀ c ∈ text.head?, Token.isWhiteSpace c = false) ∧ ¬ ['/', '/'] <+: text

/-! ### Spellings -/

/-- A run of digits. -/
def IsNumeral (spelling : List Char) : Prop :=
  spelling ≠ [] ∧ ∀ c ∈ spelling, c.isDigit = true

instance : DecidablePred IsNumeral := fun spelling ↦
  decidable_of_iff (spelling ≠ [] ∧ spelling.all Char.isDigit = true) (by simp [IsNumeral])

/-- Letters and digits, led by a letter. -/
def IsWord : List Char → Prop
  | [] => False
  | c :: rest => c.isAlpha = true ∧ ∀ d ∈ rest, d.isAlphanum = true

instance : DecidablePred IsWord
  | [] => .isFalse id
  | c :: rest =>
    decidable_of_iff (c.isAlpha = true ∧ rest.all Char.isAlphanum = true) (by simp [IsWord])

/-- The texts that stand for a token, numerals beyond the words included. The full stop is none of
them, since it ends the text. -/
inductive IsSpelling : List Char → Prop
  | numeral {spelling : List Char} (h : IsNumeral spelling) : IsSpelling spelling
  | word {spelling : List Char} (h : IsWord spelling) : IsSpelling spelling
  | symbol {s : Symbol} (h : s ≠ .period) : IsSpelling s.text.toList

/-- A spelling in front of `rest` that no other spelling at its place exceeds. -/
structure IsLongest (spelling rest : List Char) : Prop where
  /-- It is a spelling. -/
  isSpelling : IsSpelling spelling
  /-- No other one at its place is longer. -/
  longest : ∀ other, IsSpelling other → other <+: spelling ++ rest →
    other.length ≤ spelling.length

/-- A word that is no keyword. -/
def IsName (name : String) : Prop :=
  IsWord name.toList ∧ ∀ k : Keyword, k.isSpelled name = false

/-- The token that a spelling stands for. -/
inductive Denotes : List Char → Token → Prop
  | integer {spelling : List Char} {value : Word} (h : IsNumeral spelling)
      (hvalue : value.val = Decimal.value spelling) : Denotes spelling (.integer value)
  | keyword {k : Keyword} {word : String} (h : k.isSpelled word = true) :
      Denotes word.toList (.keyword k)
  | identifier {name : String} (h : IsName name) : Denotes name.toList (.identifier name)
  | symbol {s : Symbol} (h : s ≠ .period) : Denotes s.text.toList (.symbol s)

/-- The characters that may stand directly behind a token. -/
inductive MayFollow : Token → Char → Prop
  | whiteSpace {token : Token} {c : Char} (h : c ∈ [' ', '\t', '\r', '\n']) : MayFollow token c
  | operator {token : Token} {c : Char}
      (h : c ∈ ['-', '=', '+', '*', '/', '%', '(', ')', ';', ':', '<', '>', ',']) :
      MayFollow token c
  | alphanumeric {s : Symbol} {c : Char} (h : c.isAlphanum = true) : MayFollow (.symbol s) c

/-! ### Texts -/

/-- A `text` that comes after `before`, the tokens it is made of, and the `tail` behind them. -/
inductive Lexed : (before text tail : List Char) → List Lexeme → Prop
  | tail {before gap tail : List Char} (hgap : IsGap tail gap)
      (htail : ∀ c ∈ tail.head?, c = '.') :
      Lexed before (gap ++ tail) tail [⟨.eof, lineAfter (before ++ gap)⟩]
  | token {before gap spelling rest tail : List Char} {token : Token} {lexemes : List Lexeme}
      (hgap : IsGap (spelling ++ rest) gap) (hcomment : ¬ ['/', '/'] <+: spelling ++ rest)
      (hlongest : IsLongest spelling rest) (hdenotes : Denotes spelling token)
      (hfollow : ∀ c ∈ rest.head?, MayFollow token c)
      (hrest : Lexed (before ++ gap ++ spelling) rest tail lexemes) :
      Lexed before (gap ++ (spelling ++ rest)) tail
        (⟨token, lineAfter (before ++ gap)⟩ :: lexemes)

/-! ### The characters of spellings -/

theorem isAlphanum_of_isDigit {c : Char} (h : c.isDigit = true) : c.isAlphanum = true := by
  simp [Char.isAlphanum, h]

theorem isAlphanum_of_isAlpha {c : Char} (h : c.isAlpha = true) : c.isAlphanum = true := by
  simp [Char.isAlphanum, h]

/-- Words are made of letters and digits. -/
theorem IsWord.isAlphanum {spelling : List Char} (h : IsWord spelling) {c : Char}
    (hc : c ∈ spelling) : c.isAlphanum = true := by
  cases spelling with
  | nil => exact h.elim
  | cons d rest =>
    obtain rfl | hrest := List.mem_cons.1 hc
    · exact isAlphanum_of_isAlpha h.1
    · exact h.2 c hrest

/-- All symbols but the period are made of the characters that operators are made of. -/
theorem Symbol.isOperatorChar_of_mem {s : Symbol} (h : s ≠ .period) {c : Char}
    (hc : c ∈ s.text.toList) : Token.isOperatorChar c = true := by
  have hall : s.text.toList.all Token.isOperatorChar = true := by
    revert h
    cases s <;> decide
  exact List.all_eq_true.1 hall c hc

/-- Spellings consist of letters, digits and operator characters. -/
theorem IsSpelling.isAlphanum_or_isOperatorChar {spelling : List Char} (h : IsSpelling spelling)
    {c : Char} (hc : c ∈ spelling) : c.isAlphanum = true ∨ Token.isOperatorChar c = true := by
  cases h with
  | numeral h => exact .inl (isAlphanum_of_isDigit (h.2 c hc))
  | word h => exact .inl (h.isAlphanum hc)
  | symbol h => exact .inr (Symbol.isOperatorChar_of_mem h hc)

/-- The period is the one symbol that is no spelling, and it is in none either. -/
theorem IsSpelling.period_not_mem {spelling : List Char} (h : IsSpelling spelling) :
    '.' ∉ spelling :=
  fun hc ↦ absurd (h.isAlphanum_or_isOperatorChar hc) (by decide)

/-- No spelling goes over the end of a line. -/
theorem IsSpelling.newline_not_mem {spelling : List Char} (h : IsSpelling spelling) :
    '\n' ∉ spelling :=
  fun hc ↦ absurd (h.isAlphanum_or_isOperatorChar hc) (by decide)

theorem IsSpelling.ne_nil {spelling : List Char} (h : IsSpelling spelling) : spelling ≠ [] := by
  cases h with
  | numeral h => exact h.1
  | word h => exact fun hnil ↦ (hnil ▸ h : IsWord [])
  | @symbol s _ => exact s.toList_text_ne_nil

/-- A period is not delivered as a token. It ends the text. -/
theorem Denotes.ne_period {spelling : List Char} {token : Token} (h : Denotes spelling token) :
    token ≠ .symbol .period := by
  rintro rfl
  cases h with
  | symbol h => exact h rfl

/-- The end mark has no spelling. -/
theorem Denotes.ne_eof {spelling : List Char} {token : Token} (h : Denotes spelling token) :
    token ≠ .eof := by
  rintro rfl
  cases h

/-! ### Tails

No spelling holds a full stop. What comes after a full stop is therefore out of the reach of every
spelling in front of it.
-/

/-- A text without the character `c` is in front of another one exactly if it is in front of what
that has before its first `c`. -/
theorem isPrefix_append_cons {c : Char} {front : List Char} (h : c ∉ front)
    (text rest : List Char) : front <+: text ++ c :: rest ↔ front <+: text := by
  induction front generalizing text with
  | nil => simp
  | cons d front ih =>
    obtain ⟨hd, hfront⟩ := not_or.1 (mt List.mem_cons.2 h)
    cases text with
    | nil => simp [List.cons_prefix_cons, Ne.symm hd]
    | cons e text => simp [List.cons_prefix_cons, ih hfront]

/-- Of what follows, a gap depends on the first character only: this is where a comment has to end.
-/
theorem IsGap.of_head? {rest rest' gap : List Char} (hrest : rest.head? = rest'.head?)
    (h : IsGap rest gap) : IsGap rest' gap := by
  induction h with
  | nil => exact .nil
  | whiteSpace hc _ ih => exact .whiteSpace hc ih
  | comment hbody hend _ ih =>
    rw [List.head?_append, hrest, ← List.head?_append] at hend
    exact .comment hbody hend ih

/-- Nothing after the full stop in front of a tail has any influence. -/
theorem Lexed.replace_tail {before text t : List Char} {lexemes : List Lexeme}
    (h : Lexed before text ('.' :: t) lexemes) :
    ∃ front, text = front ++ '.' :: t ∧
      ∀ t', Lexed before (front ++ '.' :: t') ('.' :: t') lexemes := by
  generalize htail : '.' :: t = tail at h
  induction h with
  | @tail before gap tail hgap _ =>
    subst htail
    have hhead : ∀ t', ('.' :: t).head? = ('.' :: t').head? := fun _ ↦ rfl
    exact ⟨gap, rfl, fun t' ↦ .tail (hgap.of_head? (hhead t')) (by simp)⟩
  | @token before gap spelling rest tail token lexemes hgap hcomment hlongest hdenotes hfollow _
      ih =>
    subst htail
    obtain ⟨front, rfl, hfront⟩ := ih rfl
    refine ⟨gap ++ (spelling ++ front), by simp, fun t' ↦ ?_⟩
    -- the first character behind the spelling is the period or one in front of it
    have hhead : (front ++ '.' :: t).head? = (front ++ '.' :: t').head? := by
      simp [List.head?_append]
    have hassoc : ∀ tail, gap ++ (spelling ++ front) ++ '.' :: tail =
        gap ++ (spelling ++ (front ++ '.' :: tail)) := by simp
    rw [hassoc]
    rw [← List.append_assoc, isPrefix_append_cons (by decide)] at hcomment
    refine .token (hgap.of_head? ?_) ?_ ⟨hlongest.isSpelling, fun other hother hfront ↦ ?_⟩
      hdenotes (hhead ▸ hfollow) (hfront t')
    · rw [List.head?_append, hhead, ← List.head?_append]
    · rwa [← List.append_assoc, isPrefix_append_cons (by decide)]
    · refine hlongest.longest other hother ?_
      rw [← List.append_assoc, isPrefix_append_cons hother.period_not_mem] at hfront ⊢
      exact hfront

end Lexis

end TinyProc
