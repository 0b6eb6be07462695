import TinyProc.Proofs.Token.Scanning

/-!
# Scanning undoes rendering

A list of tokens is written with a separator in front of it and one behind each of its tokens. If
the separators behind the tokens start with white space, the text is scanned into the same tokens,
each on the line of its place (`lexed_render`). White space is all that is needed: no spelling holds
any, so that none reaches over the end of its token, `/` does not start a comment, and every token
may be followed by it.

What scanning delivers is a list of tokens that can be written, on lines that never decrease, and
the end of the input. Such a list can be laid out with a space behind every token and with as many
line breaks as the lines ask for. This text is scanned into the list again (`placed_spaced`).
-/

namespace TinyProc

open Lexis

/-! ### Tokens that can be written -/

/-- The tokens that can be written: numbers without a sign, names, keywords, and all symbols but the
full stop. -/
def Token.IsRenderable : Token → Prop
  | .integer value => 0 ≤ value.val
  | .identifier name => IsName name
  | .keyword _ => True
  | .symbol s => s ≠ .period
  | .layout _ | .eof => False

instance (name : String) : Decidable (IsName name) :=
  decidable_of_iff (IsWord name.toList ∧ ∀ k ∈ Keyword.all, k.isSpelled name = false)
    (and_congr_right fun _ ↦ ⟨fun h k ↦ h k k.mem_all, fun h k _ ↦ h k⟩)

instance : DecidablePred Token.IsRenderable
  | .integer value => inferInstanceAs (Decidable (0 ≤ value.val))
  | .identifier name => inferInstanceAs (Decidable (IsName name))
  | .keyword _ => inferInstanceAs (Decidable True)
  | .symbol s => inferInstanceAs (Decidable (s ≠ .period))
  | .layout _ => inferInstanceAs (Decidable False)
  | .eof => inferInstanceAs (Decidable False)

theorem Decimal.isNumeral_ofNat (n : Nat) : IsNumeral (ofNat n).toList := by
  rw [ofNat, String.toList_ofList]
  exact ⟨Nat.toDigits_ne_nil, fun _ hc ↦ Nat.isDigit_of_mem_toDigits (by decide) (by decide) hc⟩

/-- A token that can be written is denoted by its text. -/
theorem Token.IsRenderable.denotes {token : Token} (h : token.IsRenderable) :
    Denotes token.text.toList token := by
  cases token with
  | integer value =>
    obtain ⟨n, hn⟩ : ∃ n : Nat, value.val = n := Int.eq_ofNat_of_zero_le h
    have htext : (Token.integer value).text = Decimal.ofNat n := by
      show Decimal.ofInt value.val = _
      rw [hn, Decimal.ofInt_natCast]
    rw [htext]
    refine .integer (Decimal.isNumeral_ofNat n) ?_
    rw [hn, Decimal.ofNat, String.toList_ofList, Decimal.value_toDigits]
  | identifier name => exact .identifier h
  | keyword k => exact .keyword (Keyword.isSpelled_iff.2 List.mem_cons_self)
  | symbol s => exact .symbol h
  | layout l => exact h.elim
  | eof => exact h.elim

/-- Whatever is denoted by some spelling can be written. -/
theorem Lexis.Denotes.isRenderable {spelling : List Char} {token : Token}
    (h : Denotes spelling token) : token.IsRenderable := by
  cases h with
  | @integer _ value _ hvalue =>
    show 0 ≤ value.val
    exact hvalue ▸ Int.natCast_nonneg _
  | keyword _ => exact trivial
  | identifier h => exact h
  | symbol h => exact h

theorem Lexis.Denotes.isSpelling {spelling : List Char} {token : Token}
    (h : Denotes spelling token) : IsSpelling spelling := by
  cases h with
  | integer h _ => exact .numeral h
  | keyword h => exact .word (Keyword.isWord_of_isSpelled h)
  | identifier h => exact .word h.1
  | symbol h => exact .symbol h

/-! ### Separators -/

/-- White space and comments, each comment with the line break that ends it. -/
inductive IsSeparator : List Char → Prop
  | nil : IsSeparator []
  | whiteSpace {c : Char} {gap : List Char} (hc : c ∈ [' ', '\t', '\r', '\n'])
      (hgap : IsSeparator gap) : IsSeparator (c :: gap)
  | comment {body gap : List Char} (hbody : '\n' ∉ body) (hgap : IsSeparator gap) :
      IsSeparator ('/' :: '/' :: (body ++ '\n' :: gap))

/-- A separator is a gap, whatever comes after it. -/
theorem IsSeparator.isGap {gap : List Char} (h : IsSeparator gap) (rest : List Char) :
    IsGap rest gap := by
  induction h with
  | nil => exact .nil
  | whiteSpace hc _ ih => exact .whiteSpace hc ih
  | comment hbody _ ih =>
    refine .comment hbody ?_ (.whiteSpace (by decide) ih)
    rintro c ⟨rfl⟩
    rfl

/-- White space is no part of a spelling. -/
theorem Lexis.IsSpelling.whiteSpace_not_mem {spelling : List Char} (h : IsSpelling spelling)
    {c : Char} (hc : c ∈ [' ', '\t', '\r', '\n']) : c ∉ spelling := by
  intro hmem
  have hspelling := h.isAlphanum_or_isOperatorChar hmem
  simp only [List.mem_cons, List.not_mem_nil, or_false] at hc
  rcases hc with rfl | rfl | rfl | rfl <;> exact absurd hspelling (by decide)

/-! White space decides what stands in front of it. -/

section BeforeWhiteSpace

variable {spelling rest : List Char} {c : Char}

/-- In front of white space every spelling is the longest one, since none holds any. -/
theorem Lexis.IsSpelling.isLongest (h : IsSpelling spelling)
    (hc : c ∈ [' ', '\t', '\r', '\n']) : IsLongest spelling (c :: rest) where
  isSpelling := h
  longest other hother hfront := by
    rw [isPrefix_append_cons (hother.whiteSpace_not_mem hc)] at hfront
    exact hfront.length_le

/-- A spelling does not start a comment. -/
theorem Lexis.IsSpelling.not_comment (h : IsSpelling spelling)
    (hc : c ∈ [' ', '\t', '\r', '\n']) : ¬ ['/', '/'] <+: spelling ++ c :: rest := by
  have hslash : '/' ≠ c := by
    rintro rfl
    exact absurd hc (by decide)
  rw [isPrefix_append_cons (by simpa using hslash.symm)]
  rintro ⟨tail, rfl⟩
  -- two slashes are neither digits nor letters, and no symbol starts with them
  obtain ⟨hdigit, -⟩ | ⟨halpha, -⟩ | ⟨-, s, -, hs⟩ := h.cases_head
  · exact absurd hdigit (by decide)
  · exact absurd halpha (by decide)
  · revert hs
    cases s <;> simp [Symbol.text]

end BeforeWhiteSpace

/-! ### Rendering -/

/-- A token and the separator behind it. -/
structure Piece where
  /-- The token. -/
  token : Token
  /-- The text between it and the next token, or the end. -/
  gap : List Char

/-- The token can be written, and the text behind it is a separator that starts with white space. -/
structure Piece.IsWritable (piece : Piece) : Prop where
  /-- The token can be written. -/
  isRenderable : piece.token.IsRenderable
  /-- What stands behind it is a separator. -/
  isSeparator : IsSeparator piece.gap
  /-- It starts with white space. -/
  startsBlank : ∃ c ∈ piece.gap.head?, c ∈ [' ', '\t', '\r', '\n']

/-- The text of pieces behind a separator, each token written by its text. -/
def render (gap : List Char) : List Piece → List Char
  | [] => gap
  | piece :: rest => gap ++ (piece.token.text.toList ++ render piece.gap rest)

/-- The tokens of pieces behind a separator, which itself comes after `before`: each on the line of
its place, and the end of the input behind the last separator. -/
def placed (before gap : List Char) : List Piece → List Lexeme
  | [] => [⟨.eof, lineAfter (before ++ gap)⟩]
  | piece :: rest =>
    ⟨piece.token, lineAfter (before ++ gap)⟩ ::
      placed (before ++ gap ++ piece.token.text.toList) piece.gap rest

theorem head?_render {gap : List Char} {c : Char} (h : c ∈ gap.head?) (pieces : List Piece) :
    ∃ rest, render gap pieces = c :: rest := by
  obtain ⟨gap', rfl⟩ := List.head?_eq_some_iff.1 h
  cases pieces with
  | nil => exact ⟨gap', rfl⟩
  | cons piece rest => exact ⟨_, rfl⟩

/-- A text that has been rendered is made of its tokens. -/
theorem lexed_render {gap : List Char} {pieces : List Piece} (hgap : IsSeparator gap)
    (hpieces : ∀ piece ∈ pieces, piece.IsWritable) (before : List Char) :
    Lexed before (render gap pieces) [] (placed before gap pieces) := by
  induction pieces generalizing before gap with
  | nil =>
    have htail : Lexed before (gap ++ []) [] _ := .tail (hgap.isGap []) (by simp)
    rwa [List.append_nil] at htail
  | cons piece rest ih =>
    obtain ⟨hpiece, hrest⟩ := List.forall_mem_cons.1 hpieces
    -- behind the token stands white space, which no spelling takes in
    obtain ⟨c, hhead, hc⟩ := hpiece.startsBlank
    have hdenotes := hpiece.isRenderable.denotes
    have htokens := ih hpiece.isSeparator hrest (before ++ gap ++ piece.token.text.toList)
    obtain ⟨text, htext⟩ := head?_render hhead rest
    rw [htext] at htokens
    rw [render, placed, htext]
    refine .token (hgap.isGap _) (hdenotes.isSpelling.not_comment hc)
      (hdenotes.isSpelling.isLongest hc) hdenotes ?_ htokens
    rintro d ⟨rfl⟩
    exact .whiteSpace hc

/-- What is rendered is scanned, each token on the line of its place. -/
theorem tokenize_render {gap : List Char} {pieces : List Piece} (hgap : IsSeparator gap)
    (hpieces : ∀ piece ∈ pieces, piece.IsWritable) :
    tokenize (String.ofList (render gap pieces)) = .ok (placed [] gap pieces) := by
  refine tokenize_eq_ok_iff_lexed.2 ⟨[], ?_⟩
  rw [String.toList_ofList]
  exact lexed_render hgap hpieces []

/-! ### What scanning delivers -/

/-- All tokens but the last can be written, and the last is the end of the input. -/
theorem Lexis.Lexed.exists_front {before text tail : List Char} {lexemes : List Lexeme}
    (h : Lexed before text tail lexemes) :
    ∃ front line, lexemes = front ++ [⟨.eof, line⟩] ∧ ∀ t ∈ front, t.token.IsRenderable := by
  induction h with
  | tail _ _ => exact ⟨[], _, rfl, List.forall_mem_nil _⟩
  | token _ _ _ hdenotes _ _ ih =>
    obtain ⟨front, line, rfl, hfront⟩ := ih
    exact ⟨_ :: front, line, rfl, List.forall_mem_cons.2 ⟨hdenotes.isRenderable, hfront⟩⟩

/-- Lines never decrease, from the line reached before the text on. -/
theorem Lexis.Lexed.lines {before text tail : List Char} {lexemes : List Lexeme}
    (h : Lexed before text tail lexemes) :
    (∀ t ∈ lexemes, lineAfter before ≤ t.line) ∧ lexemes.Pairwise fun a b ↦ a.line ≤ b.line := by
  induction h with
  | @tail before gap _ _ _ =>
    refine ⟨List.forall_mem_singleton.2 ?_, List.pairwise_singleton _ _⟩
    rw [lineAfter_append]
    exact Nat.le_add_right ..
  | @token before gap _ _ _ _ _ _ _ hlongest _ _ _ ih =>
    obtain ⟨hge, hlines⟩ := ih
    rw [lineAfter_append_spelling hlongest.isSpelling] at hge
    have hgap : lineAfter before ≤ lineAfter (before ++ gap) := by
      rw [lineAfter_append]
      exact Nat.le_add_right ..
    refine ⟨List.forall_mem_cons.2 ⟨hgap, fun t ht ↦ Nat.le_trans hgap (hge t ht)⟩, ?_⟩
    exact List.pairwise_cons.2 ⟨hge, hlines⟩

/-! ### Laying out a list of tokens -/

/-- So many line breaks. -/
def lineBreaks (n : Nat) : List Char :=
  List.replicate n '\n'

/-- Behind every token a space, and line breaks up to the line of the next one. -/
def spaced : List Lexeme → List Piece
  | a :: b :: rest => ⟨a.token, ' ' :: lineBreaks (b.line - a.line)⟩ :: spaced (b :: rest)
  | _ => []

/-- A text with these tokens on these lines. -/
def layOut : List Lexeme → String
  | [] => ""
  | first :: rest => String.ofList (render (lineBreaks (first.line - 1)) (spaced (first :: rest)))

theorem isSeparator_lineBreaks (n : Nat) : IsSeparator (lineBreaks n) := by
  induction n with
  | zero => exact .nil
  | succ n ih => exact .whiteSpace (by decide) ih

/-- Line breaks count as what they are. -/
theorem lineAfter_append_lineBreaks (before : List Char) (n : Nat) :
    lineAfter (before ++ lineBreaks n) = lineAfter before + n := by
  rw [lineAfter_append, lineBreaks, List.count_replicate_self]

/-- Tokens that can be rendered can be written with a space behind each. -/
theorem isWritable_spaced {front : List Lexeme} (h : ∀ t ∈ front, t.token.IsRenderable)
    (last : Lexeme) : ∀ piece ∈ spaced (front ++ [last]), piece.IsWritable := by
  have hpiece : ∀ {token : Token}, token.IsRenderable → ∀ n,
      (Piece.mk token (' ' :: lineBreaks n)).IsWritable := fun htoken n ↦
    ⟨htoken, .whiteSpace (by decide) (isSeparator_lineBreaks n), ' ', rfl, by decide⟩
  induction front with
  | nil => exact List.forall_mem_nil _
  | cons a front ih =>
    obtain ⟨ha, hfront⟩ := List.forall_mem_cons.1 h
    obtain ⟨b, rest, hrest⟩ : ∃ b rest, front ++ [last] = b :: rest :=
      List.exists_cons_of_ne_nil (by simp)
    have htail := ih hfront
    rw [hrest] at htail
    rw [List.cons_append, hrest, spaced]
    exact List.forall_mem_cons.2 ⟨hpiece ha _, htail⟩

/-- The tokens are placed where they have been. -/
theorem placed_spaced {first : Lexeme} {rest front : List Lexeme} {line : Nat}
    (h : first :: rest = front ++ [⟨.eof, line⟩]) (hfront : ∀ t ∈ front, t.token.IsRenderable)
    (hlines : (first :: rest).Pairwise fun a b ↦ a.line ≤ b.line) {before gap : List Char}
    (hfirst : lineAfter (before ++ gap) = first.line) :
    placed before gap (spaced (first :: rest)) = first :: rest := by
  induction rest generalizing first front before gap with
  | nil =>
    obtain ⟨rfl, rfl⟩ : front = [] ∧ first = ⟨.eof, line⟩ := by
      cases front with
      | nil => exact ⟨rfl, List.head_eq_of_cons_eq h⟩
      | cons a front => simp at h
    show placed before gap [] = _
    rw [placed, hfirst]
  | cons second rest ih =>
    cases front with
    | nil => simp at h
    | cons a front =>
      obtain ⟨rfl, htail⟩ := List.cons.inj h
      obtain ⟨ha, hfront⟩ := List.forall_mem_cons.1 hfront
      obtain ⟨hle, hlines⟩ := List.pairwise_cons.1 hlines
      have hsecond : first.line ≤ second.line := hle second List.mem_cons_self
      have hline : lineAfter (before ++ gap ++ first.token.text.toList ++
          (' ' :: lineBreaks (second.line - first.line))) = second.line := by
        have hspace := lineAfter_append_lineBreaks
          (before ++ gap ++ first.token.text.toList ++ [' ']) (second.line - first.line)
        rw [List.append_assoc, List.singleton_append, lineAfter_append _ [' '],
          lineAfter_append_spelling ha.denotes.isSpelling, hfirst] at hspace
        rw [hspace]
        show first.line + 0 + _ = _
        omega
      rw [spaced, placed, hfirst, ih htail hfront hlines hline]

/-- A layout is scanned to the list that has been laid out, lines included. -/
theorem tokenize_layOut {lexemes front : List Lexeme} {line : Nat}
    (h : lexemes = front ++ [⟨.eof, line⟩]) (hfront : ∀ t ∈ front, t.token.IsRenderable)
    (hlines : lexemes.Pairwise fun a b ↦ a.line ≤ b.line) (hpos : ∀ t ∈ lexemes, 1 ≤ t.line) :
    tokenize (layOut lexemes) = .ok lexemes := by
  cases lexemes with
  | nil => simp at h
  | cons first rest =>
    have hfirst : lineAfter ([] ++ lineBreaks (first.line - 1)) = first.line := by
      rw [lineAfter_append_lineBreaks]
      exact Nat.add_sub_cancel' (hpos first List.mem_cons_self)
    have hwritable := isWritable_spaced hfront ⟨.eof, line⟩
    rw [← h] at hwritable
    rw [layOut, tokenize_render (isSeparator_lineBreaks _) hwritable,
      placed_spaced h hfront hlines hfirst]

/-- **Scanning undoes rendering.** Tokens that can be written, with any separators between them that
start with white space, are scanned from their text, each on the line of its place. Conversely, what
is scanned from a text are tokens that can be written and the end of the input, on lines that never
decrease, and laid out on these lines they are scanned again. -/
theorem tokenize_undoes_rendering :
    (∀ (gap : List Char) (pieces : List Piece), IsSeparator gap →
      (∀ piece ∈ pieces, piece.IsWritable) →
        tokenize (String.ofList (render gap pieces)) = .ok (placed [] gap pieces)) ∧
    ∀ (source : String) (lexemes : List Lexeme), tokenize source = .ok lexemes →
      (∃ front line, lexemes = front ++ [⟨.eof, line⟩] ∧ ∀ t ∈ front, t.token.IsRenderable) ∧
        (lexemes.Pairwise fun a b ↦ a.line ≤ b.line) ∧ tokenize (layOut lexemes) = .ok lexemes := by
  refine ⟨fun gap pieces ↦ tokenize_render, fun source lexemes h ↦ ?_⟩
  obtain ⟨tail, hlexed⟩ := tokenize_eq_ok_iff_lexed.1 h
  obtain ⟨front, line, hsplit, hfront⟩ := hlexed.exists_front
  obtain ⟨hpos, hlines⟩ := hlexed.lines
  exact ⟨⟨front, line, hsplit, hfront⟩, hlines, tokenize_layOut hsplit hfront hlines hpos⟩

/-- Two slashes with a space between them, a comment behind the second, and a name that is a keyword
but for its case. The other way round, a text whose first line ends in a comment. -/
theorem tokenize_undoes_rendering_slashes :
    tokenize (String.ofList (render "//.\n".toList
      [⟨.symbol .slash, [' ']⟩, ⟨.symbol .slash, "\n//x\n".toList⟩,
        ⟨.integer ⟨9223372036854775807, by decide⟩, ['\r']⟩, ⟨.identifier "iF", ['\n']⟩])) =
      .ok [⟨.symbol .slash, 2⟩, ⟨.symbol .slash, 2⟩,
        ⟨.integer ⟨9223372036854775807, by decide⟩, 4⟩, ⟨.identifier "iF", 4⟩, ⟨.eof, 5⟩] ∧
    tokenize (layOut [⟨.identifier "x", 1⟩, ⟨.symbol .lessEqual, 2⟩, ⟨.eof, 2⟩]) =
      .ok [⟨.identifier "x", 1⟩, ⟨.symbol .lessEqual, 2⟩, ⟨.eof, 2⟩] := by
  have hdot : IsSeparator "//.\n".toList := @IsSeparator.comment ['.'] [] (by decide) .nil
  have hx : IsSeparator "//x\n".toList := @IsSeparator.comment ['x'] [] (by decide) .nil
  refine ⟨(tokenize_undoes_rendering.1 _ _ hdot ?_).trans (by decide +kernel),
    (tokenize_undoes_rendering.2 "x//?\n<=" _ (by decide +kernel)).2.2⟩
  simp only [List.forall_mem_cons, List.not_mem_nil, false_implies, implies_true, and_true]
  exact ⟨⟨by decide, .whiteSpace (by decide) .nil, _, rfl, by decide⟩,
    ⟨by decide, .whiteSpace (by decide) hx, _, rfl, by decide⟩,
    ⟨by decide, .whiteSpace (by decide) .nil, _, rfl, by decide⟩,
    ⟨by decide, .whiteSpace (by decide) .nil, _, rfl, by decide⟩⟩

end TinyProc
