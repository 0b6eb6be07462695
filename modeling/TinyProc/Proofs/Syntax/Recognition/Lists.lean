import TinyProc.Proofs.Syntax.Recognition.Basic
import TinyProc.Proofs.Syntax.Steps

/-!
# Tokens and lists are recognised

The parsers that everything else is made of: one token, a token that may be missing, and a list with
commas. The list is the first loop. It is followed along its bound, and the bound is of no account
as long as the stream is not longer than it says.
-/

namespace TinyProc.Parser

open Grammar

variable {α : Type} {n : Nat} {G : List Lexeme → α → Prop}

/-! ### Single tokens -/

/-- One token and no other. Where another stands, what comes before it is empty, and can be
completed by the token. -/
theorem expect_recognises (token : Token) :
    Recognises n (fun c line ↦ c = [⟨token, line⟩]) (expect token) (fun _ ↦ expect token) := by
  have hproductive : ∃ c line, c = [(⟨token, line⟩ : Lexeme)] := ⟨_, 0, rfl⟩
  refine .of_head hproductive (fun _ ↦ hproductive) fun found ts j _ ↦ ?_
  rw [expect_cons]
  split
  · rename_i htoken
    subst htoken
    refine .token rfl fun _ ts' ↦ ?_
    rw [expect_cons, if_pos rfl]
  · rename_i htoken
    refine .failAt hproductive fun _ ts' ↦ ⟨⟨ts', j⟩, ?_⟩
    rw [expect_cons, if_neg htoken]

/-- Any name, whatever its line. -/
theorem identifier_recognises : Recognises n IsName identifier (fun _ ↦ identifier) := by
  have hproductive : ∃ c name, IsName c name := ⟨_, "", 0, rfl⟩
  refine .of_head hproductive (fun _ ↦ hproductive) fun ⟨token, line⟩ ts j _ ↦ ?_
  cases token with
  | identifier name => exact .token ⟨line, rfl⟩ fun _ _ ↦ rfl
  | integer _ | keyword _ | symbol _ | layout _ | eof =>
    exact .failAt hproductive fun _ ts' ↦ ⟨⟨ts', j⟩, rfl⟩

/-- A token that is taken or left, with the line that is returned. -/
def Taken (token : Token) (c : List Lexeme) : Option Nat → Prop
  | none => c = []
  | some line => c = [⟨token, line⟩]

/-- The token or nothing; this parser has no error. -/
theorem take?_recognises (token : Token) :
    Recognises n (Taken token) (take? token) (fun _ ↦ take? token) := by
  refine .of_head ⟨[], none, rfl⟩ (fun _ ↦ .nothing_nil rfl fun _ ↦ rfl) fun found ts j _ ↦ ?_
  rw [take?_cons]
  split
  · rename_i htoken
    subst htoken
    refine .token rfl fun _ ts' ↦ ?_
    rw [take?_cons, if_pos rfl]
  · rename_i htoken
    refine .nothing_cons rfl fun _ ts' ↦ ?_
    rw [take?_cons, if_neg htoken]

/-- **A token decides.** A parser that takes a token or leaves it, and goes on in two ways. -/
theorem take?_andThen_recognises {β : Type} {token : Token} {left : List Lexeme → β → Prop}
    {taken : Nat → List Lexeme → β → Prop} {f : Option Nat → Parser β}
    {g : Nat → Option Nat → Parser β}
    (hleft : Recognises n left (f none) (fun m ↦ g m none))
    (htaken : ∀ line, Recognises n (taken line) (f (some line)) (fun m ↦ g m (some line))) :
    Recognises n (fun c b ↦ left c b ∨ ∃ line c', c = ⟨token, line⟩ :: c' ∧ taken line c' b)
      (take? token >>= f) (fun m ↦ take? token >>= g m) := by
  refine ((take?_recognises token).andThen
    (H := fun line? c b ↦ line?.elim (left c b) fun line ↦ taken line c b) fun line? ↦ ?_).imp ?_
  · cases line? with
    | none => exact hleft
    | some line => exact htaken line
  · rintro c b ⟨c₁, line?, c₂, rfl, hc₁, h⟩
    cases line? with
    | none =>
      obtain rfl : c₁ = [] := hc₁
      exact .inl h
    | some line =>
      obtain rfl : c₁ = [⟨token, line⟩] := hc₁
      exact .inr ⟨line, c₂, rfl, h⟩

/-- A semicolon is optional and leaves no trace in the tree. -/
theorem skipSemicolon_recognises :
    Recognises n (fun c _ ↦ Optional (.symbol .semicolon) c) skipSemicolon
      (fun _ ↦ skipSemicolon) := by
  refine (take?_andThen_recognises (.pure ()) fun _ ↦ .pure ()).imp ?_
  rintro c _ (⟨rfl, -⟩ | ⟨line, _, rfl, rfl, -⟩)
  · exact .inl rfl
  · exact .inr ⟨line, rfl⟩

/-! ### Lists with commas -/

variable {item item' : Parser α} {closing : Token}

/-- What is taken after an item. -/
inductive AfterItem (G : List Lexeme → α → Prop) (closing : Token) (first : α) :
    List Lexeme → List α → Prop
  | last (line : Nat) : AfterItem G closing first [⟨closing, line⟩] [first]
  | comma {c : List Lexeme} {as : List α} (line : Nat) :
    Items G closing c as → AfterItem G closing first (⟨.symbol .comma, line⟩ :: c) (first :: as)

/-- An item and what is taken after it are items of the list. -/
theorem items_of_afterItem {c c' : List Lexeme} {a : α} {as : List α} (ha : G c a)
    (h : AfterItem G closing a c' as) : Items G closing (c ++ c') as := by
  cases h with
  | last line => exact .last line ha
  | comma line h => exact .cons line ha h

/-- After an item only a comma or the closing token is viable, and the first of them leads back to
the items with a bound that is less by one. -/
theorem afterItem_recognises {others : Parser (List α)} {others' : Nat → Parser (List α)}
    (hothers : Recognises (n - 1) (Items G closing) others others') (first : α) :
    Recognises n (AfterItem G closing first) (afterItem others closing first)
      (fun m ↦ afterItem (others' (m - 1)) closing first) := by
  have hproductive : ∃ c as, AfterItem G closing first c as := ⟨_, _, .last 0⟩
  refine .of_head hproductive (fun _ ↦ hproductive) fun ⟨token, line⟩ ts j hts ↦ ?_
  rw [afterItem_cons]
  split
  · rename_i hcomma
    obtain rfl : token = .symbol .comma := hcomma
    have hrest := (hothers.andThen fun rest ↦ .pure (first :: rest)).explained ts j (by omega)
    refine (hrest.imp ?_).shift fun m ts' ↦ ?_
    · rintro c as ⟨c', others, c'', rfl, hc', rfl, rfl⟩
      rw [List.append_nil]
      exact .comma line hc'
    · rw [afterItem_cons, if_pos rfl, Nat.add_sub_cancel]
  · rename_i hcomma
    split
    · rename_i hclosing
      obtain rfl : token = closing := hclosing
      refine .token (.last line) fun m ts' ↦ ?_
      rw [afterItem_cons, if_neg hcomma, if_pos rfl]
    · rename_i hclosing
      refine .failAt hproductive fun m ts' ↦ ⟨⟨ts', j⟩, ?_⟩
      rw [afterItem_cons, if_neg hcomma, if_neg hclosing]

/-- **The loop over items**, by induction on its bound, which the tokens of the stream do not
exceed. -/
theorem items_recognises (hitem : ∀ n, Recognises n G item (fun _ ↦ item')) (bound : Nat)
    (hn : n ≤ bound) :
    Recognises n (Items G closing) (items item closing bound) (items item' closing) := by
  have hproductive : ∃ c as, Items G closing c as := by
    obtain ⟨c, a, ha⟩ := (hitem 0).productive
    exact ⟨_, [a], .last 0 ha⟩
  induction bound generalizing n with
  | zero => exact .of_head hproductive (fun _ ↦ hproductive) fun _ _ _ hts ↦ by omega
  | succ bound ih =>
    -- only a comma leads to more items, and it is one token less for them
    have hothers := ih (n := n - 1) (by omega)
    rw [items_succ]
    refine (((hitem n).andThen fun first ↦ afterItem_recognises hothers first).imp ?_).congr ?_
    · rintro c as ⟨c₁, a, c₂, rfl, ha, hrest⟩
      exact items_of_afterItem ha hrest
    · intro m ts j hts hnil
      cases m with
      | zero =>
        -- a list has a token at least, the one that closes it
        obtain ⟨as, has⟩ := hnil (List.eq_nil_of_length_eq_zero (by omega))
        exact absurd rfl has.ne_nil
      | succ m => rfl

/-- A list that is closed at once is empty, and every other one has an item. Either is told by the
first token. -/
theorem commaList_recognises (hitem : ∀ n, Recognises n G item (fun _ ↦ item')) :
    Recognises n (CommaList G closing) (commaList item closing)
      (fun _ ↦ commaList item' closing) := by
  have hitems : Recognises n (Items G closing) (do items item closing (← remaining))
      (fun _ ↦ do items item' closing (← remaining)) :=
    .remaining fun m ↦ items_recognises hitem m (Nat.le_refl m)
  refine (take?_andThen_recognises hitems fun _ ↦ .pure []).imp ?_
  rintro c as (h | ⟨line, _, rfl, rfl, rfl⟩)
  · exact .filled h
  · exact .empty line

end TinyProc.Parser
