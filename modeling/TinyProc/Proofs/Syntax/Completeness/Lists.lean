import TinyProc.Proofs.Sequencing
import TinyProc.Proofs.Syntax.Grammar
import TinyProc.Proofs.Syntax.Steps

/-!
# Reading what the grammar derives: tokens and lists

The converse of recognition begins here: what the grammar derives is read by the parsers, and read
as what it means. `Reads x c a follow` says that `x` reads the list `c` as `a` wherever it stands in
front of something that `follow` holds of. Parsers are greedy, and the condition on what follows is
what keeps them from reading on; it grows out of `take?`, which leaves a token only if it is not
there.
-/

namespace TinyProc.Parser

open Grammar

variable {α β : Type} {x : Parser α} {c c' : List Lexeme} {a : α}
variable {follow follow' : List Lexeme → Prop}

/-- A parser that reads a list as something, in front of whatever `follow` holds of. -/
def Reads (x : Parser α) (c : List Lexeme) (a : α) (follow : List Lexeme → Prop) : Prop :=
  ∀ rest j, follow rest → ∃ j', x ⟨c ++ rest, j⟩ = .ok a ⟨rest, j'⟩

/-- Whatever follows. -/
def Anything (_ : List Lexeme) : Prop :=
  True

namespace Reads

/-- What is read in front of more is read in front of less. -/
theorem weaken (h : Reads x c a follow) (hfollow : ∀ rest, follow' rest → follow rest) :
    Reads x c a follow' :=
  fun rest j hrest ↦ h rest j (hfollow rest hrest)

theorem pure (a : α) : Reads (pure a) [] a follow :=
  fun _ j _ ↦ ⟨j, rfl⟩

theorem note (e : Event) : Reads (note e) [] () follow :=
  fun _ _ _ ↦ ⟨_, rfl⟩

/-- A sequence reads one list after the other. The first may stand in front of the second. -/
theorem bind {f : α → Parser β} {b : β} (hx : Reads x c a follow) (hf : Reads (f a) c' b follow')
    (hfollow : ∀ rest, follow' rest → follow (c' ++ rest)) :
    Reads (x >>= f) (c ++ c') b follow' := by
  intro rest j hrest
  obtain ⟨j₁, hstep⟩ := hx (c' ++ rest) j (hfollow rest hrest)
  obtain ⟨j₂, hlast⟩ := hf rest j₁ hrest
  rw [List.append_assoc]
  exact ⟨j₂, (bind_of_ok hstep).trans hlast⟩

/-- A sequence where anything may follow the first list. -/
theorem andThen {f : α → Parser β} {b : β} (hx : Reads x c a Anything)
    (hf : Reads (f a) c' b follow') : Reads (x >>= f) (c ++ c') b follow' :=
  hx.bind hf fun _ _ ↦ trivial

/-- A sequence whose second step reads nothing. -/
theorem map {f : α → Parser β} {b : β} (hx : Reads x c a follow) (hf : Reads (f a) [] b follow) :
    Reads (x >>= f) c b follow := by
  have hseq := hx.bind hf fun _ hrest ↦ hrest
  rwa [List.append_nil] at hseq

/-- A parser that passes a token and leaves the rest to another one. -/
theorem cons {t : Lexeme} {x' : Parser α} (h : Reads x c a follow)
    (hx' : ∀ ts j, x' ⟨t :: ts, j⟩ = x ⟨ts, j⟩) : Reads x' (t :: c) a follow := by
  intro rest j hrest
  obtain ⟨j', hread⟩ := h rest j hrest
  exact ⟨j', (hx' (c ++ rest) j).trans hread⟩

/-- A loop that is given the number of the tokens left, and reads where it is not too small. -/
theorem remaining {f : Nat → Parser α}
    (h : ∀ bound, Reads (f bound) c a (fun rest ↦ follow rest ∧ c.length + rest.length ≤ bound)) :
    Reads (remaining >>= f) c a follow := by
  intro rest j hrest
  refine h (c ++ rest).length rest j ⟨hrest, ?_⟩
  exact Nat.le_of_eq List.length_append.symm

end Reads

/-! ### Single tokens -/

/-- A required token is read in front of anything, since nothing can extend it. -/
theorem expect_reads (token : Token) (line : Nat) :
    Reads (expect token) [⟨token, line⟩] line Anything := by
  intro rest j _
  refine ⟨j, ?_⟩
  rw [List.singleton_append, expect_cons, if_pos rfl]

theorem identifier_reads {name : String} (h : IsName c name) :
    Reads identifier c name Anything := by
  obtain ⟨line, rfl⟩ := h
  exact fun rest j _ ↦ ⟨j, rfl⟩

theorem take?_reads_some (token : Token) (line : Nat) :
    Reads (take? token) [⟨token, line⟩] (some line) Anything := by
  intro rest j _
  refine ⟨j, ?_⟩
  rw [List.singleton_append, take?_cons, if_pos rfl]

/-- A token that is not there is left, and nothing is consumed. -/
theorem take?_reads_none (token : Token) :
    Reads (take? token) [] none (fun rest ↦ ¬ StartsWith token rest) := by
  intro rest j hrest
  refine ⟨j, ?_⟩
  rcases rest with _ | ⟨⟨found, line⟩, rest⟩
  · rfl
  · rw [List.nil_append, take?_cons, if_neg]
    rintro rfl
    exact hrest ⟨line, rest, rfl⟩

/-- A semicolon is skipped if there is one. If there is none, what follows must not begin with one.
-/
theorem skipSemicolon_reads {semicolon : List Lexeme}
    (h : Optional (.symbol .semicolon) semicolon) :
    Reads skipSemicolon semicolon ()
      (fun rest ↦ semicolon = [] → ¬ StartsWith (.symbol .semicolon) rest) := by
  rcases h with rfl | ⟨line, rfl⟩
  · exact ((take?_reads_none _).weaken fun rest hrest ↦ hrest rfl).map (.pure ())
  · exact ((take?_reads_some _ line).weaken fun _ _ ↦ trivial).map (.pure ())

/-! ### Lists with commas -/

section Lists

variable {n : Nat} {G : List Lexeme → α → Prop} {item : Parser α} {closing : Token} {as : List α}

/-- The closing token ends the list. It must not be a comma, which is looked for first. -/
theorem afterItem_reads_last (others : Parser (List α)) (hne : closing ≠ .symbol .comma) (first : α)
    (line : Nat) : Reads (afterItem others closing first) [⟨closing, line⟩] [first] Anything := by
  intro rest j _
  refine ⟨j, ?_⟩
  rw [List.singleton_append, afterItem_cons, if_neg hne, if_pos rfl]

/-- A comma goes on with the other items. -/
theorem afterItem_reads_comma {others : Parser (List α)} (hothers : Reads others c as follow)
    (first : α) (line : Nat) :
    Reads (afterItem others closing first) (⟨.symbol .comma, line⟩ :: c) (first :: as) follow := by
  have hlist : Reads (others >>= fun rest ↦ pure (first :: rest)) c (first :: as) follow :=
    hothers.map (.pure (first :: as))
  refine hlist.cons fun ts j ↦ ?_
  rw [afterItem_cons, if_pos rfl]

/-- The items of a list are read if each of them is read in front of what may stand behind it. -/
theorem items_reads (hitem : ∀ c a, G c a → c.length ≤ n → Reads item c a follow)
    (hcomma : ∀ line rest, follow (⟨.symbol .comma, line⟩ :: rest))
    (hclosing : ∀ line rest, follow (⟨closing, line⟩ :: rest)) (hne : closing ≠ .symbol .comma)
    (h : Items G closing c as) (hn : c.length ≤ n) (bound : Nat) :
    Reads (items item closing bound) c as (fun rest ↦ c.length + rest.length ≤ bound) := by
  induction h generalizing bound with
  | @last c a line ha =>
    intro rest j hrest
    rw [List.length_append, List.length_singleton] at hn hrest
    obtain ⟨bound, rfl⟩ : ∃ b, bound = b + 1 := ⟨bound - 1, by omega⟩
    have hlast := afterItem_reads_last (items item closing bound) hne a line
    rw [items_succ]
    exact (hitem c a ha (by omega)).bind hlast (fun rest _ ↦ hclosing line rest) rest j trivial
  | @cons c c' a as line ha _ ih =>
    intro rest j hrest
    rw [List.length_append, List.length_cons] at hn hrest
    obtain ⟨bound, rfl⟩ : ∃ b, bound = b + 1 := ⟨bound - 1, by omega⟩
    -- an item and the comma behind it have been taken, so one round less is enough
    have hothers := ih (by omega) bound
    rw [items_succ]
    exact (hitem c a ha (by omega)).bind (afterItem_reads_comma hothers a line)
      (fun rest _ ↦ hcomma line (c' ++ rest)) rest j (by omega)

/-- A list is read in front of anything, since its last token closes it. That an item never begins
with this token tells a list with items from the empty one. -/
theorem commaList_reads (hitem : ∀ c a, G c a → c.length ≤ n → Reads item c a follow)
    (hcomma : ∀ line rest, follow (⟨.symbol .comma, line⟩ :: rest))
    (hclosing : ∀ line rest, follow (⟨closing, line⟩ :: rest)) (hne : closing ≠ .symbol .comma)
    (hhead : ∀ c a, G c a → ∃ found c', c = found :: c' ∧ found.token ≠ closing)
    (h : CommaList G closing c as) (hn : c.length ≤ n) :
    Reads (commaList item closing) c as Anything := by
  cases h with
  | empty line => exact (take?_reads_some closing line).andThen (.pure [])
  | filled h =>
    have hitems : Reads (do items item closing (← remaining)) c as Anything :=
      .remaining fun bound ↦ (items_reads hitem hcomma hclosing hne h hn bound).weaken
        fun _ hrest ↦ hrest.2
    refine Reads.bind (take?_reads_none closing) hitems fun rest _ ↦ ?_
    -- the first token belongs to an item, so that the list is not taken for an empty one
    obtain ⟨found, c', rfl, hfound⟩ : ∃ found c', c = found :: c' ∧ found.token ≠ closing := by
      cases h with
      | last line ha =>
        obtain ⟨found, c', rfl, hfound⟩ := hhead _ _ ha
        exact ⟨found, _, rfl, hfound⟩
      | cons line ha _ =>
        obtain ⟨found, c', rfl, hfound⟩ := hhead _ _ ha
        exact ⟨found, _, rfl, hfound⟩
    exact not_startsWith_cons hfound

end Lists

end TinyProc.Parser
