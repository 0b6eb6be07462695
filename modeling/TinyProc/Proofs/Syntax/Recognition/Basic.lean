import TinyProc.Proofs.Sequencing
import TinyProc.Proofs.Syntax.Grammar

/-!
# What parsers recognise

`Recognises n G x y` says three things at once of a parser `x` on streams of at most `n` tokens,
where `G` is a language: a relation between lists of lexemes and what they mean.

* *Soundness.* Where it succeeds, what it has consumed belongs to `G` and means what is returned.
* *Viability.* Where it meets a token that it does not expect, or the end of the stream, what comes
  before can be completed to something in `G`.
* *Locality.* What it does depends on no more than what it consumes and the token after that. The
  parser `y` does the same on every stream that agrees so far.

The three belong together. To know that a list read by two parsers in sequence is viable takes
soundness of the first and viability of the second, and locality of the sequence takes both too. So
there is one lemma about sequences, `Recognises.bind`, and one lemma for each parser.

Locality is about a second parser since the number of levels that a parser may open, and the bound
of its loops, are taken from the length of the stream. A stream that agrees so far may be longer,
and is parsed with more of both. That more levels make no difference is therefore part of what is
said; the exception, that there were too few, is an error that nothing is claimed about. The bounds
are treated in the same way: `y` is a family of parsers, and its member with the index `m` does as
`x` does on streams of at most `m` tokens.
-/

namespace TinyProc.Parser

variable {α β : Type} {n : Nat} {G G' : List Lexeme → α → Prop} {x : Parser α}
variable {y y' : Nat → Parser α} {t : Lexeme} {ts : List Lexeme} {j j' : Journal}
variable {r : EStateM.Result SyntaxError Cursor α}

/-! ### Explained results -/

/-- A list that can be completed. -/
def Viable (G : List Lexeme → α → Prop) (c : List Lexeme) : Prop :=
  ∃ c' a, G (c ++ c') a

/-- What is said about the result of a parser on a stream. -/
def Explained (G : List Lexeme → α → Prop) (y : Nat → Parser α) (ts : List Lexeme)
    (j : Journal) : EStateM.Result SyntaxError Cursor α → Prop
  | .ok a ⟨rest, j'⟩ =>
    ∃ c, ts = c ++ rest ∧ G c a ∧
      ∀ m rest', rest'.head? = rest.head? → c.length + rest'.length ≤ m →
        y m ⟨c ++ rest', j⟩ = .ok a ⟨rest', j'⟩
  | .error ⟨.unexpectedToken expected found, line⟩ _ =>
    ∃ c rest, ts = c ++ ⟨found, line⟩ :: rest ∧ Viable G c ∧
      ∀ m rest', c.length + rest'.length < m →
        ∃ stopped, y m ⟨c ++ ⟨found, line⟩ :: rest', j⟩ =
          .error ⟨.unexpectedToken expected found, line⟩ stopped
  | .error ⟨.unexpectedEnd, _⟩ _ => Viable G ts
  | .error _ _ => True

/-- The language of a sequence. The second part depends on what the first one means. -/
def Followed (G : List Lexeme → α → Prop) (H : α → List Lexeme → β → Prop) (c : List Lexeme)
    (b : β) : Prop :=
  ∃ c₁ a c₂, c = c₁ ++ c₂ ∧ G c₁ a ∧ H a c₂ b

theorem Viable.imp {c : List Lexeme} (hG : ∀ c a, G c a → G' c a) (h : Viable G c) :
    Viable G' c := by
  obtain ⟨c', a, ha⟩ := h
  exact ⟨c', a, hG _ _ ha⟩

namespace Explained

theorem imp (hG : ∀ c a, G c a → G' c a) (h : Explained G y ts j r) : Explained G' y ts j r := by
  rcases r with ⟨a, rest, j'⟩ | ⟨⟨cause, line⟩, stopped⟩
  · obtain ⟨c, hts, hc, hy⟩ := h
    exact ⟨c, hts, hG c a hc, hy⟩
  · cases cause with
    | unexpectedToken expected found =>
      obtain ⟨c, rest, hts, hc, hy⟩ := h
      exact ⟨c, rest, hts, hc.imp hG, hy⟩
    | unexpectedEnd => exact Viable.imp hG h
    | duplicateBinding name procedure => trivial
    | nestingTooDeep limit => trivial

/-- Another family will do as well if it does the same on the streams in question: those that begin
with the same token and are not longer than the index says. The empty stream is in question only if
it belongs to the language. -/
theorem congr (h : Explained G y ts j r)
    (hy' : ∀ m ts', ts'.head? = ts.head? → ts'.length ≤ m → (ts' = [] → ∃ a, G [] a) →
      y' m ⟨ts', j⟩ = y m ⟨ts', j⟩) :
    Explained G y' ts j r := by
  rcases r with ⟨a, rest, j'⟩ | ⟨⟨cause, line⟩, stopped⟩
  · obtain ⟨c, rfl, hc, hy⟩ := h
    refine ⟨c, rfl, hc, fun m rest' hhead hm ↦ ?_⟩
    rw [hy' m _ (by simp [List.head?_append, hhead]) (by simpa using hm), hy m rest' hhead hm]
    intro hnil
    rw [(List.append_eq_nil_iff.1 hnil).1] at hc
    exact ⟨a, hc⟩
  · cases cause with
    | unexpectedToken expected found =>
      obtain ⟨c, rest, rfl, hc, hy⟩ := h
      refine ⟨c, rest, rfl, hc, fun m rest' hm ↦ ?_⟩
      rw [hy' m _ (by simp [List.head?_append]) (by rw [List.length_append]; exact hm) (by simp)]
      exact hy m rest' hm
    | unexpectedEnd => exact h
    | duplicateBinding name procedure => trivial
    | nestingTooDeep limit => trivial

/-! What can be done with the first token of a stream: leave it, take it, pass it and go on, or stop
at it. -/

/-- Another family will do as well if it does the same after the first token. -/
theorem congr_cons (h : Explained G y (t :: ts) j r)
    (hy' : ∀ m ts', y' (m + 1) ⟨t :: ts', j⟩ = y (m + 1) ⟨t :: ts', j⟩) :
    Explained G y' (t :: ts) j r := by
  refine h.congr fun m ts' hhead hm _ ↦ ?_
  obtain ⟨ts', rfl⟩ := List.head?_eq_some_iff.1 hhead
  obtain ⟨m, rfl⟩ : ∃ m', m = m' + 1 := ⟨m - 1, by rw [List.length_cons] at hm; omega⟩
  exact hy' m ts'

/-- A parser that consumes nothing. -/
theorem nothing {a : α} (ha : G [] a)
    (hy : ∀ m ts', ts'.head? = ts.head? → ts'.length ≤ m → y m ⟨ts', j⟩ = .ok a ⟨ts', j'⟩) :
    Explained G y ts j (.ok a ⟨ts, j'⟩) := by
  refine ⟨[], rfl, ha, fun m rest' hhead hm ↦ hy m rest' hhead ?_⟩
  rw [List.length_nil, Nat.zero_add] at hm
  exact hm

theorem nothing_nil {a : α} (ha : G [] a) (hy : ∀ m, y m ⟨[], j⟩ = .ok a ⟨[], j'⟩) :
    Explained G y [] j (.ok a ⟨[], j'⟩) := by
  refine nothing ha fun m ts' hhead _ ↦ ?_
  rw [List.head?_nil, List.head?_eq_none_iff] at hhead
  rw [hhead, hy]

theorem nothing_cons {a : α} (ha : G [] a)
    (hy : ∀ m ts', y (m + 1) ⟨t :: ts', j⟩ = .ok a ⟨t :: ts', j'⟩) :
    Explained G y (t :: ts) j (.ok a ⟨t :: ts, j'⟩) := by
  refine nothing ha fun m ts' hhead hm ↦ ?_
  obtain ⟨ts', rfl⟩ := List.head?_eq_some_iff.1 hhead
  obtain ⟨m, rfl⟩ : ∃ m', m = m' + 1 := ⟨m - 1, by rw [List.length_cons] at hm; omega⟩
  exact hy m ts'

/-- A parser that passes a token and leaves the rest to another one. -/
theorem shift (h : Explained (fun c ↦ G (t :: c)) y ts j r)
    (hy' : ∀ m ts', y' (m + 1) ⟨t :: ts', j⟩ = y m ⟨ts', j⟩) : Explained G y' (t :: ts) j r := by
  rcases r with ⟨a, rest, j'⟩ | ⟨⟨cause, line⟩, stopped⟩
  · obtain ⟨c, rfl, hc, hy⟩ := h
    refine ⟨t :: c, rfl, hc, fun m rest' hhead hm ↦ ?_⟩
    rw [List.length_cons] at hm
    obtain ⟨m, rfl⟩ : ∃ m', m = m' + 1 := ⟨m - 1, by omega⟩
    rw [List.cons_append, hy', hy m rest' hhead (by omega)]
  · cases cause with
    | unexpectedToken expected found =>
      obtain ⟨c, rest, rfl, hc, hy⟩ := h
      refine ⟨t :: c, rest, rfl, hc, fun m rest' hm ↦ ?_⟩
      rw [List.length_cons] at hm
      obtain ⟨m, rfl⟩ : ∃ m', m = m' + 1 := ⟨m - 1, by omega⟩
      rw [List.cons_append, hy']
      exact hy m rest' (by omega)
    | unexpectedEnd => exact h
    | duplicateBinding name procedure => trivial
    | nestingTooDeep limit => trivial

/-- A parser that takes one token. -/
theorem token {a : α} (ha : G [t] a)
    (hy : ∀ m ts', y (m + 1) ⟨t :: ts', j⟩ = .ok a ⟨ts', j'⟩) :
    Explained G y (t :: ts) j (.ok a ⟨ts, j'⟩) := by
  refine ⟨[t], rfl, ha, fun m rest' _ hm ↦ ?_⟩
  obtain ⟨m, rfl⟩ : ∃ m', m = m' + 1 := ⟨m - 1, by rw [List.length_singleton] at hm; omega⟩
  exact hy m rest'

/-- A parser that stops at a token. -/
theorem failAt {expected : Expectation} {stopped : Cursor} (hG : ∃ c a, G c a)
    (hy : ∀ m ts', ∃ stopped, y (m + 1) ⟨t :: ts', j⟩ =
      .error ⟨.unexpectedToken expected t.token, t.line⟩ stopped) :
    Explained G y (t :: ts) j (.error ⟨.unexpectedToken expected t.token, t.line⟩ stopped) := by
  refine ⟨[], ts, rfl, hG, fun m rest' hm ↦ ?_⟩
  obtain ⟨m, rfl⟩ : ∃ m', m = m' + 1 := ⟨m - 1, by omega⟩
  exact hy m rest'

/-! In a sequence, what is known about the result comes from the second step if the first one
succeeds, and from the first one if it fails. -/

section Sequences

variable {H : α → List Lexeme → β → Prop} {g : Nat → α → Parser β}

/-- The second step of a sequence, where the first one has taken `c` and `k` tokens at least. -/
theorem after {k : Nat} {a : α} {c rest : List Lexeme} {r : EStateM.Result SyntaxError Cursor β}
    (ha : G c a) (hk : k ≤ c.length)
    (hy : ∀ m rest', rest'.head? = rest.head? → c.length + rest'.length ≤ m →
      y m ⟨c ++ rest', j⟩ = .ok a ⟨rest', j'⟩)
    (h : Explained (H a) (fun m ↦ g (m + k) a) rest j' r) :
    Explained (Followed G H) (fun m ↦ y m >>= g m) (c ++ rest) j r := by
  rcases r with ⟨b, rest₂, j₂⟩ | ⟨⟨cause, line⟩, stopped⟩
  · obtain ⟨c₂, rfl, hb, hg⟩ := h
    refine ⟨c ++ c₂, by simp, ⟨c, a, c₂, rfl, ha, hb⟩, fun m rest' hhead hm ↦ ?_⟩
    rw [List.length_append] at hm
    obtain ⟨m, rfl⟩ : ∃ m', m = m' + k := ⟨m - k, by omega⟩
    have hstep := hy (m + k) (c₂ ++ rest') (by simp [List.head?_append, hhead])
      (by rw [List.length_append]; omega)
    rw [List.append_assoc]
    exact (bind_of_ok hstep).trans (hg m rest' hhead (by omega))
  · cases cause with
    | unexpectedToken expected found =>
      obtain ⟨c₂, rest₂, rfl, ⟨c₃, b, hb⟩, hg⟩ := h
      refine ⟨c ++ c₂, rest₂, by simp, ?_, fun m rest' hm ↦ ?_⟩
      · exact ⟨c₃, b, c, a, c₂ ++ c₃, by simp, ha, hb⟩
      · rw [List.length_append] at hm
        obtain ⟨m, rfl⟩ : ∃ m', m = m' + k := ⟨m - k, by omega⟩
        have hstep := hy (m + k) (c₂ ++ ⟨found, line⟩ :: rest') (by simp [List.head?_append])
          (by rw [List.length_append, List.length_cons]; omega)
        obtain ⟨stopped', hstop⟩ := hg m rest' (by omega)
        rw [List.append_assoc]
        exact ⟨stopped', (bind_of_ok hstep).trans hstop⟩
    | unexpectedEnd =>
      obtain ⟨c₃, b, hb⟩ := h
      exact ⟨c₃, b, c, a, rest ++ c₃, by simp, ha, hb⟩
    | duplicateBinding name procedure => trivial
    | nestingTooDeep limit => trivial

/-- The first step of a sequence, where it fails. The second one has not been reached, but there is
something that can follow all the same. -/
theorem before {e : SyntaxError} {stopped : Cursor} (hH : ∀ a, ∃ c b, H a c b)
    (h : Explained G y ts j (.error e stopped)) :
    Explained (Followed G H) (fun m ↦ y m >>= g m) ts j (.error e stopped) := by
  have hviable : ∀ {c : List Lexeme}, Viable G c → Viable (Followed G H) c := by
    rintro c ⟨c', a, ha⟩
    obtain ⟨c₂, b, hb⟩ := hH a
    exact ⟨c' ++ c₂, b, c ++ c', a, c₂, by simp, ha, hb⟩
  obtain ⟨cause, line⟩ := e
  cases cause with
  | unexpectedToken expected found =>
    obtain ⟨c, rest, hts, hc, hy⟩ := h
    refine ⟨c, rest, hts, hviable hc, fun m rest' hm ↦ ?_⟩
    obtain ⟨stopped', hstop⟩ := hy m rest' hm
    exact ⟨stopped', bind_of_error hstop⟩
  | unexpectedEnd => exact hviable h
  | duplicateBinding name procedure => trivial
  | nestingTooDeep limit => trivial

end Sequences

end Explained

/-! ### Recognising parsers -/

/-- A parser that recognises a language, and a family of parsers that do the same. -/
structure Recognises (n : Nat) (G : List Lexeme → α → Prop) (x : Parser α)
    (y : Nat → Parser α) : Prop where
  /-- The language is not empty. -/
  productive : ∃ c a, G c a
  /-- Every result is explained. -/
  explained : ∀ ts j, ts.length ≤ n → Explained G y ts j (x ⟨ts, j⟩)

namespace Recognises

/-- What the parser refuses for a token, the others refuse for the same token. -/
theorem unexpectedToken {expected : Expectation} {found : Token} {line : Nat} {stopped : Cursor}
    (h : Recognises n G x y) (hts : ts.length ≤ n)
    (hx : x ⟨ts, j⟩ = .error ⟨.unexpectedToken expected found, line⟩ stopped) :
    ∃ stopped', y ts.length ⟨ts, j⟩ =
      .error ⟨.unexpectedToken expected found, line⟩ stopped' := by
  have hexplained := h.explained ts j hts
  rw [hx] at hexplained
  obtain ⟨c, rest, rfl, -, hlocal⟩ := hexplained
  exact hlocal _ rest (by simp)

/-- Parsers are taken apart by the first token. -/
theorem of_head (hG : ∃ c a, G c a) (hnil : ∀ j, Explained G y [] j (x ⟨[], j⟩))
    (hcons : ∀ t ts j, ts.length < n → Explained G y (t :: ts) j (x ⟨t :: ts, j⟩)) :
    Recognises n G x y where
  productive := hG
  explained ts j hts := by
    cases ts with
    | nil => exact hnil j
    | cons t ts => exact hcons t ts j hts

theorem imp (h : Recognises n G x y) (hG : ∀ c a, G c a → G' c a) :
    Recognises n G' x y where
  productive := by
    obtain ⟨c, a, ha⟩ := h.productive
    exact ⟨c, a, hG c a ha⟩
  explained ts j hts := (h.explained ts j hts).imp hG

theorem congr (h : Recognises n G x y)
    (hy' : ∀ m ts j, ts.length ≤ m → (ts = [] → ∃ a, G [] a) → y' m ⟨ts, j⟩ = y m ⟨ts, j⟩) :
    Recognises n G x y' where
  productive := h.productive
  explained ts j hts := (h.explained ts j hts).congr fun m ts' _ hm hnil ↦ hy' m ts' j hm hnil

theorem pure (a : α) :
    Recognises n (fun c b ↦ c = [] ∧ b = a) (pure a) (fun _ ↦ pure a) where
  productive := ⟨[], a, rfl, rfl⟩
  explained _ _ _ := .nothing ⟨rfl, rfl⟩ fun _ _ _ _ ↦ rfl

theorem note (e : Event) :
    Recognises n (fun c _ ↦ c = []) (note e) (fun _ ↦ Parser.note e) where
  productive := ⟨[], (), rfl⟩
  explained _ _ _ := .nothing rfl fun _ _ _ _ ↦ rfl

/-- **Sequences.** What the first step takes counts for the second: where it returns `a` and has
taken `k a` tokens at least, the second step is used on streams that are as much shorter. -/
theorem bind {k : α → Nat} {H : α → List Lexeme → β → Prop} {f : α → Parser β}
    {g : Nat → α → Parser β} (hx : Recognises n G x y) (hk : ∀ c a, G c a → k a ≤ c.length)
    (hf : ∀ a, Recognises (n - k a) (H a) (f a) (fun m ↦ g (m + k a) a)) :
    Recognises n (Followed G H) (x >>= f) (fun m ↦ y m >>= g m) where
  productive := by
    obtain ⟨c₁, a, ha⟩ := hx.productive
    obtain ⟨c₂, b, hb⟩ := (hf a).productive
    exact ⟨c₁ ++ c₂, b, c₁, a, c₂, rfl, ha, hb⟩
  explained ts j hts := by
    have hr := hx.explained ts j hts
    rcases h : x ⟨ts, j⟩ with ⟨a, rest, j'⟩ | ⟨e, stopped⟩
    · rw [h] at hr
      obtain ⟨c, rfl, ha, hy⟩ := hr
      have hlength := hk c a ha
      rw [List.length_append] at hts
      rw [bind_of_ok h]
      exact .after ha hlength hy ((hf a).explained rest j' (by omega))
    · rw [h] at hr
      rw [bind_of_error h]
      exact .before (fun a ↦ (hf a).productive) hr

/-- A sequence where nothing has to be known about how much the first step takes. -/
theorem andThen {H : α → List Lexeme → β → Prop} {f : α → Parser β} {g : Nat → α → Parser β}
    (hx : Recognises n G x y) (hf : ∀ a, Recognises n (H a) (f a) (fun m ↦ g m a)) :
    Recognises n (Followed G H) (x >>= f) (fun m ↦ y m >>= g m) :=
  hx.bind (k := fun _ ↦ 0) (fun _ _ _ ↦ Nat.zero_le _) hf

/-- A loop that is given the number of the tokens left. -/
theorem remaining {f : Nat → Parser α} (hf : ∀ m, Recognises m G (f m) y) :
    Recognises n G (remaining >>= f) (fun _ ↦ Parser.remaining >>= y) where
  productive := (hf 0).productive
  explained ts j _ := by
    have hloop := (hf ts.length).explained ts j (Nat.le_refl _)
    show Explained G _ ts j (f ts.length ⟨ts, j⟩)
    revert hloop
    rcases f ts.length ⟨ts, j⟩ with ⟨a, rest, j'⟩ | ⟨⟨cause, line⟩, stopped⟩
    · rintro ⟨c, rfl, ha, hy⟩
      exact ⟨c, rfl, ha, fun m rest' hhead _ ↦ hy _ rest' hhead (by simp)⟩
    · cases cause with
      | unexpectedToken expected found =>
        rintro ⟨c, rest, rfl, hc, hy⟩
        exact ⟨c, rest, rfl, hc, fun m rest' _ ↦ hy _ rest' (by simp)⟩
      | unexpectedEnd => exact id
      | duplicateBinding name procedure => exact id
      | nestingTooDeep limit => exact id

end Recognises

end TinyProc.Parser
