import TinyProc.Proofs.Syntax.Declarations
import TinyProc.Proofs.Syntax.Nesting

/-!
# Attached reads and semicolons

A read that is attached to a display can be written as a statement of its own behind the display.
`Program.separate` does this with all of them, in blocks and in the bodies of procedures too.

In the text of a program it is a semicolon that makes the difference: `display e; read x` are two
statements, and `display e read x` is one. If a semicolon is put between the two or taken away, then
the program is accepted as before, and it is the same program when reads are separated
(`Parser.parse_respaced`).

Such a place is looked for along the rules of the grammar, starting from a list of lexemes that is
put together from others: the place lies in one of them, or just where they meet
(`Grammar.Place.split`). Where two statements meet, the semicolon can be exchanged. Lists do not
meet like this anywhere else: in front of a block stands a keyword, and between a `display` and the
body of a procedure the keyword of the declaration.
-/

namespace TinyProc

/-! ### Separating reads -/

mutual

/-- The statement, with all reads in it as statements of their own. -/
def Statement.separate : Statement → Block
  | .assign name value line => [.assign name value line]
  | .display value none line => [.display value none line]
  | .display value (some target) line => [.display value none line, .read target]
  | .read target => [.read target]
  | .branch condition thenBlock elseBlock line =>
    [.branch condition (Statement.separateAll thenBlock) (Statement.separateElse elseBlock) line]
  | .loop condition body line => [.loop condition (Statement.separateAll body) line]

/-- The statements of a block, with all reads as statements of their own. -/
def Statement.separateAll : List Statement → Block
  | [] => []
  | s :: rest => s.separate ++ Statement.separateAll rest

/-- A block that may be missing, with all reads as statements of their own. -/
def Statement.separateElse : Option (List Statement) → Option Block
  | none => none
  | some block => some (Statement.separateAll block)

end

namespace Statement

theorem separateAll_cons (s : Statement) (rest : Block) :
    separateAll (s :: rest) = s.separate ++ separateAll rest := by
  rw [separateAll]

/-- Blocks are separated part by part. -/
theorem separateAll_append (a b : Block) :
    separateAll (a ++ b) = separateAll a ++ separateAll b := by
  induction a with
  | nil => rfl
  | cons s rest ih => rw [List.cons_append, separateAll_cons, separateAll_cons, ih,
      List.append_assoc]

theorem separateAll_singleton (s : Statement) : separateAll [s] = s.separate := by
  rw [separateAll_cons, separateAll, List.append_nil]

mutual

/-- A statement that has been separated stays as it is. -/
theorem separateAll_separate : (s : Statement) → separateAll s.separate = s.separate
  | .assign _ _ _ => rfl
  | .display _ none _ => rfl
  | .display _ (some _) _ => rfl
  | .read _ => rfl
  | .branch _ thenBlock elseBlock _ => by
    rw [separate, separateAll_singleton, separate, separateAll_separateAll thenBlock,
      separateElse_separateElse elseBlock]
  | .loop _ body _ => by
    rw [separate, separateAll_singleton, separate, separateAll_separateAll body]

/-- Separating twice is separating once. -/
theorem separateAll_separateAll :
    (block : List Statement) → separateAll (separateAll block) = separateAll block
  | [] => rfl
  | s :: rest => by
    rw [separateAll_cons, separateAll_append, separateAll_separate s,
      separateAll_separateAll rest]

theorem separateElse_separateElse :
    (block? : Option (List Statement)) → separateElse (separateElse block?) = separateElse block?
  | none => rfl
  | some block => by
    rw [separateElse, separateElse, separateAll_separateAll block]

end

end Statement

/-- The procedure with the reads in its body separated. -/
def Procedure.separate (p : Procedure) : Procedure :=
  { p with body := Statement.separateAll p.body }

@[simp] theorem Procedure.separate_separate (p : Procedure) : p.separate.separate = p.separate :=
  congrArg (Procedure.mk p.name p.params p.locals · p.line) (Statement.separateAll_separateAll _)

/-- The program with all reads separated. -/
def Program.separate (p : Program) : Program where
  procedures := p.procedures.map .separate
  statements := Statement.separateAll p.statements

@[simp] theorem Program.separate_separate (p : Program) : p.separate.separate = p.separate := by
  simp [separate, Statement.separateAll_separateAll]

theorem Program.hasDistinctNames_separate {p : Program} :
    p.separate.HasDistinctNames ↔ p.HasDistinctNames :=
  List.forall_mem_map

namespace Grammar

variable {a b c d : List Lexeme} {P Q : List Lexeme → Prop}

/-! ### Places for a semicolon -/

/-- A list that ends in a semicolon is no list that ends otherwise. -/
theorem append_ne_append_semicolon {x y : Lexeme} {line : Nat}
    (hx : x.token ≠ .symbol .semicolon) : a ++ [x] ≠ b ++ [y, ⟨.symbol .semicolon, line⟩] := by
  intro h
  have hlast := congrArg List.getLast? h
  simp only [List.getLast?_append_cons, List.getLast?_singleton, List.getLast?_cons_cons,
    Option.some.injEq] at hlast
  exact hx (congrArg Lexeme.token hlast)

/-- What stands in front of a semicolon, if there is one, can be told from the whole. -/
theorem eq_of_append_optional {x y : Lexeme} {semicolon semicolon' : List Lexeme}
    (hx : x.token ≠ .symbol .semicolon) (hy : y.token ≠ .symbol .semicolon)
    (hsemicolon : Optional (.symbol .semicolon) semicolon)
    (hsemicolon' : Optional (.symbol .semicolon) semicolon')
    (h : a ++ x :: semicolon = b ++ y :: semicolon') : a = b ∧ x = y := by
  rcases hsemicolon with rfl | ⟨line, rfl⟩
  · rcases hsemicolon' with rfl | ⟨line', rfl⟩
    · simpa using List.append_inj' h rfl
    · exact absurd h (append_ne_append_semicolon hx)
  · rcases hsemicolon' with rfl | ⟨line', rfl⟩
    · exact absurd h.symm (append_ne_append_semicolon hy)
    · obtain ⟨rfl, htail⟩ := List.append_inj' h rfl
      exact ⟨rfl, (List.cons.inj htail).1⟩

/-- A place in front of a `read`, behind a token that an expression may end with. -/
structure Place where
  /-- What comes first. -/
  front : List Lexeme
  /-- The lexeme in front of the place. -/
  last : Lexeme
  /-- The line of `read`. -/
  line : Nat
  /-- What stands behind `read`. -/
  back : List Lexeme
  /-- The lexeme in front of the place is neither a keyword nor a semicolon. -/
  last_inExpression : inExpression last.token = true

namespace Place

/-- The whole list, with this at the place. -/
def fill (place : Place) (semicolon : List Lexeme) : List Lexeme :=
  place.front ++ place.last :: (semicolon ++ ⟨.keyword .readKw, place.line⟩ :: place.back)

/-- The same place with more in front of it. -/
def behind (a : List Lexeme) (place : Place) : Place :=
  { place with front := a ++ place.front }

/-- The same place with more behind it. -/
def ahead (place : Place) (b : List Lexeme) : Place :=
  { place with back := place.back ++ b }

@[simp] theorem fill_behind (a : List Lexeme) (place : Place) (semicolon : List Lexeme) :
    (place.behind a).fill semicolon = a ++ place.fill semicolon := by
  simp [fill, behind]

@[simp] theorem fill_ahead (place : Place) (b semicolon : List Lexeme) :
    (place.ahead b).fill semicolon = place.fill semicolon ++ b := by
  simp [fill, ahead]

/-- Where there is a place, there is a read. -/
theorem mentions_read (place : Place) (semicolon : List Lexeme) :
    Mentions (.keyword .readKw) (place.fill semicolon) := by
  simp [fill]

variable {place : Place} {semicolon : List Lexeme}

/-- The token in front of a place ends an expression, so that it is none of the keywords. -/
theorem last_ne {token : Token} (htoken : inExpression token = false) :
    place.last.token ≠ token := by
  rintro rfl
  exact Bool.false_ne_true (htoken.symm.trans place.last_inExpression)

/-- No keyword stands in front of a place. -/
theorem not_behind_keyword {k : Keyword} {line : Nat} {semicolon₁ : List Lexeme}
    (hsemicolon₁ : Optional (.symbol .semicolon) semicolon₁)
    (hsemicolon : Optional (.symbol .semicolon) semicolon) :
    a ++ ⟨.keyword k, line⟩ :: semicolon₁ ≠ place.front ++ place.last :: semicolon := by
  intro h
  obtain ⟨-, hlast⟩ :=
    eq_of_append_optional (by simp) (place.last_ne rfl) hsemicolon₁ hsemicolon h
  exact place.last_ne rfl (congrArg Lexeme.token hlast).symm

/-- What begins like no expression begins in front of the place. -/
theorem front_eq_cons {found : Lexeme} (h : place.fill semicolon = found :: c)
    (hfound : inExpression found.token = false) : ∃ front, place.front = found :: front := by
  obtain ⟨front, last, line, back, hlast⟩ := place
  cases front with
  | nil =>
    obtain ⟨rfl, -⟩ := List.cons.inj h
    exact absurd (hfound.symm.trans hlast) Bool.false_ne_true
  | cons found' front =>
    obtain ⟨rfl, -⟩ := List.cons.inj h
    exact ⟨front, rfl⟩

/-- If a list is put together from two, then the `read` of a place is in one of them. -/
theorem split_read (h : place.fill semicolon = a ++ b) :
    (∃ inner : Place, place = inner.ahead b ∧ a = inner.fill semicolon) ∨
      ∃ b', place.front ++ place.last :: semicolon = a ++ b' ∧
        b = b' ++ ⟨.keyword .readKw, place.line⟩ :: place.back := by
  obtain ⟨front, last, line, back, hlast⟩ := place
  have hread : (front ++ last :: semicolon) ++ ⟨.keyword .readKw, line⟩ :: back = a ++ b := by
    simpa [fill] using h
  obtain ⟨a', rfl, htail⟩ | hfront := List.append_eq_append_iff.1 hread
  · cases a' with
    | nil => exact .inr ⟨[], by simp, htail.symm⟩
    | cons _ a' =>
      obtain ⟨rfl, rfl⟩ := List.cons.inj htail
      exact .inl ⟨⟨front, last, line, a', hlast⟩, rfl, by simp [fill]⟩
  · exact .inr hfront

/-- A place in two lists is in the first, if the second has no read. -/
theorem split_left (hb : ¬ Mentions (.keyword .readKw) b) (h : place.fill semicolon = a ++ b) :
    ∃ inner : Place, place = inner.ahead b ∧ a = inner.fill semicolon := by
  refine (split_read h).resolve_right ?_
  rintro ⟨b', -, rfl⟩
  simp at hb

/-- **Where a place is.** If a list is put together from two, then a place lies in the first of
them, or just between them, or in the second. -/
theorem split (hsemicolon : Optional (.symbol .semicolon) semicolon)
    (hb : ¬ StartsWith (.symbol .semicolon) b) (h : place.fill semicolon = a ++ b) :
    (∃ inner : Place, place = inner.ahead b ∧ a = inner.fill semicolon) ∨
      (a = place.front ++ place.last :: semicolon ∧
        b = ⟨.keyword .readKw, place.line⟩ :: place.back) ∨
          ∃ inner : Place, place = inner.behind a ∧ b = inner.fill semicolon := by
  refine (split_read h).imp id ?_
  rintro ⟨b', hfront, rfl⟩
  obtain ⟨front, last, line, back, hlast⟩ := place
  obtain ⟨a', rfl, htail⟩ | ⟨front', rfl, rfl⟩ := List.append_eq_append_iff.1 hfront
  · cases a' with
    | nil =>
      obtain rfl : last :: semicolon = b' := htail
      exact .inr ⟨⟨[], last, line, back, hlast⟩, by simp [behind], by simp [fill]⟩
    | cons _ a' =>
      obtain ⟨rfl, rfl⟩ := List.cons.inj htail
      cases b' with
      | nil => exact .inl ⟨by simp, rfl⟩
      | cons found b' =>
        -- the second list would have to begin with the semicolon
        rcases hsemicolon with hnil | ⟨line', hsingle⟩
        · simp at hnil
        · have hfound : a' = [] ∧ found = ⟨.symbol .semicolon, line'⟩ ∧ b' = [] := by
            simpa [List.append_eq_cons_iff] using hsingle
          obtain ⟨rfl, rfl, rfl⟩ := hfound
          exact absurd ⟨line', _, rfl⟩ hb
  · exact .inr ⟨⟨front', last, line, back, hlast⟩, by simp [behind], by simp [fill]⟩

end Place

/-! ### Exchanging a semicolon -/

/-- A list that has the property after any exchange of a semicolon at a place in it. -/
def Respaceable (P : List Lexeme → Prop) (c : List Lexeme) : Prop :=
  ∀ (place : Place) (semicolon semicolon' : List Lexeme),
    Optional (.symbol .semicolon) semicolon → Optional (.symbol .semicolon) semicolon' →
      place.fill semicolon = c → P (place.fill semicolon')

/-- A list without a read has no place in it. -/
theorem Respaceable.of_not_mentions (h : ¬ Mentions (.keyword .readKw) c) : Respaceable P c := by
  rintro place semicolon _ _ _ rfl
  exact absurd (place.mentions_read semicolon) h

theorem Respaceable.imp (h : ∀ d, P d → Q d) (hc : Respaceable P c) : Respaceable Q c :=
  fun place _ _ hsemicolon hsemicolon' hfill ↦ h _ (hc place _ _ hsemicolon hsemicolon' hfill)

/-- A keyword keeps places apart: they lie in front of it or behind it. -/
theorem Respaceable.around_keyword {k : Keyword} {line : Nat} (hk : k ≠ .readKw)
    (hb : ¬ StartsWith (.symbol .semicolon) b)
    (hleft : Respaceable (fun a' ↦ P (a' ++ ⟨.keyword k, line⟩ :: b)) a)
    (hright : Respaceable (fun b' ↦ P (a ++ ⟨.keyword k, line⟩ :: b')) b) :
    Respaceable P (a ++ ⟨.keyword k, line⟩ :: b) := by
  intro place semicolon semicolon' hsemicolon hsemicolon' h
  have hsplit : place.fill semicolon = (a ++ [⟨.keyword k, line⟩]) ++ b := by simpa using h
  obtain ⟨inner, rfl, hinner⟩ | ⟨hborder, -⟩ | ⟨inner, rfl, rfl⟩ :=
    Place.split hsemicolon hb hsplit
  · obtain ⟨inner, rfl, rfl⟩ := Place.split_left (by simpa using hk) hinner.symm
    simpa using hleft inner _ _ hsemicolon hsemicolon' rfl
  · exact absurd hborder (Place.not_behind_keyword (.inl rfl) hsemicolon)
  · simpa using hright inner _ _ hsemicolon hsemicolon' rfl

/-! ### Statements -/

/-- A sequence of statements that are these when reads are separated. -/
def SeparatesTo (t : Block) (c : List Lexeme) : Prop :=
  ∃ block, Attached c block ∧ Statement.separateAll block = t

/-- A list that can be put in front of a sequence, and that stands for these statements there when
reads are separated. -/
def StandsFor (t : Block) (c : List Lexeme) : Prop :=
  ∀ semicolon, Optional (.symbol .semicolon) semicolon →
    SeparatesTo t (c ++ semicolon) ∧
      ∀ d t', SeparatesTo t' d → SeparatesTo (t ++ t') (c ++ (semicolon ++ d))

/-- A statement stands for itself, with its read separated. -/
theorem IsStatement.standsFor {s : Statement} (h : IsStatement .attached c s) :
    StandsFor s.separate c := by
  intro semicolon hsemicolon
  refine ⟨⟨[s], .last h hsemicolon, Statement.separateAll_singleton s⟩, ?_⟩
  rintro d _ ⟨block, hd, rfl⟩
  obtain hseq | ⟨e, line, target, block', rfl, rfl, hseq⟩ := sequence_cons h hsemicolon hd
  · exact ⟨_, hseq, Statement.separateAll_cons s block⟩
  · exact ⟨_, hseq, by simp [Statement.separateAll_cons, Statement.separate]⟩

/-- Two lists with or without a semicolon between them, if both stand for blocks. By the strict
rule, a display may take the read behind it. -/
theorem StandsFor.append {t t' : Block} {semicolon : List Lexeme} (hc : StandsFor t c)
    (hsemicolon : Optional (.symbol .semicolon) semicolon) (hd : StandsFor t' d) :
    StandsFor (t ++ t') (c ++ (semicolon ++ d)) := by
  intro semicolon' hsemicolon'
  obtain ⟨hlast, hmore⟩ := hd semicolon' hsemicolon'
  constructor
  · simpa using (hc semicolon hsemicolon).2 _ _ hlast
  · intro e t'' he
    simpa using (hc semicolon hsemicolon).2 _ _ (hmore e t'' he)

/-- Statements do not end with a semicolon. -/
theorem IsStatement.getLast_ne {rule : ReadRule} {s : Statement} (h : IsStatement rule c s) :
    (c.getLast h.ne_nil).token ≠ .symbol .semicolon := by
  have hmem : ∀ hne : c ≠ [], ¬ Mentions (.symbol .semicolon) c →
      (c.getLast hne).token ≠ .symbol .semicolon :=
    fun hne hsemicolon htoken ↦ hsemicolon ⟨_, List.getLast_mem hne, htoken⟩
  cases h with
  | display line he => exact hmem _ (by simpa using he.not_mentions rfl)
  | displayRead name line line' line'' he => exact hmem _ (by simpa using he.not_mentions rfl)
  | read name line line' => exact hmem _ (by simp)
  | assign name line line' hkeyword hsign he =>
    refine hmem _ ?_
    rcases hsign with rfl | rfl
    · simpa using ⟨hkeyword.not_mentions nofun, he.not_mentions rfl⟩
    · simpa using ⟨hkeyword.not_mentions nofun, he.not_mentions rfl⟩
  | branch line line' line'' _ _ => simp [List.getLast_cons]
  | branchElse line line₁ line₂ line₃ _ _ _ => simp [List.getLast_cons]
  | loop line line' line'' _ _ => simp [List.getLast_cons]

/-- No block begins with a semicolon. -/
theorem attached_not_startsWith {block : Block} (h : Attached c block) (rest : List Lexeme) :
    ¬ StartsWith (.symbol .semicolon) (c ++ rest) :=
  (Parser.beginsStatement_append rest h).not_startsWith rfl

/-- **The semicolon between two statements can be exchanged**, and so can those inside them. -/
theorem Sequence.respaceable {item : List Lexeme → Statement → Prop} {block : Block}
    (hitem : ∀ c s, item c s →
      IsStatement .attached c s ∧ Respaceable (StandsFor s.separate) c)
    (h : Sequence .attached item c block) :
    Respaceable (SeparatesTo (Statement.separateAll block)) c := by
  induction h with
  | @last c₁ semicolon₁ s hs hsemicolon₁ =>
    intro place semicolon semicolon' hsemicolon hsemicolon' h
    obtain ⟨inner, rfl, rfl⟩ := Place.split_left (hsemicolon₁.not_mentions nofun) h
    have hstands := (hitem _ _ hs).2 inner _ _ hsemicolon hsemicolon' rfl
    rw [Place.fill_ahead, Statement.separateAll_singleton]
    exact (hstands _ hsemicolon₁).1
  | @cons c₁ semicolon₁ c₂ s block hs hsemicolon₁ _ hblock ih =>
    intro place semicolon semicolon' hsemicolon hsemicolon' h
    obtain ⟨hstatement, hinside⟩ := hitem _ _ hs
    have hblock : Attached c₂ block := hblock.imp fun c s hs ↦ (hitem c s hs).1
    have hrest : SeparatesTo (Statement.separateAll block) c₂ := ⟨block, hblock, rfl⟩
    have hstart : ¬ StartsWith (.symbol .semicolon) c₂ := by
      simpa using attached_not_startsWith hblock []
    have hsplit : place.fill semicolon = (c₁ ++ semicolon₁) ++ c₂ := by simpa using h
    rw [Statement.separateAll_cons]
    obtain ⟨inner, rfl, hinner⟩ | ⟨hborder, rfl⟩ | ⟨inner, rfl, rfl⟩ :=
      Place.split hsemicolon hstart hsplit
    · obtain ⟨inner, rfl, rfl⟩ := Place.split_left (hsemicolon₁.not_mentions nofun) hinner.symm
      have hstands := hinside inner _ _ hsemicolon hsemicolon' rfl
      simpa using (hstands _ hsemicolon₁).2 _ _ hrest
    · -- the place is that of the semicolon behind the statement
      have hc₁ := List.dropLast_concat_getLast hstatement.ne_nil
      rw [← hc₁, List.append_assoc, List.singleton_append] at hborder
      obtain ⟨hfront, hlast⟩ := eq_of_append_optional hstatement.getLast_ne (place.last_ne rfl)
        hsemicolon₁ hsemicolon hborder
      rw [hfront, hlast] at hc₁
      have hseq := (hstatement.standsFor _ hsemicolon').2 _ _ hrest
      rw [← hc₁] at hseq
      simpa [Place.fill] using hseq
    · simpa using (hstatement.standsFor _ hsemicolon₁).2 _ _
        (ih inner _ _ hsemicolon hsemicolon' rfl)

/-- No place lies in a read. -/
theorem read_respaceable (name : String) (line line' : Nat) :
    Respaceable P [⟨.keyword .readKw, line⟩, ⟨.identifier name, line'⟩] := by
  intro place semicolon _ _ _ h
  obtain ⟨inner, rfl, hinner⟩ :=
    Place.split_left (a := [⟨.keyword .readKw, line⟩]) (by simp) h
  have hlength := congrArg List.length hinner
  simp only [Place.fill, List.length_append, List.length_cons, List.length_nil] at hlength
  omega

/-- A display and the read attached to it can be taken apart. -/
theorem displayRead_respaceable {e : Expr} (name : String) (line line' line'' : Nat)
    (he : IsExpr .whole c e) :
    Respaceable (StandsFor (Statement.separate (.display e (some ⟨name, line'⟩) line)))
      (⟨.keyword .displayKw, line⟩ ::
        (c ++ [⟨.keyword .readKw, line'⟩, ⟨.identifier name, line''⟩])) := by
  intro place semicolon semicolon' hsemicolon hsemicolon' h
  have hdisplay : IsStatement .attached _ _ := .display line he
  have hread : IsStatement .attached _ _ := .read name line' line''
  rw [← List.cons_append] at h
  obtain ⟨inner, rfl, hinner⟩ | ⟨hborder, hback⟩ | ⟨inner, rfl, hinner⟩ :=
    Place.split hsemicolon (not_startsWith_cons (by simp)) h
  · have hmentions := inner.mentions_read semicolon
    rw [← hinner] at hmentions
    simp [he.not_mentions_keyword] at hmentions
  · rcases hsemicolon with rfl | ⟨line₁, rfl⟩
    · have hstands := hdisplay.standsFor.append hsemicolon' hread.standsFor
      rw [hborder, hback] at hstands
      simpa [Place.fill, Statement.separate] using hstands
    · have hmentions : Mentions (.symbol .semicolon) (⟨.keyword .displayKw, line⟩ :: c) := by
        simp [hborder]
      have hexpr : ¬ Mentions (.symbol .semicolon) c := he.not_mentions rfl
      simp [hexpr] at hmentions
  · exact (read_respaceable (P := fun _ ↦ False) name line' line'' inner _ _ hsemicolon hsemicolon
      hinner.symm).elim

/-- In a statement with a condition, places lie behind the condition. -/
theorem Respaceable.after_condition {first second : Keyword} {line line' : Nat} {e : Expr}
    (he : IsExpr .whole c e) (hfirst : first ≠ .readKw) (hsecond : second ≠ .readKw)
    (hstart : ¬ StartsWith (.symbol .semicolon) d)
    (hd : Respaceable (fun d' ↦ P (⟨.keyword first, line⟩ :: (c ++ ⟨.keyword second, line'⟩ :: d')))
      d) :
    Respaceable P (⟨.keyword first, line⟩ :: (c ++ ⟨.keyword second, line'⟩ :: d)) := by
  refine .around_keyword (a := ⟨.keyword first, line⟩ :: c) hsecond hstart ?_ hd
  exact .of_not_mentions (by simpa using ⟨hfirst, he.not_mentions_keyword .readKw⟩)

/-- In front of `end` there is no place, since no read follows. -/
theorem Respaceable.before_end {line : Nat}
    (hc : Respaceable (fun c' ↦ P (c' ++ [⟨.keyword .endKw, line⟩])) c) :
    Respaceable P (c ++ [⟨.keyword .endKw, line⟩]) :=
  .around_keyword (by simp) (by simp [StartsWith]) hc (.of_not_mentions (by simp))

/-- **A semicolon in front of a `read` can be exchanged** anywhere in a statement. -/
theorem IsStatement.respaceable {s : Statement} (h : IsStatement .attached c s) :
    Respaceable (StandsFor s.separate) c := by
  induction h using IsStatement.induction with
  | display line he => exact .of_not_mentions (by simpa using he.not_mentions_keyword .readKw)
  | displayRead name line line' line'' he => exact displayRead_respaceable name line line' line'' he
  | read name line line' => exact read_respaceable name line line'
  | assign name line line' hkeyword hsign he =>
    refine .of_not_mentions ?_
    simpa using ⟨hkeyword.not_mentions nofun, he.not_mentions_keyword .readKw⟩
  | branch line line' line'' he hblock ih =>
    refine .after_condition he (by simp) (by simp) (attached_not_startsWith hblock _)
      (.before_end ?_)
    refine (ih.respaceable fun _ _ ⟨hs, ihs⟩ ↦ ⟨hs, ihs⟩).imp ?_
    rintro d ⟨block, hd, hsame⟩
    have hstands := (IsStatement.branch line line' line'' he hd).standsFor
    rwa [Statement.separate, hsame] at hstands
  | branchElse line line₁ line₂ line₃ he hblock hblock' ih ih' =>
    refine .after_condition he (by simp) (by simp) (attached_not_startsWith hblock _) ?_
    refine .around_keyword (by simp) (attached_not_startsWith hblock' _) ?_ ?_
    · refine (ih.respaceable fun _ _ ⟨hs, ihs⟩ ↦ ⟨hs, ihs⟩).imp ?_
      rintro d ⟨block, hd, hsame⟩
      have hstands := (IsStatement.branchElse line line₁ line₂ line₃ he hd hblock').standsFor
      rwa [Statement.separate, hsame] at hstands
    · refine .before_end ((ih'.respaceable fun _ _ ⟨hs, ihs⟩ ↦ ⟨hs, ihs⟩).imp ?_)
      rintro d ⟨block', hd, hsame⟩
      have hstands := (IsStatement.branchElse line line₁ line₂ line₃ he hblock hd).standsFor
      rwa [Statement.separate, Statement.separateElse, hsame] at hstands
  | loop line line' line'' he hblock ih =>
    refine .after_condition he (by simp) (by simp) (attached_not_startsWith hblock _)
      (.before_end ?_)
    refine (ih.respaceable fun _ _ ⟨hs, ihs⟩ ↦ ⟨hs, ihs⟩).imp ?_
    rintro d ⟨block, hd, hsame⟩
    have hstands := (IsStatement.loop line line' line'' he hd).standsFor
    rwa [Statement.separate, hsame] at hstands

/-- In a block the semicolon can be exchanged. -/
theorem attached_respaceable {block : Block} (h : Attached c block) :
    Respaceable (SeparatesTo (Statement.separateAll block)) c :=
  h.respaceable fun _ _ hs ↦ ⟨hs, hs.respaceable⟩

/-! ### Programs -/

/-- A `display` stands in front of the place, and no procedure is declared in between. -/
def Place.IsBehindDisplay (place : Place) : Prop :=
  ∃ a line b, place.front = a ++ ⟨.keyword .displayKw, line⟩ :: b ∧
    ¬ Mentions (.keyword .procedureKw) b

theorem Place.isBehindDisplay_ahead {place : Place} :
    (place.ahead b).IsBehindDisplay ↔ place.IsBehindDisplay :=
  .rfl

/-- The `display` is not in front of a declaration that the place lies in. -/
theorem Place.IsBehindDisplay.of_behind {place : Place} (h : (place.behind a).IsBehindDisplay)
    (hfront : Mentions (.keyword .procedureKw) place.front) : place.IsBehindDisplay := by
  obtain ⟨a', line, b, heq, hb⟩ := h
  obtain ⟨a'', rfl, hplace⟩ | ⟨b', rfl, hplace⟩ := List.append_eq_append_iff.1 heq
  · exact ⟨a'', line, b, hplace, hb⟩
  · cases b' with
    | nil => exact ⟨[], line, b, hplace.symm, hb⟩
    | cons _ b' =>
      obtain ⟨rfl, rfl⟩ := List.cons.inj hplace
      exact absurd (mentions_append.2 (.inr hfront)) hb

/-- The keywords in front of the body of a procedure are `procedure` and `var`. -/
theorem header_not_mentions {c₁ c₂ : List Lexeme} {params locals : List String} (name : String)
    (line line₁ line₂ : Nat) (hparams : CommaList IsName (.symbol .rightParen) c₁ params)
    (hlocals : IsLocals c₂ locals) {k : Keyword} (hprocedure : k ≠ .procedureKw)
    (hvar : k ≠ .varKw) :
    ¬ Mentions (.keyword k) (⟨.keyword .procedureKw, line⟩ :: ⟨.identifier name, line₁⟩ ::
      ⟨.symbol .leftParen, line₂⟩ :: (c₁ ++ c₂)) := by
  have hsection : ¬ Mentions (.keyword k) c₂ := by
    cases hlocals with
    | none => exact not_mentions_nil
    | some line hnames => simpa using ⟨Ne.symm hvar, hnames.names_not_mention⟩
  simpa using ⟨Ne.symm hprocedure, hparams.names_not_mention, hsection⟩

/-- Procedures end with `end` and possibly a semicolon. -/
theorem IsProcedures.ends {rule : ReadRule} {ps : List Procedure} (h : IsProcedures rule c ps) :
    c = [] ∨ ∃ c' line semicolon, c = c' ++ ⟨.keyword .endKw, line⟩ :: semicolon ∧
      Optional (.symbol .semicolon) semicolon := by
  induction h with
  | nil => exact .inl rfl
  | @cons c c' _ _ hp _ ih =>
    obtain rfl | ⟨c'', line, semicolon, rfl, hsemicolon⟩ := ih
    · cases hp with
      | @intro c₁ c₂ c₃ semicolon _ _ _ name line line₁ line₂ line₃ _ _ _ hsemicolon =>
        exact .inr ⟨⟨.keyword .procedureKw, line⟩ :: ⟨.identifier name, line₁⟩ ::
          ⟨.symbol .leftParen, line₂⟩ :: (c₁ ++ (c₂ ++ c₃)), line₃, semicolon, by simp, hsemicolon⟩
    · exact .inr ⟨c ++ c'', line, semicolon, by simp, hsemicolon⟩

/-- Procedures begin with their keyword, if there are any. -/
theorem IsProcedures.starts {rule : ReadRule} {ps : List Procedure} (h : IsProcedures rule c ps) :
    c = [] ∨ StartsWith (.keyword .procedureKw) c := by
  cases h with
  | nil => exact .inl rfl
  | cons hp _ =>
    obtain ⟨line, c', rfl⟩ := hp.startsWith
    exact .inr ⟨line, _, rfl⟩

section Exchange

variable {place : Place} {semicolon semicolon' : List Lexeme}
  (hsemicolon : Optional (.symbol .semicolon) semicolon)
  (hsemicolon' : Optional (.symbol .semicolon) semicolon') (hplace : place.IsBehindDisplay)
include hsemicolon hsemicolon' hplace

/-- In a procedure the place is in its body. -/
theorem IsProcedure.respace {p : Procedure} (h : IsProcedure .attached c p)
    (hc : place.fill semicolon = c) :
    ∃ p', IsProcedure .attached (place.fill semicolon') p' ∧ p'.separate = p.separate := by
  cases h with
  | @intro c₁ c₂ c₃ semicolon₁ params locals block name line line₁ line₂ line₃ hparams hlocals
      hbody hsemicolon₁ =>
    have hheader {k : Keyword} := header_not_mentions (k := k) name line line₁ line₂ hparams hlocals
    generalize hfront : (⟨.keyword .procedureKw, line⟩ :: ⟨.identifier name, line₁⟩ ::
      ⟨.symbol .leftParen, line₂⟩ :: (c₁ ++ c₂) : List Lexeme) = front at hheader
    have hsplit : place.fill semicolon =
        (front ++ c₃) ++ ⟨.keyword .endKw, line₃⟩ :: semicolon₁ := by
      simpa [← hfront] using hc
    have hback : ¬ Mentions (.keyword .readKw) semicolon₁ := hsemicolon₁.not_mentions nofun
    obtain ⟨inner, rfl, hinner⟩ := Place.split_left (by simpa using hback) hsplit
    obtain ⟨inner, rfl, rfl⟩ | ⟨rfl, -⟩ | ⟨inner, rfl, rfl⟩ :=
      Place.split hsemicolon (by simpa using attached_not_startsWith hbody []) hinner.symm
    · exact absurd (inner.mentions_read semicolon) (hheader nofun nofun)
    · obtain ⟨a, line', b, hdisplay, -⟩ := hplace
      have hdisplay : inner.front = a ++ ⟨.keyword .displayKw, line'⟩ :: b := hdisplay
      have hmentions := hheader (k := .displayKw) nofun nofun
      simp [hdisplay] at hmentions
    · obtain ⟨block', hbody', hsame⟩ :=
        attached_respaceable hbody inner _ _ hsemicolon hsemicolon' rfl
      have hp' : IsProcedure .attached _ _ :=
        .intro name line line₁ line₂ line₃ hparams hlocals hbody' hsemicolon₁
      refine ⟨⟨name, params, locals, block', line⟩, ?_, ?_⟩
      · simpa [← hfront] using hp'
      · exact congrArg (Procedure.mk name params locals · line) hsame

/-- The place is in one of the procedures, and the others stay as they are. -/
theorem IsProcedures.respace {ps : List Procedure} (h : IsProcedures .attached c ps)
    (hc : place.fill semicolon = c) :
    ∃ ps', IsProcedures .attached (place.fill semicolon') ps' ∧
      ps'.map (·.separate) = ps.map (·.separate) := by
  induction h generalizing place with
  | nil => simp [Place.fill] at hc
  | @cons c c' p ps hp hps ih =>
    have hstart : ¬ StartsWith (.symbol .semicolon) c' := by
      obtain rfl | ⟨line, c'', rfl⟩ := hps.starts
      · simp [StartsWith]
      · exact not_startsWith_cons nofun
    obtain ⟨inner, rfl, rfl⟩ | ⟨-, rfl⟩ | ⟨inner, rfl, rfl⟩ := Place.split hsemicolon hstart hc
    · have hinner := Place.isBehindDisplay_ahead.1 hplace
      obtain ⟨p', hp', hsame⟩ := hp.respace hsemicolon hsemicolon' hinner rfl
      have hps' : IsProcedures .attached _ _ := .cons hp' hps
      exact ⟨p' :: ps, by simpa using hps', by simp [hsame]⟩
    · obtain hnil | ⟨_, _, hcons⟩ := hps.starts
      · cases hnil
      · cases hcons
    · obtain hnil | ⟨line, c'', hcons⟩ := hps.starts
      · simp [Place.fill] at hnil
      · obtain ⟨front, hfront⟩ := inner.front_eq_cons hcons rfl
        obtain ⟨ps', hps', hsame⟩ := ih (hplace.of_behind (by simp [hfront])) rfl
        have hboth : IsProcedures .attached _ _ := .cons hp hps'
        exact ⟨p :: ps', by simpa using hboth, by simp [hsame]⟩

/-- **A semicolon between `display` and `read` can be exchanged** anywhere in a program. -/
theorem IsProgram.respace {p : Program} (h : IsProgram .attached c p)
    (hc : place.fill semicolon = c) :
    ∃ p', IsProgram .attached (place.fill semicolon') p' ∧ p'.separate = p.separate := by
  cases h with
  | @intro c c' ps block hps hblock =>
    have hstart : ¬ StartsWith (.symbol .semicolon) c' := by
      simpa using attached_not_startsWith hblock []
    obtain ⟨inner, rfl, rfl⟩ | ⟨hborder, -⟩ | ⟨inner, rfl, rfl⟩ :=
      Place.split hsemicolon hstart hc
    · have hinner := Place.isBehindDisplay_ahead.1 hplace
      obtain ⟨ps', hps', hsame⟩ := hps.respace hsemicolon hsemicolon' hinner rfl
      have hp' : IsProgram .attached _ _ := .intro hps' hblock
      exact ⟨⟨ps', block⟩, by simpa using hp', by simp [Program.separate, hsame]⟩
    · obtain rfl | ⟨c'', line, semicolon₁, rfl, hsemicolon₁⟩ := hps.ends
      · simp at hborder
      · exact absurd hborder (Place.not_behind_keyword hsemicolon₁ hsemicolon)
    · obtain ⟨block', hblock', hsame⟩ :=
        attached_respaceable hblock inner _ _ hsemicolon hsemicolon' rfl
      have hp' : IsProgram .attached _ _ := .intro hps hblock'
      exact ⟨⟨ps, block'⟩, by simpa using hp', by simp [Program.separate, hsame]⟩

end Exchange

end Grammar

namespace Parser

open Grammar

/-- The check of the nesting does not mind semicolons. -/
theorem tooDeep?_fill (place : Place) {semicolon semicolon' : List Lexeme}
    (hsemicolon : Optional (.symbol .semicolon) semicolon)
    (hsemicolon' : Optional (.symbol .semicolon) semicolon') {limit depth : Nat} :
    tooDeep? limit depth (place.fill semicolon') = tooDeep? limit depth (place.fill semicolon) := by
  have hflat {s : List Lexeme} (hs : Optional (.symbol .semicolon) s) : Flat s := by
    rcases hs with rfl | ⟨line, rfl⟩
    · exact flat_nil
    · exact flat_singleton rfl rfl
  have hsplit (s : List Lexeme) : place.fill s = (place.front ++ [place.last]) ++
      (s ++ ⟨.keyword .readKw, place.line⟩ :: place.back) := by
    simp [Place.fill]
  rw [hsplit, hsplit, tooDeep?_insert_flat (hflat hsemicolon),
    tooDeep?_insert_flat (hflat hsemicolon')]

/-- A program is accepted with the semicolon or without it. -/
theorem parse_fill {place : Place} {semicolon semicolon' rest : List Lexeme} {p : Program}
    (hsemicolon : Optional (.symbol .semicolon) semicolon)
    (hsemicolon' : Optional (.symbol .semicolon) semicolon') (hplace : place.IsBehindDisplay)
    (h : parse program (place.fill semicolon) = .ok (p, rest)) :
    ∃ p' rest', parse program (place.fill semicolon') = .ok (p', rest') ∧
      p'.separate = p.separate := by
  obtain ⟨hdeep, hparse⟩ := parse_program_eq_ok_iff.1 h
  obtain ⟨c, line, hc, hp, hdistinct⟩ := derived_of_parse hparse
  rw [← tooDeep?_fill place hsemicolon hsemicolon'] at hdeep
  have haccepted {c p' rest'} (hp' : IsProgram .attached c p') (hsame : p'.separate = p.separate)
      (hfill : place.fill semicolon' = c ++ ⟨.eof, line⟩ :: rest') :
      ∃ p' rest', parse program (place.fill semicolon') = .ok (p', rest') ∧
        p'.separate = p.separate := by
    refine ⟨p', rest', parse_program_eq_ok_iff.2 ⟨hdeep, ?_⟩, hsame⟩
    rw [hfill]
    refine parse_of_distinct hp' ?_ line rest'
    rwa [← Program.hasDistinctNames_separate, hsame, Program.hasDistinctNames_separate]
  -- the place is in the program, or behind the end of the input
  obtain ⟨inner, rfl, rfl⟩ | ⟨-, hback⟩ | ⟨inner, rfl, hinner⟩ :=
    Place.split hsemicolon (not_startsWith_cons (by simp)) hc
  · have hinner := Place.isBehindDisplay_ahead.1 hplace
    obtain ⟨p', hp', hsame⟩ := hp.respace hsemicolon hsemicolon' hinner rfl
    exact haccepted hp' hsame (Place.fill_ahead ..)
  · cases hback
  · obtain ⟨front, hfront⟩ := inner.front_eq_cons hinner.symm rfl
    exact haccepted hp rfl (by rw [Place.fill_behind, Place.fill, hfront, List.cons_append])

/-- **A semicolon between `display` and `read` makes no difference** but that the read is a
statement of its own. Whether it stands there or not, a program is accepted or not, and it is the
same when reads are separated. -/
theorem parse_respaced {front c back semicolon semicolon' rest : List Lexeme} {line line' : Nat}
    {e : Expr} {p : Program} (he : IsExpr .whole c e)
    (hsemicolon : Optional (.symbol .semicolon) semicolon)
    (hsemicolon' : Optional (.symbol .semicolon) semicolon')
    (h : parse program (front ++ ⟨.keyword .displayKw, line⟩ ::
      (c ++ (semicolon ++ ⟨.keyword .readKw, line'⟩ :: back))) = .ok (p, rest)) :
    ∃ p' rest', parse program (front ++ ⟨.keyword .displayKw, line⟩ ::
        (c ++ (semicolon' ++ ⟨.keyword .readKw, line'⟩ :: back))) = .ok (p', rest') ∧
      p'.separate = p.separate := by
  obtain ⟨found, c', rfl, -⟩ := he.head
  obtain ⟨inner, last, hc⟩ : ∃ inner last, found :: c' = inner ++ [last] :=
    ⟨_, _, (List.dropLast_concat_getLast (List.cons_ne_nil found c')).symm⟩
  rw [hc] at he h ⊢
  let place : Place := ⟨front ++ ⟨.keyword .displayKw, line⟩ :: inner, last, line', back,
    he.inExpression_of_mem (by simp)⟩
  have hfill (s : List Lexeme) : place.fill s = front ++ ⟨.keyword .displayKw, line⟩ ::
      ((inner ++ [last]) ++ (s ++ ⟨.keyword .readKw, line'⟩ :: back)) := by
    simp [place, Place.fill]
  have hplace : place.IsBehindDisplay := by
    refine ⟨front, line, inner, rfl, fun hmentions ↦ ?_⟩
    exact he.not_mentions_keyword .procedureKw (mentions_append.2 (.inl hmentions))
  rw [← hfill] at h ⊢
  exact parse_fill hsemicolon hsemicolon' hplace h

end Parser

end TinyProc
