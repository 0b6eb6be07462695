import TinyProc.Proofs.Syntax.Grammar

/-!
# Attaching reads and renumbering lines

Which lists of lexemes are programs does not depend on the lines, and neither does it depend on
whether a `read` behind what a `display` shows has to belong to the display. The trees do depend on
both: lines go into the nodes, and a display with a `read` behind it is one statement or two. So
what is shown is that a list which is derived by the free rule is derived by the strict one, as some
tree, and so is every list with the same tokens (`IsProgram.attach`).

The one place where something happens is a sequence in which a display without a read stands
directly in front of a statement that begins with `read`. This is a read statement, and the two are
put together (`sequence_display`).
-/

namespace TinyProc.Grammar

variable {α β : Type} {c d : List Lexeme}

/-! ### Lists with the same tokens -/

/-- The two lists have the same tokens, on whatever lines. -/
def SameTokens (c d : List Lexeme) : Prop :=
  c.map (·.token) = d.map (·.token)

namespace SameTokens

theorem refl (c : List Lexeme) : SameTokens c c :=
  rfl

/-- Nothing has the tokens of the empty list but the empty list. -/
theorem nil (h : SameTokens [] d) : d = [] :=
  List.map_eq_nil_iff.1 (Eq.symm h)

/-- A list with the tokens of another one begins with the first of them. -/
theorem cons {t : Lexeme} (h : SameTokens (t :: c) d) :
    ∃ line d', d = ⟨t.token, line⟩ :: d' ∧ SameTokens c d' := by
  obtain ⟨⟨token, line⟩, d', rfl, rfl, hd⟩ := List.map_eq_cons_iff.1 (Eq.symm h)
  exact ⟨line, d', rfl, Eq.symm hd⟩

theorem singleton {t : Lexeme} (h : SameTokens [t] d) : ∃ line, d = [⟨t.token, line⟩] := by
  obtain ⟨line, d', rfl, hd⟩ := h.cons
  obtain rfl := hd.nil
  exact ⟨line, rfl⟩

/-- A list with the tokens of two lists can be cut where the first of them ends. -/
theorem append {c₁ c₂ : List Lexeme} (h : SameTokens (c₁ ++ c₂) d) :
    ∃ d₁ d₂, d = d₁ ++ d₂ ∧ SameTokens c₁ d₁ ∧ SameTokens c₂ d₂ := by
  rw [SameTokens, List.map_append] at h
  obtain ⟨d₁, d₂, rfl, h₁, h₂⟩ := List.map_eq_append_iff.1 (Eq.symm h)
  exact ⟨d₁, d₂, rfl, Eq.symm h₁, Eq.symm h₂⟩

end SameTokens

/-- A token that may be missing is missing in both or in neither. -/
theorem Optional.reline {token : Token} (h : Optional token c) (hd : SameTokens c d) :
    Optional token d := by
  rcases h with rfl | ⟨line, rfl⟩
  · exact .inl hd.nil
  · exact .inr hd.singleton

theorem IsName.reline {name : String} (h : IsName c name) (hd : SameTokens c d) :
    IsName d name := by
  obtain ⟨line, rfl⟩ := h
  exact hd.singleton

section Lists

variable {G : List Lexeme → α → Prop} {G' : List Lexeme → β → Prop} {closing : Token} {as : List α}

/-- A list can be read again on other lines, if its items can. What comes of the items may be
different. -/
theorem Items.reline (hG : ∀ c a, G c a → ∀ d, SameTokens c d → ∃ b, G' d b)
    (h : Items G closing c as) (hd : SameTokens c d) : ∃ bs, Items G' closing d bs := by
  induction h generalizing d with
  | last line ha =>
    obtain ⟨d₁, d₂, rfl, h₁, h₂⟩ := hd.append
    obtain ⟨line', rfl⟩ := h₂.singleton
    obtain ⟨b, hb⟩ := hG _ _ ha d₁ h₁
    exact ⟨[b], .last line' hb⟩
  | cons line ha _ ih =>
    obtain ⟨d₁, d₂, rfl, h₁, h₂⟩ := hd.append
    obtain ⟨line', d₃, rfl, h₃⟩ := h₂.cons
    obtain ⟨b, hb⟩ := hG _ _ ha d₁ h₁
    obtain ⟨bs, hbs⟩ := ih h₃
    exact ⟨b :: bs, .cons line' hb hbs⟩

/-- A list of items, which may be empty on both sides. -/
theorem CommaList.reline (hG : ∀ c a, G c a → ∀ d, SameTokens c d → ∃ b, G' d b)
    (h : CommaList G closing c as) (hd : SameTokens c d) : ∃ bs, CommaList G' closing d bs := by
  cases h with
  | empty line =>
    obtain ⟨line', rfl⟩ := hd.singleton
    exact ⟨[], .empty line'⟩
  | filled h =>
    obtain ⟨bs, hbs⟩ := h.reline hG hd
    exact ⟨bs, .filled hbs⟩

end Lists

/-! ### Expressions -/

/-- An expression on other lines is an expression again, in the same layer. -/
theorem IsExpr.reline {t : Tier} {e : Expr} (h : IsExpr t c e) (hd : SameTokens c d) :
    ∃ e', IsExpr t d e' := by
  induction h using IsExpr.induction generalizing d with
  | number value line =>
    obtain ⟨line', rfl⟩ := hd.singleton
    exact ⟨_, .number value line'⟩
  | name name line =>
    obtain ⟨line', rfl⟩ := hd.singleton
    exact ⟨_, .name name line'⟩
  | group line line' _ ih =>
    obtain ⟨line₁, d₁, rfl, h₁⟩ := hd.cons
    obtain ⟨d₂, d₃, rfl, h₂, h₃⟩ := h₁.append
    obtain ⟨line₂, rfl⟩ := h₃.singleton
    obtain ⟨e', he'⟩ := ih h₂
    exact ⟨e', .group line₁ line₂ he'⟩
  | call name line line' _ ih =>
    obtain ⟨line₁, d₁, rfl, h₁⟩ := hd.cons
    obtain ⟨line₂, d₂, rfl, h₂⟩ := h₁.cons
    obtain ⟨es, hes⟩ := ih.reline (fun c e ⟨_, h⟩ d hd ↦ h hd) h₂
    exact ⟨_, .call name line₁ line₂ hes⟩
  | plain _ ih =>
    obtain ⟨e', he'⟩ := ih hd
    exact ⟨e', .plain he'⟩
  | minus line _ ih =>
    obtain ⟨line₁, d₁, rfl, h₁⟩ := hd.cons
    obtain ⟨e', he'⟩ := ih h₁
    exact ⟨_, .minus line₁ he'⟩
  | operand _ ih =>
    obtain ⟨e', he'⟩ := ih hd
    exact ⟨e', .operand he'⟩
  | operation line _ hop _ ihleft ihright =>
    obtain ⟨d₁, d₂, rfl, h₁, h₂⟩ := hd.append
    obtain ⟨line₁, d₃, rfl, h₃⟩ := h₂.cons
    obtain ⟨left', hleft'⟩ := ihleft h₁
    obtain ⟨right', hright'⟩ := ihright h₃
    exact ⟨_, .operation line₁ hleft' hop hright'⟩

/-! ### Statements -/

/-- A sequence of statements in which reads are attached. -/
abbrev Attached : List Lexeme → Block → Prop :=
  Sequence .attached (IsStatement .attached)

/-- A statement that begins with `read` is a read. -/
theorem eq_read_of_startsWith {rule : ReadRule} {s : Statement} {rest : List Lexeme}
    (h : IsStatement rule c s) (hread : StartsWith (.keyword .readKw) (c ++ rest)) :
    ∃ name line line', c = [⟨.keyword .readKw, line⟩, ⟨.identifier name, line'⟩] ∧
      s = .read ⟨name, line⟩ := by
  obtain ⟨line, rest', heq⟩ := hread
  cases h with
  | read name line line' => exact ⟨name, line, line', rfl, rfl⟩
  | assign name line line' hkeyword _ _ =>
    rcases hkeyword with rfl | ⟨line'', rfl⟩
    · cases heq
    · cases heq
  | _ => cases heq

/-- **A display takes the read behind it.** What follows the read stays as it is. -/
theorem sequence_display {e : Expr} {block : Block} (line : Nat) (he : IsExpr .whole c e)
    (h : Attached d block) (hread : StartsWith (.keyword .readKw) d) :
    ∃ target block', block = .read target :: block' ∧
      Attached (⟨.keyword .displayKw, line⟩ :: (c ++ d))
        (.display e (some target) line :: block') := by
  obtain ⟨c₁, semicolon, c₂, s, block', rfl, rfl, hs, hsemicolon, htail⟩ := h.uncons
  obtain ⟨name, line₁, line₂, rfl, rfl⟩ := eq_read_of_startsWith hs hread
  have hdisplay : IsStatement .attached _ _ := .displayRead name line line₁ line₂ he
  refine ⟨⟨name, line₁⟩, block', rfl, ?_⟩
  -- the semicolon of the read becomes the one of the display
  rcases htail with ⟨rfl, rfl⟩ | ⟨-, htail⟩
  · have hseq : Attached _ _ := .last hdisplay hsemicolon
    simpa using hseq
  · have hseq : Attached _ _ := .cons hdisplay hsemicolon (fun htakes ↦ htakes.elim) htail
    simpa using hseq

/-- A statement in front of a sequence, where a read may have to be attached. -/
theorem sequence_cons {semicolon : List Lexeme} {s : Statement} {block : Block}
    (hs : IsStatement .attached c s) (hsemicolon : Optional (.symbol .semicolon) semicolon)
    (h : Attached d block) :
    Attached (c ++ (semicolon ++ d)) (s :: block) ∨
      ∃ e line target block', s = .display e none line ∧ block = .read target :: block' ∧
        Attached (c ++ (semicolon ++ d)) (.display e (some target) line :: block') := by
  by_cases hallows : ReadRule.attached.Allows s semicolon d
  · exact .inl (.cons hs hsemicolon hallows h)
  · have hread : s.takesRead ∧ semicolon = [] ∧ StartsWith (.keyword .readKw) d := by
      simpa [ReadRule.Allows] using hallows
    obtain ⟨htakes, rfl, hread⟩ := hread
    cases hs with
    | @display _ e line he =>
      obtain ⟨target, block', hblock, hseq⟩ := sequence_display line he h hread
      exact .inr ⟨e, line, target, block', rfl, hblock, hseq⟩
    | _ => exact htakes.elim

/-- A sequence is put together again from its last statement, and each statement in front may take a
read off the rest that has been put together already. -/
theorem Sequence.attach {item : List Lexeme → Statement → Prop} {block : Block}
    (hitem : ∀ c s, item c s → ∀ d, SameTokens c d → ∃ s', IsStatement .attached d s')
    (h : Sequence .free item c block) (hd : SameTokens c d) : ∃ block', Attached d block' := by
  induction h generalizing d with
  | last hs hsemicolon =>
    obtain ⟨d₁, d₂, rfl, h₁, h₂⟩ := hd.append
    obtain ⟨s', hs'⟩ := hitem _ _ hs d₁ h₁
    exact ⟨[s'], .last hs' (hsemicolon.reline h₂)⟩
  | cons hs hsemicolon _ _ ih =>
    obtain ⟨d₁, d₂, rfl, h₁, h₂⟩ := hd.append
    obtain ⟨d₃, d₄, rfl, h₃, h₄⟩ := h₂.append
    obtain ⟨s', hs'⟩ := hitem _ _ hs d₁ h₁
    obtain ⟨block', hblock'⟩ := ih h₄
    obtain hseq | ⟨_, _, _, _, -, -, hseq⟩ := sequence_cons hs' (hsemicolon.reline h₃) hblock'
    · exact ⟨_, hseq⟩
    · exact ⟨_, hseq⟩

/-- A statement by the free rule is one by the strict rule. Statements are taken one for one, but in
the blocks inside two may become one. -/
theorem IsStatement.attach {s : Statement} (h : IsStatement .free c s) (hd : SameTokens c d) :
    ∃ s', IsStatement .attached d s' := by
  induction h using IsStatement.induction generalizing d with
  | display line he =>
    obtain ⟨line₁, d₁, rfl, h₁⟩ := hd.cons
    obtain ⟨e', he'⟩ := he.reline h₁
    exact ⟨_, .display line₁ he'⟩
  | displayRead name line line' line'' he =>
    obtain ⟨line₁, d₁, rfl, h₁⟩ := hd.cons
    obtain ⟨d₂, d₃, rfl, h₂, h₃⟩ := h₁.append
    obtain ⟨line₂, d₄, rfl, h₄⟩ := h₃.cons
    obtain ⟨line₃, rfl⟩ := h₄.singleton
    obtain ⟨e', he'⟩ := he.reline h₂
    exact ⟨_, .displayRead name line₁ line₂ line₃ he'⟩
  | read name line line' =>
    obtain ⟨line₁, d₁, rfl, h₁⟩ := hd.cons
    obtain ⟨line₂, rfl⟩ := h₁.singleton
    exact ⟨_, .read name line₁ line₂⟩
  | assign name line line' hkeyword hsign he =>
    obtain ⟨d₁, d₂, rfl, h₁, h₂⟩ := hd.append
    obtain ⟨line₁, d₃, rfl, h₃⟩ := h₂.cons
    obtain ⟨line₂, d₄, rfl, h₄⟩ := h₃.cons
    obtain ⟨e', he'⟩ := he.reline h₄
    exact ⟨_, .assign name line₁ line₂ (hkeyword.reline h₁) hsign he'⟩
  | branch line line' line'' he _ ih =>
    obtain ⟨line₁, d₁, rfl, h₁⟩ := hd.cons
    obtain ⟨d₂, d₃, rfl, h₂, h₃⟩ := h₁.append
    obtain ⟨line₂, d₄, rfl, h₄⟩ := h₃.cons
    obtain ⟨d₅, d₆, rfl, h₅, h₆⟩ := h₄.append
    obtain ⟨line₃, rfl⟩ := h₆.singleton
    obtain ⟨e', he'⟩ := he.reline h₂
    obtain ⟨block, hblock⟩ := ih.attach (fun c s ⟨_, h⟩ d hd ↦ h hd) h₅
    exact ⟨_, .branch line₁ line₂ line₃ he' hblock⟩
  | branchElse line line₁ line₂ line₃ he _ _ ih ih' =>
    obtain ⟨line₁, d₁, rfl, h₁⟩ := hd.cons
    obtain ⟨d₂, d₃, rfl, h₂, h₃⟩ := h₁.append
    obtain ⟨line₂, d₄, rfl, h₄⟩ := h₃.cons
    obtain ⟨d₅, d₆, rfl, h₅, h₆⟩ := h₄.append
    obtain ⟨line₃, d₇, rfl, h₇⟩ := h₆.cons
    obtain ⟨d₈, d₉, rfl, h₈, h₉⟩ := h₇.append
    obtain ⟨line₄, rfl⟩ := h₉.singleton
    obtain ⟨e', he'⟩ := he.reline h₂
    obtain ⟨block, hblock⟩ := ih.attach (fun c s ⟨_, h⟩ d hd ↦ h hd) h₅
    obtain ⟨block', hblock'⟩ := ih'.attach (fun c s ⟨_, h⟩ d hd ↦ h hd) h₈
    exact ⟨_, .branchElse line₁ line₂ line₃ line₄ he' hblock hblock'⟩
  | loop line line' line'' he _ ih =>
    obtain ⟨line₁, d₁, rfl, h₁⟩ := hd.cons
    obtain ⟨d₂, d₃, rfl, h₂, h₃⟩ := h₁.append
    obtain ⟨line₂, d₄, rfl, h₄⟩ := h₃.cons
    obtain ⟨d₅, d₆, rfl, h₅, h₆⟩ := h₄.append
    obtain ⟨line₃, rfl⟩ := h₆.singleton
    obtain ⟨e', he'⟩ := he.reline h₂
    obtain ⟨block, hblock⟩ := ih.attach (fun c s ⟨_, h⟩ d hd ↦ h hd) h₅
    exact ⟨_, .loop line₁ line₂ line₃ he' hblock⟩

/-- A block of a program by the free rule is one by the strict rule. -/
theorem sequence_attach {block : Block} (h : Sequence .free (IsStatement .free) c block)
    (hd : SameTokens c d) : ∃ block', Attached d block' :=
  h.attach (fun _ _ hs _ hd ↦ hs.attach hd) hd

/-! ### Programs -/

/-- Local variables can be declared on other lines. -/
theorem IsLocals.reline {names : List String} (h : IsLocals c names) (hd : SameTokens c d) :
    ∃ names', IsLocals d names' := by
  cases h with
  | none =>
    obtain rfl := hd.nil
    exact ⟨[], .none⟩
  | some line h =>
    obtain ⟨line₁, d₁, rfl, h₁⟩ := hd.cons
    obtain ⟨names', hnames'⟩ := h.reline (fun c name hname d hd ↦ ⟨name, hname.reline hd⟩) h₁
    exact ⟨names', .some line₁ hnames'⟩

/-- A procedure by the free rule is one by the strict rule. Its body may get shorter. -/
theorem IsProcedure.attach {p : Procedure} (h : IsProcedure .free c p) (hd : SameTokens c d) :
    ∃ p', IsProcedure .attached d p' := by
  cases h with
  | intro name line line₁ line₂ line₃ hparams hlocals hblock hsemicolon =>
    obtain ⟨line₁, d₁, rfl, h₁⟩ := hd.cons
    obtain ⟨line₂, d₂, rfl, h₂⟩ := h₁.cons
    obtain ⟨line₃, d₃, rfl, h₃⟩ := h₂.cons
    obtain ⟨d₄, d₅, rfl, h₄, h₅⟩ := h₃.append
    obtain ⟨d₆, d₇, rfl, h₆, h₇⟩ := h₅.append
    obtain ⟨d₈, d₉, rfl, h₈, h₉⟩ := h₇.append
    obtain ⟨line₄, d₀, rfl, h₀⟩ := h₉.cons
    obtain ⟨params, hparams'⟩ := hparams.reline (fun c name hname d hd ↦ ⟨name, hname.reline hd⟩) h₄
    obtain ⟨locals, hlocals'⟩ := hlocals.reline h₆
    obtain ⟨block, hblock'⟩ := sequence_attach hblock h₈
    exact ⟨_, .intro name line₁ line₂ line₃ line₄ hparams' hlocals' hblock' (hsemicolon.reline h₀)⟩

/-- Procedures are taken one for one. -/
theorem IsProcedures.attach {ps : List Procedure} (h : IsProcedures .free c ps)
    (hd : SameTokens c d) : ∃ ps', IsProcedures .attached d ps' := by
  induction h generalizing d with
  | nil =>
    obtain rfl := hd.nil
    exact ⟨[], .nil⟩
  | cons hp _ ih =>
    obtain ⟨d₁, d₂, rfl, h₁, h₂⟩ := hd.append
    obtain ⟨p', hp'⟩ := hp.attach h₁
    obtain ⟨ps', hps'⟩ := ih h₂
    exact ⟨p' :: ps', .cons hp' hps'⟩

/-- **What is a program by the free rule is one by the strict rule**, on whatever lines. -/
theorem IsProgram.attach {p : Program} (h : IsProgram .free c p) (hd : SameTokens c d) :
    ∃ p', IsProgram .attached d p' := by
  cases h with
  | intro hps hblock =>
    obtain ⟨d₁, d₂, rfl, h₁, h₂⟩ := hd.append
    obtain ⟨ps', hps'⟩ := hps.attach h₁
    obtain ⟨block', hblock'⟩ := sequence_attach hblock h₂
    exact ⟨⟨ps', block'⟩, .intro hps' hblock'⟩

end TinyProc.Grammar
