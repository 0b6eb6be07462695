import TinyProc.Proofs.Syntax.Completeness.Statement

/-!
# Reading what the grammar derives: programs

A procedure that binds no name twice is read like everything else; one that does is refused for that
reason and for no other. Both are said at once of whole programs (`uncheckedProgram_settles`): a
program that the grammar derives is read if all of its procedures bind distinct names, and is
refused for a repeated name if not.
-/

namespace TinyProc

/-- No procedure binds a name twice among its own name, its parameters and its locals. -/
def Program.HasDistinctNames (p : Program) : Prop :=
  ∀ q ∈ p.procedures, q.boundNames.Nodup

/-- No name is found to be repeated if there is none. -/
theorem firstRepeated?_eq_none_iff {seen names : List String} :
    firstRepeated? seen names = none ↔ names.Nodup ∧ ∀ name ∈ names, name ∉ seen := by
  induction names generalizing seen with
  | nil => simp [firstRepeated?]
  | cons name names ih =>
    rw [firstRepeated?]
    split
    · rename_i hseen
      simp [hseen]
    · rename_i hseen
      rw [ih, List.nodup_cons]
      constructor
      · rintro ⟨hnodup, hfresh⟩
        refine ⟨⟨fun hmem ↦ hfresh name hmem (List.mem_cons_self ..), hnodup⟩, ?_⟩
        rintro other (_ | ⟨_, hother⟩)
        · exact hseen
        · exact fun hmem ↦ hfresh other hother (List.mem_cons_of_mem _ hmem)
      · rintro ⟨⟨hname, hnodup⟩, hfresh⟩
        refine ⟨hnodup, fun other hother hmem ↦ ?_⟩
        rcases List.mem_cons.1 hmem with rfl | hmem
        · exact hname hother
        · exact hfresh other (List.mem_cons_of_mem _ hother) hmem

/-- No name is found to be repeated exactly if a procedure binds distinct names, its own included.
-/
theorem firstRepeated?_boundNames (p : Procedure) :
    firstRepeated? [p.name] (p.params ++ p.locals) = none ↔ p.boundNames.Nodup := by
  rw [firstRepeated?_eq_none_iff, Procedure.boundNames, List.nodup_cons, and_comm]
  refine and_congr_left fun _ ↦ ⟨fun h hmem ↦ h _ hmem (List.mem_singleton_self _), ?_⟩
  rintro h name hname hmem
  rw [List.mem_singleton.1 hmem] at hname
  exact h hname

namespace Parser

open Grammar

variable {α β : Type} {x : Parser α} {c c' : List Lexeme} {a : α}
variable {follow follow' : List Lexeme → Prop} {levels : Nat}

/-! ### Refusing repeated names -/

/-- A parser that refuses a list since a name is repeated. -/
def Refuses (x : Parser α) (c : List Lexeme) (follow : List Lexeme → Prop) : Prop :=
  ∀ rest j, follow rest → ∃ name procedure line stopped,
    x ⟨c ++ rest, j⟩ = .error ⟨.duplicateBinding name procedure, line⟩ stopped

/-- A parser that reads a list if something holds, and refuses it if not. -/
structure Settles (x : Parser α) (c : List Lexeme) (a : α) (good : Prop)
    (follow : List Lexeme → Prop) : Prop where
  /-- Good lists are read. -/
  reads : good → Reads x c a follow
  /-- The others are refused. -/
  refuses : ¬ good → Refuses x c follow

/-- What is refused by the second step is refused by the sequence. -/
theorem Refuses.after {f : α → Parser β} (hf : Refuses (f a) c' follow')
    (hx : Reads x c a follow) (hfollow : ∀ rest, follow' rest → follow (c' ++ rest)) :
    Refuses (x >>= f) (c ++ c') follow' := by
  intro rest j hrest
  obtain ⟨j₁, hstep⟩ := hx (c' ++ rest) j (hfollow rest hrest)
  obtain ⟨name, procedure, line, stopped, hstop⟩ := hf rest j₁ hrest
  rw [List.append_assoc]
  exact ⟨name, procedure, line, stopped, (bind_of_ok hstep).trans hstop⟩

/-- What is refused by the first step is refused by the sequence. -/
theorem Refuses.before (f : α → Parser β) (hx : Refuses x c follow)
    (hfollow : ∀ rest, follow' rest → follow (c' ++ rest)) :
    Refuses (x >>= f) (c ++ c') follow' := by
  intro rest j hrest
  obtain ⟨name, procedure, line, stopped, hstop⟩ := hx (c' ++ rest) j (hfollow rest hrest)
  rw [List.append_assoc]
  exact ⟨name, procedure, line, stopped, bind_of_error hstop⟩

namespace Settles

variable {good good' : Prop} {f : α → Parser β} {b : β}

theorem weaken (h : Settles x c a good follow) (hfollow : ∀ rest, follow' rest → follow rest) :
    Settles x c a good follow' where
  reads hgood := (h.reads hgood).weaken hfollow
  refuses hbad rest j hrest := h.refuses hbad rest j (hfollow rest hrest)

/-- A parser that does the same on the streams in question settles the same. -/
theorem congr {x' : Parser α} (h : Settles x c a good follow)
    (hx' : ∀ rest j, follow rest → x' ⟨c ++ rest, j⟩ = x ⟨c ++ rest, j⟩) :
    Settles x' c a good follow where
  reads hgood rest j hrest := by
    rw [hx' rest j hrest]
    exact h.reads hgood rest j hrest
  refuses hbad rest j hrest := by
    rw [hx' rest j hrest]
    exact h.refuses hbad rest j hrest

/-- A sequence of two steps that settle what they are given. -/
theorem bind (hx : Settles x c a good follow) (hf : Settles (f a) c' b good' follow')
    (hfollow : ∀ rest, follow' rest → follow (c' ++ rest)) :
    Settles (x >>= f) (c ++ c') b (good ∧ good') follow' where
  reads h := (hx.reads h.1).bind (hf.reads h.2) hfollow
  refuses h := by
    by_cases hgood : good
    · exact (hf.refuses fun hgood' ↦ h ⟨hgood, hgood'⟩).after (hx.reads hgood) hfollow
    · exact (hx.refuses hgood).before f hfollow

/-- What is always read is settled. -/
theorem of_reads (h : Reads x c a follow) : Settles x c a True follow :=
  ⟨fun _ ↦ h, fun hbad ↦ absurd trivial hbad⟩

/-- A sequence whose second step settles. -/
theorem after (hx : Reads x c a follow) (hf : Settles (f a) c' b good follow')
    (hfollow : ∀ rest, follow' rest → follow (c' ++ rest)) :
    Settles (x >>= f) (c ++ c') b good follow' := by
  have hseq := (of_reads hx).bind hf hfollow
  rwa [true_and] at hseq

/-- A sequence whose first step settles. -/
theorem andReads (hx : Settles x c a good follow) (hf : Reads (f a) c' b follow')
    (hfollow : ∀ rest, follow' rest → follow (c' ++ rest)) :
    Settles (x >>= f) (c ++ c') b good follow' := by
  have hseq := hx.bind (of_reads hf) hfollow
  rwa [and_true] at hseq

/-- A loop that is given the number of the tokens left. -/
theorem remaining {g : Nat → Parser α}
    (h : ∀ bound, Settles (g bound) c a good
      (fun rest ↦ follow rest ∧ c.length + rest.length ≤ bound)) :
    Settles (remaining >>= g) c a good follow where
  reads hgood := .remaining fun bound ↦ (h bound).reads hgood
  refuses hbad rest j hrest := by
    refine (h (c ++ rest).length).refuses hbad rest j ⟨hrest, ?_⟩
    exact Nat.le_of_eq List.length_append.symm

end Settles

/-! ### Procedures -/

/-- A list of names, with a closing token that is none of them. -/
theorem commaList_reads_names {closing : Token} {names : List String}
    (h : CommaList IsName closing c names) (hne : closing ≠ .symbol .comma)
    (hname : ∀ name, closing ≠ .identifier name) :
    Reads (commaList identifier closing) c names Anything := by
  refine commaList_reads (n := c.length) (fun c name hname _ ↦ identifier_reads hname)
    (fun _ _ ↦ trivial) (fun _ _ ↦ trivial) hne ?_ h (Nat.le_refl _)
  rintro c name ⟨line, rfl⟩
  exact ⟨_, _, rfl, (hname name).symm⟩

/-- Local variables are read, also if there are none. Then no keyword for them follows. -/
theorem localNames_reads {names : List String} (h : IsLocals c names) :
    Reads localNames c names (fun rest ↦ ¬ StartsWith (.keyword .varKw) rest) := by
  cases h with
  | none => exact (take?_reads_none _).map (.pure [])
  | some line h =>
    have hnames := commaList_reads_names h (by simp) (by simp)
    exact (take?_reads_some _ line).andThen (hnames.weaken fun _ _ ↦ trivial)

/-- The check of the names consumes nothing, and is what settles a procedure. -/
theorem checkDistinct_settles (p : Procedure) :
    Settles (checkDistinct p.name (p.params ++ p.locals) p.line) [] () p.boundNames.Nodup
      follow := by
  refine ⟨fun hgood rest j _ ↦ ⟨j, ?_⟩, fun hbad rest j _ ↦ ?_⟩
  · rw [checkDistinct, (firstRepeated?_boundNames p).2 hgood]
    rfl
  · rw [← firstRepeated?_boundNames] at hbad
    obtain ⟨name, hname⟩ := Option.ne_none_iff_exists'.1 hbad
    rw [checkDistinct, hname]
    exact ⟨name, p.name, p.line, _, rfl⟩

/-- What may follow a procedure or the list of them. -/
def BeginsStatement (rest : List Lexeme) : Prop :=
  ∃ found rest', rest = found :: rest' ∧ startsStatement found.token

/-- What begins a statement is no other token than that. -/
theorem BeginsStatement.not_startsWith {token : Token} {rest : List Lexeme}
    (h : BeginsStatement rest) (htoken : startsStatement token = false) :
    ¬ StartsWith token rest := by
  obtain ⟨found, rest', rfl, hstarts⟩ := h
  refine not_startsWith_cons ?_
  rintro rfl
  rw [htoken] at hstarts
  cases hstarts

/-- A block begins with a statement, whatever comes behind it. -/
theorem beginsStatement_append {block : Block} (rest : List Lexeme)
    (h : Sequence .attached (IsStatement .attached) c block) : BeginsStatement (c ++ rest) := by
  obtain ⟨found, c', rfl, hstarts⟩ := h.head fun _ _ h ↦ h
  exact ⟨found, c' ++ rest, rfl, hstarts⟩

/-- The names are checked before the body is parsed. So a procedure with a repeated name is refused
whatever its body is. -/
theorem procedureBody_settles {p : Procedure} {semicolon : List Lexeme} (line : Nat)
    (hblock : Sequence .attached (IsStatement .attached) c p.body) (hlevels : c.length ≤ levels)
    (hsemicolon : Optional (.symbol .semicolon) semicolon) :
    Settles (procedureBody (statements levels) p.name p.params p.locals p.line)
      (c ++ ⟨.keyword .endKw, line⟩ :: semicolon) p p.boundNames.Nodup
      (fun rest ↦ ¬ StartsWith (.symbol .semicolon) rest) := by
  have hstatements := statements_reads_of_sequence hblock levels hlevels
  have hskip : Reads skipSemicolon semicolon ()
      (fun rest ↦ ¬ StartsWith (.symbol .semicolon) rest) :=
    (skipSemicolon_reads hsemicolon).weaken fun _ hrest _ ↦ hrest
  have hcheck : Settles (checkDistinct p.name (p.params ++ p.locals) p.line) [] ()
      p.boundNames.Nodup Anything := checkDistinct_settles p
  exact hcheck.andReads (hstatements.bind
    ((expect_reads _ line).andThen (hskip.map ((Reads.note _).map (.pure p))))
    fun _ _ ↦ ⟨_, _, rfl, rfl⟩) fun _ _ ↦ trivial

/-- A procedure that the grammar derives is read if its names are distinct, and otherwise refused
for one that is not. -/
theorem procedure_settles {p : Procedure} (h : IsProcedure .attached c p) (levels : Nat)
    (hlevels : c.length ≤ levels) :
    Settles (procedure levels) c p p.boundNames.Nodup
      (fun rest ↦ ¬ StartsWith (.symbol .semicolon) rest) := by
  cases h with
  | @intro c₁ c₂ c₃ semicolon params locals block name line line₁ line₂ line₃ hparams hlocals hblock
      hsemicolon =>
    simp only [List.length_cons, List.length_append] at hlevels
    obtain ⟨levels, rfl⟩ : ∃ l, levels = l + 1 := ⟨levels - 1, by omega⟩
    have hlength : c₃.length ≤ levels := by omega
    have hbody : Settles (procedureBody (statements levels) name params locals line)
        (c₃ ++ ⟨.keyword .endKw, line₃⟩ :: semicolon) ⟨name, params, locals, block, line⟩
        (Procedure.boundNames ⟨name, params, locals, block, line⟩).Nodup
        (fun rest ↦ ¬ StartsWith (.symbol .semicolon) rest) :=
      procedureBody_settles (p := ⟨name, params, locals, block, line⟩) line₃ hblock hlength
        hsemicolon
    -- all but the body is always read, so the procedure is settled as the body is
    have hafter : Settles (afterProcedure (statements levels) line) _ _ _ _ :=
      .after (identifier_reads ⟨line₁, rfl⟩) (.after (expect_reads _ line₂)
        (.after (commaList_reads_names hparams (by simp) (by simp))
          (.after (localNames_reads hlocals) hbody fun rest _ ↦ ?_) fun _ _ ↦ trivial)
        fun _ _ ↦ trivial) fun _ _ ↦ trivial
    · exact .after (expect_reads _ line) hafter fun _ _ ↦ trivial
    · rw [List.append_assoc]
      exact (beginsStatement_append _ hblock).not_startsWith rfl

/-! ### Programs -/

/-- No semicolon stands where a procedure or a statement begins. -/
theorem not_startsWith_semicolon {ps : List Procedure} {rest : List Lexeme}
    (h : IsProcedures .attached c ps) (hrest : BeginsStatement rest) :
    ¬ StartsWith (.symbol .semicolon) (c ++ rest) := by
  cases h with
  | nil => exact hrest.not_startsWith rfl
  | cons hp _ =>
    obtain ⟨line, c', rfl⟩ := hp.startsWith
    exact not_startsWith_cons (by simp)

/-- Procedures in front of the first statement. They are refused with the first one that repeats a
name, and those before it are read. -/
theorem moreProcedures_settles {ps : List Procedure} (h : IsProcedures .attached c ps)
    (hlevels : c.length ≤ levels) (bound : Nat) :
    Settles (moreProcedures (procedure levels) bound) c ps (∀ p ∈ ps, p.boundNames.Nodup)
      (fun rest ↦ BeginsStatement rest ∧ c.length + rest.length ≤ bound) := by
  induction h generalizing bound with
  | nil =>
    refine ⟨fun _ ↦ ?_, fun hbad ↦ absurd (by simp) hbad⟩
    rintro rest j ⟨hrest, hbound⟩
    have hkeyword : ¬ StartsWith (.keyword .procedureKw) rest := hrest.not_startsWith rfl
    obtain ⟨⟨token, line⟩, rest, rfl, -⟩ := hrest
    rw [List.length_nil, List.length_cons] at hbound
    obtain ⟨bound, rfl⟩ : ∃ b, bound = b + 1 := ⟨bound - 1, by omega⟩
    refine ⟨j, ?_⟩
    rw [List.nil_append, moreProcedures_cons, if_neg]
    rintro rfl
    exact hkeyword ⟨line, rest, rfl⟩
  | @cons c c' p ps hp hps ih =>
    rw [List.length_append] at hlevels
    have hpos := hp.pos
    have hfirst := procedure_settles hp levels (by omega)
    have hothers : Settles (moreProcedures (procedure levels) (bound - 1) >>= fun others ↦
        pure (p :: others)) (c' ++ []) (p :: ps) (∀ q ∈ ps, q.boundNames.Nodup)
        (fun rest ↦ BeginsStatement rest ∧ c'.length + rest.length ≤ bound - 1) :=
      (ih (by omega) (bound - 1)).andReads (.pure (p :: ps)) fun _ hrest ↦ hrest
    rw [List.append_nil] at hothers
    have hboth : Settles (procedureThen (procedure levels)
        (moreProcedures (procedure levels) (bound - 1))) (c ++ c') (p :: ps)
        (∀ q ∈ p :: ps, q.boundNames.Nodup)
        (fun rest ↦ BeginsStatement rest ∧ (c ++ c').length + rest.length ≤ bound) := by
      rw [List.forall_mem_cons]
      refine (hfirst.bind hothers fun rest hrest ↦ ?_).weaken fun rest hrest ↦ ⟨hrest.1, ?_⟩
      · exact not_startsWith_semicolon hps hrest.1
      · have hbound := hrest.2
        rw [List.length_append] at hbound
        omega
    refine hboth.congr fun rest j hrest ↦ ?_
    have hbound := hrest.2
    rw [List.length_append] at hbound
    obtain ⟨bound, rfl⟩ : ∃ b, bound = b + 1 := ⟨bound - 1, by omega⟩
    obtain ⟨line, d, rfl⟩ := hp.startsWith
    exact (moreProcedures_cons ..).trans (if_pos rfl)

theorem procedures_settles {ps : List Procedure} (h : IsProcedures .attached c ps)
    (hlevels : c.length ≤ levels) :
    Settles (procedures levels) c ps (∀ p ∈ ps, p.boundNames.Nodup) BeginsStatement :=
  .remaining (moreProcedures_settles h hlevels)

/-- **Programs are read**, or refused for a repeated name, if there are as many levels as tokens. -/
theorem uncheckedProgram_settles {p : Program} (h : IsSource .attached c p)
    (hlevels : c.length ≤ levels) :
    Settles (uncheckedProgram levels) c p p.HasDistinctNames Anything := by
  obtain ⟨c, line, rfl, h⟩ := h
  cases h with
  | @intro c c' ps block hps hblock =>
    simp only [List.length_append] at hlevels
    have hend : Reads (programEnd ⟨ps, block⟩) [⟨.eof, line⟩] ⟨ps, block⟩ Anything :=
      fun _ _ _ ↦ ⟨_, rfl⟩
    have hstatements := (statements_reads_of_sequence hblock levels (by omega)).bind
      (f := fun block ↦ programEnd ⟨ps, block⟩) hend fun rest _ ↦ ⟨_, _, rfl, rfl⟩
    rw [uncheckedProgram_eq, List.append_assoc]
    refine (procedures_settles hps (by omega)).andReads hstatements fun rest _ ↦ ?_
    rw [List.append_assoc]
    exact beginsStatement_append _ hblock

end Parser

end TinyProc
