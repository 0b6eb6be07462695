import TinyProc.Proofs.Syntax.Recognition.Statement

/-!
# Programs are recognised

The last of the parsers, and with them the statement about whole programs
(`uncheckedProgram_recognises`). A procedure that binds a name twice is an error that nothing is
claimed about, as a level too many is.
-/

namespace TinyProc.Parser

open Grammar

variable {n : Nat}

/-! ### Procedures -/

/-- The declaration of locals may be missing; if it is there, it may be empty. -/
theorem localNames_recognises : Recognises n IsLocals localNames (fun _ ↦ localNames) := by
  refine (take?_andThen_recognises (.pure []) fun _ ↦
    commaList_recognises fun _ ↦ identifier_recognises).imp ?_
  rintro c names (⟨rfl, rfl⟩ | ⟨line, c', rfl, h⟩)
  · exact .none
  · exact .some line h

/-- The check takes no token. Its error is not about a token either, and nothing is claimed of it.
-/
theorem checkDistinct_recognises (procedure : String) (names : List String) (line : Nat) :
    Recognises n (fun c _ ↦ c = []) (checkDistinct procedure names line)
      (fun _ ↦ checkDistinct procedure names line) where
  productive := ⟨[], (), rfl⟩
  explained ts j _ := by
    rw [checkDistinct]
    cases firstRepeated? [procedure] names with
    | none => exact .nothing rfl fun _ _ _ _ ↦ rfl
    | some name => trivial

section Bodies

variable {body body' : Parser Block}

/-- What follows the names of a procedure, up to the semicolon behind it. -/
theorem procedureBody_recognises (hbody : ∀ n, Recognises n IsBlock body (fun _ ↦ body'))
    (name : String) (params locals : List String) (line : Nat) :
    Recognises n
      (fun c p ↦ ∃ c' block line' semicolon, c = c' ++ ⟨.keyword .endKw, line'⟩ :: semicolon ∧
        IsBlock c' block ∧ Optional (.symbol .semicolon) semicolon ∧
          p = ⟨name, params, locals, block, line⟩)
      (procedureBody body name params locals line)
      (fun _ ↦ procedureBody body' name params locals line) := by
  refine ((checkDistinct_recognises name (params ++ locals) line).andThen fun _ ↦
    (hbody n).andThen fun block ↦
      (expect_recognises (.keyword .endKw)).andThen fun _ ↦
        skipSemicolon_recognises.andThen fun _ ↦
          (Recognises.note (.declared ⟨name, params, locals, block, line⟩)).andThen fun _ ↦
            .pure (Procedure.mk name params locals block line)).imp ?_
  rintro c p ⟨_, _, _, rfl, rfl, c', block, _, rfl, hblock, _, line', _, rfl, rfl,
    semicolon, _, _, rfl, hsemicolon, _, _, _, rfl, rfl, rfl, rfl⟩
  exact ⟨c', block, line', semicolon, by simp, hblock, hsemicolon, rfl⟩

/-- A procedure behind its keyword. The names are taken from three places of the header. -/
theorem afterProcedure_recognises (hbody : ∀ n, Recognises n IsBlock body (fun _ ↦ body'))
    (line : Nat) :
    Recognises n (fun c ↦ IsProcedure .free (⟨.keyword .procedureKw, line⟩ :: c))
      (afterProcedure body line) (fun _ ↦ afterProcedure body' line) := by
  refine (identifier_recognises.andThen fun name ↦
    (expect_recognises (.symbol .leftParen)).andThen fun _ ↦
      (commaList_recognises fun _ ↦ identifier_recognises).andThen fun params ↦
        localNames_recognises.andThen fun locals ↦
          procedureBody_recognises hbody name params locals line).imp ?_
  rintro c p ⟨_, name, _, rfl, ⟨line₁, rfl⟩, _, line₂, _, rfl, rfl, c₁, params, _, rfl, hparams,
    c₂, locals, _, rfl, hlocals, c₃, block, line₃, semicolon, rfl, hblock, hsemicolon, rfl⟩
  exact .intro name line line₁ line₂ line₃ hparams hlocals hblock hsemicolon

end Bodies

/-- A procedure with its keyword, if a level is left for the body. -/
theorem procedureWith_recognises {body? body'? : Option (Parser Block)}
    (hbody : RecognisesInside IsBlock body? body'?) :
    Recognises n (IsProcedure .free) (procedureWith body?) (fun _ ↦ procedureWith body'?) := by
  refine ((expect_recognises (.keyword .procedureKw)).andThen
    (H := fun line c ↦ IsProcedure .free (⟨.keyword .procedureKw, line⟩ :: c))
    fun line ↦ ?_).imp ?_
  · rcases body? with _ | body
    · have hblock : IsBlock _ _ := .last (.read "" 0 0) (.inl rfl)
      have hp := IsProcedure.intro "" line 0 0 0 (.empty 0) .none hblock (.inl rfl)
      exact ⟨⟨_, _, hp⟩, fun _ _ _ ↦ trivial⟩
    rcases body'? with _ | body'
    · exact hbody.elim
    exact afterProcedure_recognises hbody line
  · rintro c p ⟨c₁, line, c₂, rfl, rfl, hp⟩
    exact hp

/-- **Procedures are recognised**, and more levels make no difference. -/
theorem procedure_recognises {levels levels' : Nat} (h : levels ≤ levels') :
    Recognises n (IsProcedure .free) (procedure levels) (fun _ ↦ procedure levels') := by
  rw [procedure_eq, procedure_eq levels']
  refine procedureWith_recognises ?_
  cases levels with
  | zero => trivial
  | succ levels =>
    obtain ⟨m, rfl⟩ : ∃ m, levels' = m + 1 := ⟨levels' - 1, by omega⟩
    exact fun _ ↦ statements_recognises (by omega)

/-- The loop over procedures, by induction on its bound. It stops at the first token that is not
their keyword. -/
theorem moreProcedures_recognises {proc proc' : Parser Procedure}
    (hproc : ∀ n, Recognises n (IsProcedure .free) proc (fun _ ↦ proc')) (bound : Nat)
    (hn : n ≤ bound) :
    Recognises n (IsProcedures .free) (moreProcedures proc bound) (moreProcedures proc') := by
  have hnil : ∀ bound j, Explained (IsProcedures .free) (moreProcedures proc') [] j
      (moreProcedures proc bound ⟨[], j⟩) := by
    intro bound j
    rw [moreProcedures_nil]
    exact .nothing_nil .nil fun m ↦ moreProcedures_nil proc' m j
  -- a procedure takes a token at least, so a bound for the stream is one for what is left of it
  induction bound generalizing n with
  | zero => exact .of_head ⟨[], [], .nil⟩ (hnil 0) fun _ _ _ hts ↦ by omega
  | succ bound ih =>
    refine .of_head ⟨[], [], .nil⟩ (hnil (bound + 1)) fun t ts j hts ↦ ?_
    rw [moreProcedures_cons]
    split
    · rename_i hkeyword
      have hrest := ((hproc n).bind (k := fun _ ↦ 1)
        (g := fun m first ↦ moreProcedures proc' (m - 1) >>= fun others ↦
          Pure.pure (first :: others))
        (fun _ _ h ↦ h.pos) fun first ↦
          (ih (n := n - 1) (by omega)).andThen fun others ↦
            .pure (first :: others)).explained (t :: ts) j hts
      refine (hrest.imp ?_).congr_cons fun m ts' ↦ ?_
      · rintro c ps ⟨c₁, p, c₂, rfl, hp, c₃, others, c₄, rfl, hothers, rfl, rfl⟩
        rw [List.append_nil]
        exact .cons hp hothers
      · rw [moreProcedures_cons, if_pos hkeyword]
        rfl
    · rename_i hkeyword
      refine .nothing_cons .nil fun m ts' ↦ ?_
      rw [moreProcedures_cons, if_neg hkeyword]

/-- All procedures of a program, with a bound taken from the stream. -/
theorem procedures_recognises {levels levels' : Nat} (h : levels ≤ levels') :
    Recognises n (IsProcedures .free) (procedures levels) (fun _ ↦ procedures levels') :=
  .remaining fun m ↦ moreProcedures_recognises (fun _ ↦ procedure_recognises h) m (Nat.le_refl m)

/-! ### Programs -/

/-- The end of the input is a token like others here. -/
theorem programEnd_recognises (p : Program) :
    Recognises n (fun c p' ↦ p' = p ∧ ∃ line, c = [⟨.eof, line⟩]) (programEnd p)
      (fun _ ↦ programEnd p) := by
  refine .of_head ⟨_, p, rfl, 0, rfl⟩ (fun _ ↦ ⟨_, p, rfl, 0, rfl⟩) fun ⟨token, line⟩ ts j _ ↦ ?_
  cases token with
  | eof => exact .token ⟨rfl, line, rfl⟩ fun _ _ ↦ rfl
  | _ => exact .failAt ⟨_, p, rfl, 0, rfl⟩ fun _ ts' ↦ ⟨⟨ts', j⟩, rfl⟩

/-- **Programs are recognised**, with the end of the input behind them. -/
theorem uncheckedProgram_recognises {levels levels' : Nat} (h : levels ≤ levels') :
    Recognises n (IsSource .free) (uncheckedProgram levels)
      (fun _ ↦ uncheckedProgram levels') := by
  rw [uncheckedProgram_eq, uncheckedProgram_eq]
  refine ((procedures_recognises h).andThen fun ps ↦ (statements_recognises h).andThen fun block ↦
    programEnd_recognises ⟨ps, block⟩).imp ?_
  rintro c p ⟨c₁, ps, _, rfl, hps, c₂, block, _, rfl, hblock, rfl, line, rfl⟩
  exact ⟨c₁ ++ c₂, line, by simp, .intro hps hblock⟩

end TinyProc.Parser
