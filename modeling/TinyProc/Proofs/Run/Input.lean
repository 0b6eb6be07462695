import TinyProc.Proofs.Run.Composition

/-!
# Input is read by whole lines

Whatever a program does, it has consumed some of the lines that its input begins with, one for each
read that it has attempted while there was input left, and it knows nothing of what follows them
(`Run.input_by_lines`). What lines an input begins with is said by `Lines`, without reference to how
they are cut off. How many reads there were is told by the journal: it has a note of each that was
successful, and one that was not ends the run.

All three are said of a run at once (`Run.Reads`), since the lines of a run that follows another are
appended to those of the first. If there is anything left for the second to read, then the last line
of the first was ended; so whatever is put in place of what neither has consumed leaves the lines of
both as they are.
-/

namespace TinyProc

open Console

/-! ### Lines of an input -/

/-- The lines that an input begins with, and what follows them. A line ends in the byte for that;
only what nothing follows may be a line without it. -/
inductive Lines : List UInt8 → List (List UInt8) → List UInt8 → Prop
  /-- No line. -/
  | none (rest : List UInt8) : Lines rest [] rest
  /-- A line that is ended, and then others. -/
  | ended {body input rest : List UInt8} {lines : List (List UInt8)} (hbody : lineEnd ∉ body)
    (h : Lines input lines rest) :
    Lines (body ++ lineEnd :: input) ((body ++ [lineEnd]) :: lines) rest
  /-- The last line, which is not ended. -/
  | last {body : List UInt8} (hbody : lineEnd ∉ body) (hne : body ≠ []) : Lines body [body] []

/-- Bytes that do not stop within a line. -/
def IsWhole (bytes : List UInt8) : Prop :=
  bytes = [] ∨ bytes.getLast? = some lineEnd

section Lines

variable {input rest rest' body : List UInt8} {lines lines' : List (List UInt8)}

theorem isWhole_append_lineEnd (body : List UInt8) : IsWhole (body ++ [lineEnd]) :=
  .inr List.getLast?_concat

namespace Lines

/-- The lines and what follows them make up the input. -/
theorem flatten_append (h : Lines input lines rest) : input = lines.flatten ++ rest := by
  induction h with
  | none rest => rfl
  | ended hbody h ih => simp [ih]
  | last hbody hne => simp

/-- Lines, and then more lines of what follows them. -/
theorem append (h : Lines input lines rest) (h' : Lines rest lines' rest') :
    Lines input (lines ++ lines') rest' := by
  induction h with
  | none rest => exact h'
  | ended hbody h ih => exact .ended hbody (ih h')
  | last hbody hne =>
    -- nothing follows, and so there are no other lines
    generalize hnil : ([] : List UInt8) = rest at h'
    cases h' with
    | none => exact hnil ▸ .last hbody hne
    | ended hbody' h' => simp at hnil
    | last hbody' hne' => exact absurd hnil.symm hne'

/-- Where something follows, the last line is ended. -/
theorem isWhole (h : Lines input lines rest) (hrest : rest ≠ []) : IsWhole lines.flatten := by
  induction h with
  | none rest => exact .inl rfl
  | ended hbody h ih =>
    rw [List.flatten_cons]
    obtain hnil | hlast := ih hrest
    · rw [hnil, List.append_nil]
      exact isWhole_append_lineEnd _
    · right
      rw [List.getLast?_append, hlast]
      rfl
  | last hbody hne => exact absurd rfl hrest

/-- Where lines are not stopped within, neither are the first of them nor the others. -/
theorem isWhole_append (h : Lines input lines rest) (h' : Lines rest lines' rest')
    (hwhole : IsWhole (lines ++ lines').flatten) :
    IsWhole lines.flatten ∧ IsWhole lines'.flatten := by
  rw [List.flatten_append] at hwhole
  by_cases hnil : lines'.flatten = []
  · rw [hnil, List.append_nil] at hwhole
    exact ⟨hwhole, .inl hnil⟩
  · refine ⟨h.isWhole ?_, ?_⟩
    · rw [h'.flatten_append]
      exact List.append_ne_nil_of_left_ne_nil hnil _
    · obtain ⟨b, hb⟩ := Option.isSome_iff_exists.1 (List.getLast?_isSome.2 hnil)
      obtain hall | hlast := hwhole
      · exact absurd (List.append_eq_nil_iff.1 hall).2 hnil
      · rw [List.getLast?_append, hb] at hlast
        exact .inr (hb.trans hlast)

/-- No line is empty. -/
theorem ne_nil_of_mem (h : Lines input lines rest) {line : List UInt8} (hline : line ∈ lines) :
    line ≠ [] := by
  induction h with
  | none rest => cases hline
  | ended hbody h ih =>
    obtain rfl | hline := List.mem_cons.1 hline
    · exact List.append_ne_nil_of_right_ne_nil _ (List.cons_ne_nil _ _)
    · exact ih hline
  | last hbody hne =>
    rw [List.mem_singleton] at hline
    exact hline ▸ hne

end Lines

/-! ### Cutting a line off -/

/-- A line that is ended is cut off behind its end. -/
theorem splitLine_ended (hbody : lineEnd ∉ body) (rest : List UInt8) :
    splitLine (body ++ lineEnd :: rest) = (body ++ [lineEnd], rest) := by
  induction body with
  | nil => rfl
  | cons b body ih =>
    rw [List.mem_cons, not_or] at hbody
    rw [List.cons_append, splitLine, if_neg (Ne.symm hbody.1), ih hbody.2]
    rfl

/-- Where no line is ended, everything is one line. -/
theorem splitLine_last (hbody : lineEnd ∉ body) : splitLine body = (body, []) := by
  induction body with
  | nil => rfl
  | cons b body ih =>
    rw [List.mem_cons, not_or] at hbody
    rw [splitLine, if_neg (Ne.symm hbody.1), ih hbody.2]

/-- What is cut off an input is its first line, unless there is none. -/
theorem lines_splitLine (hne : input ≠ []) :
    Lines input [(splitLine input).1] (splitLine input).2 := by
  by_cases hend : lineEnd ∈ input
  · obtain ⟨body, rest, rfl, hbody⟩ := List.eq_append_cons_of_mem hend
    rw [splitLine_ended hbody]
    exact .ended hbody (.none rest)
  · rw [splitLine_last hend]
    exact .last hend hne

/-- A line that is ended is cut off in the same way, whatever follows it. -/
theorem splitLine_of_isWhole (hne : input ≠ []) (hwhole : IsWhole (splitLine input).1)
    (rest : List UInt8) :
    splitLine ((splitLine input).1 ++ rest) = ((splitLine input).1, rest) := by
  by_cases hend : lineEnd ∈ input
  · obtain ⟨body, others, rfl, hbody⟩ := List.eq_append_cons_of_mem hend
    rw [splitLine_ended hbody, List.append_assoc]
    exact splitLine_ended hbody rest
  · rw [splitLine_last hend] at hwhole
    obtain hnil | hlast := hwhole
    · exact absurd hnil hne
    · exact absurd (List.mem_of_getLast? hlast) hend

end Lines

/-- Displaying does not look at the input. -/
theorem Console.display_withInput (c : Console) (value : Word) (input : List UInt8) :
    Console.display { c with input := input } value =
      ((c.display value).1, { (c.display value).2 with input := input }) := by
  have hfull : Console.isFull { c with input := input } = c.isFull := rfl
  rw [Console.display, Console.display, hfull]
  by_cases h : c.isFull
  · rw [if_pos h, if_pos h]
  · rw [if_neg h, if_neg h]
    dsimp only
    split <;> rfl

/-- A display never fails for what has been read. -/
theorem Console.display_ne_notText (c : Console) (value : Word) :
    (c.display value).1 ≠ some .notText := by
  unfold Console.display
  split
  · nofun
  · dsimp only
    split <;> nofun

/-! ### Reads in the journal -/

/-- A read that was successful. -/
def Event.isRead : Event → Bool
  | read _ _ _ => true
  | _ => false

namespace Journal

variable {j : Journal}

/-- How many reads have been noted. -/
def reads (j : Journal) : Nat :=
  j.events.countP Event.isRead

@[simp] theorem reads_upTo (limit : Level) : (upTo limit).reads = 0 := rfl

@[simp] theorem keeps_note (j : Journal) (e : Event) (level : Level) :
    (j.note e).keeps level = j.keeps level := by
  rw [note]
  split <;> rfl

/-- A read is noted in every journal that keeps the coarser events. -/
theorem reads_note_read (hj : j.keeps .debug) (name : String) (value : Word) (line : Nat) :
    (j.note (.read name value line)).reads = j.reads + 1 := by
  rw [note, if_pos (show j.keeps (Event.read name value line).level from hj)]
  exact Array.countP_push_of_pos rfl

/-- Only a note of a read counts as one. -/
theorem reads_note {e : Event} (he : e.isRead = false) : (j.note e).reads = j.reads := by
  rw [note]
  split
  · exact Array.countP_push_of_neg (by simp [he])
  · rfl

end Journal

/-! ### What a run reads -/

/-- The machine with another input. -/
def Machine.withInput (m : Machine) (input : List UInt8) : Machine :=
  { m with console := { m.console with input := input } }

/-- The machine with one more note. -/
def Machine.noting (m : Machine) (e : Event) : Machine :=
  { m with journal := m.journal.note e }

/-- A line of input was no good. -/
def FaultCause.rejectsLine : FaultCause → Bool
  | inputFormat _ | stream .notText => true
  | _ => false

theorem FaultCause.rejectsLine_of_not_isOfConsole {cause : FaultCause}
    (h : ¬ cause.IsOfConsole) : cause.rejectsLine = false := by
  cases cause with
  | inputFormat input => exact absurd trivial h
  | stream failure => exact absurd trivial h
  | _ => rfl

/-- A line that is there either holds a word or is rejected. -/
theorem Console.rejectsLine_of_readLine {name : String} {line : List UInt8} {cause : FaultCause}
    (hne : line ≠ []) (h : readLine name line = .error cause) : cause.rejectsLine := by
  obtain ⟨hnil, -⟩ | ⟨-, rfl | ⟨text, rfl⟩⟩ := readLine_eq_error h
  · exact absurd hnil hne
  · rfl
  · rfl

namespace Run

variable {α β : Type} {m : Machine} {x : Run α}

/-- There was no input left for a read. -/
def IsExhausted (r : EStateM.Result Halt Machine α) : Prop :=
  ∃ name line, halt? r = some (.fault ⟨.inputExhausted name, line⟩)

/-- How many reads have rejected their lines. It is one at most, since it stops the run. -/
def rejections (r : EStateM.Result Halt Machine α) : Nat :=
  match halt? r with
  | some (.fault f) => if f.cause.rejectsLine then 1 else 0
  | _ => 0

/-- Whether a run has ended for lack of input is not seen from its machine. -/
theorem isExhausted_mapMachine (f : Machine → Machine) (r : EStateM.Result Halt Machine α) :
    IsExhausted (mapMachine f r) ↔ IsExhausted r := by
  simp only [IsExhausted, halt?_mapMachine]

theorem rejections_mapMachine (f : Machine → Machine) (r : EStateM.Result Halt Machine α) :
    rejections (mapMachine f r) = rejections r := by
  simp only [rejections, halt?_mapMachine]

/-- A fault rejects a line exactly if its cause says so. A run has one fault at most. -/
theorem rejections_fault (cause : FaultCause) (line : Nat) :
    rejections (.error (.fault ⟨cause, line⟩) m : EStateM.Result Halt Machine α) =
      if cause.rejectsLine then 1 else 0 := rfl

/-- A run on a machine reads these lines: it consumes them, it does not know what follows them, and
it notes as many reads as there are lines, but for one that rejects its line. -/
structure Reads (x : Run α) (m : Machine) (lines : List (List UInt8)) : Prop where
  /-- The input begins with the lines, and what follows them is left. -/
  consumed : Lines m.console.input lines (stateLeft (x m)).console.input
  /-- What follows the lines makes no difference, unless it was looked for. -/
  unseen : IsWhole lines.flatten → ¬ IsExhausted (x m) →
    ∀ rest, x (m.withInput (lines.flatten ++ rest)) = mapMachine (·.withInput rest) (x m)
  /-- With another journal only the notes are others, and they tell the number of lines. -/
  noted : ∀ j : Journal, j.keeps .debug → ∃ j' : Journal, j'.keeps .debug ∧
    x { m with journal := j } = mapMachine (fun m' ↦ { m' with journal := j' }) (x m) ∧
    j'.reads + rejections (x m) = j.reads + lines.length

/-- On every machine there are lines that a run reads. -/
def ReadsLines (α : Type) (x : Run α) : Prop :=
  ∀ m, ∃ lines, Reads x m lines

/-- A run that rejects no line, and has no reads to note. -/
def NotesNoRead (x : Run α) (m : Machine) : Prop :=
  rejections (x m) = 0 ∧ ∀ j : Journal, ∃ j' : Journal, j'.keeps = j.keeps ∧ j'.reads = j.reads ∧
    x { m with journal := j } = mapMachine (fun m' ↦ { m' with journal := j' }) (x m)

/-- A run that does not look at the input consumes no lines of it. -/
theorem Reads.nothing
    (hinput : ∀ input, x (m.withInput input) = mapMachine (·.withInput input) (x m))
    (hnoted : NotesNoRead x m) : Reads x m [] where
  consumed := by
    have hsame := congrArg (fun r ↦ (stateLeft r).console.input) (hinput m.console.input)
    rw [stateLeft_mapMachine] at hsame
    have hleft : (stateLeft (x m)).console.input = m.console.input := hsame
    rw [hleft]
    exact .none _
  unseen _ _ := hinput
  noted j hj := by
    obtain ⟨hrejections, hjournal⟩ := hnoted
    obtain ⟨j', hkeeps, hreads, hsame⟩ := hjournal j
    exact ⟨j', hkeeps ▸ hj, hsame, by rw [hreads, hrejections]; rfl⟩

/-- The lines of the second run follow those of the first. If the first has consumed a line without
an end, nothing is left for the second. -/
theorem ReadsLines.bind {f : α → Run β} (hx : ReadsLines α x) (hf : ∀ a, ReadsLines β (f a)) :
    ReadsLines β (x >>= f) := by
  intro m
  obtain ⟨lines, hlines⟩ := hx m
  cases h : x m with
  | error e m₁ =>
    refine ⟨lines, ?_, ?_, ?_⟩
    · have hconsumed := hlines.consumed
      rw [h] at hconsumed
      rw [bind_of_error h]
      exact hconsumed
    · intro hwhole hleft rest
      have hunseen := hlines.unseen hwhole
      rw [h] at hunseen
      rw [bind_of_error h] at hleft ⊢
      exact bind_of_error (hunseen hleft rest)
    · intro j hj
      obtain ⟨j', hj', hsame, hreads⟩ := hlines.noted j hj
      rw [h] at hsame hreads
      rw [bind_of_error h]
      exact ⟨j', hj', bind_of_error hsame, hreads⟩
  | ok a m₁ =>
    obtain ⟨others, hothers⟩ := hf a m₁
    have hconsumed := hlines.consumed
    rw [h] at hconsumed
    refine ⟨lines ++ others, ?_, ?_, ?_⟩
    · rw [bind_of_ok h]
      exact hconsumed.append hothers.consumed
    · intro hwhole hleft rest
      rw [bind_of_ok h] at hleft ⊢
      obtain ⟨hwhole₁, hwhole₂⟩ := hconsumed.isWhole_append hothers.consumed hwhole
      -- for the first run the lines of the second are part of what follows
      have hunseen := hlines.unseen hwhole₁ (by rw [h]; nofun) (others.flatten ++ rest)
      rw [h] at hunseen
      rw [List.flatten_append, List.append_assoc, bind_of_ok hunseen]
      exact hothers.unseen hwhole₂ hleft rest
    · intro j hj
      obtain ⟨j₁, hj₁, hsame₁, hreads₁⟩ := hlines.noted j hj
      obtain ⟨j₂, hj₂, hsame₂, hreads₂⟩ := hothers.noted j₁ hj₁
      rw [h] at hsame₁ hreads₁
      have hnone : rejections (.ok a m₁ : EStateM.Result Halt Machine α) = 0 := rfl
      refine ⟨j₂, hj₂, ?_, ?_⟩
      · rw [bind_of_ok hsame₁, bind_of_ok h]
        exact hsame₂
      · rw [bind_of_ok h, List.length_append]
        omega

/-! ### Single steps -/

section Steps

variable {s : ScopeId}

/-- What leaves the console alone reads no line, and has to note none. -/
theorem readsLines_of_detached (hx : Detached α x) (hnoted : ∀ m, NotesNoRead x m) :
    ReadsLines α x :=
  fun m ↦ ⟨[], .nothing (fun input ↦ hx.mapConsole (fun c ↦ { c with input := input }) m)
    (hnoted m)⟩

/-- Looking up a variable is no read. -/
theorem lookup_notesNoRead (name : String) (line : Nat) :
    NotesNoRead (lookup s name line) m := by
  refine ⟨?_, fun j ↦ ⟨j, rfl, rfl, ?_⟩⟩
  · rw [lookup_eq]
    rcases m.env.get? s name with _ | value <;> split <;> rfl
  · rw [lookup_eq, lookup_eq]
    dsimp only
    rcases m.env.get? s name with _ | value <;> split <;> rfl

/-- An assignment is noted as such. -/
theorem assign_notesNoRead (name : String) (value : Word) :
    NotesNoRead (assign s name value) m := by
  by_cases hs : m.env.IsLive s
  · refine ⟨?_, fun j ↦ ⟨j.note (.assigned name value (m.env.target s name).index),
      funext (j.keeps_note _), j.reads_note rfl, ?_⟩⟩
    · rw [assign_eq, if_pos hs]
      rfl
    · rw [assign_eq, assign_eq, if_pos hs, if_pos hs]
      rfl
  · refine ⟨?_, fun j ↦ ⟨j, rfl, rfl, ?_⟩⟩
    · rw [assign_eq, if_neg hs]
      rfl
    · rw [assign_eq, assign_eq, if_neg hs, if_neg hs]
      rfl

theorem declare_notesNoRead (name : String) (value : Word) :
    NotesNoRead (declare s name value) m := by
  refine ⟨?_, fun j ↦ ⟨j, rfl, rfl, ?_⟩⟩
  · rw [declare_eq]
    split <;> rfl
  · rw [declare_eq, declare_eq]
    dsimp only
    split <;> rfl

/-- Looking for a procedure is no read. -/
theorem procedure_notesNoRead (name : String) (line : Nat) :
    NotesNoRead (procedure name line) m := by
  refine ⟨?_, fun j ↦ ⟨j, rfl, rfl, ?_⟩⟩
  · rw [procedure_apply]
    rcases m.env.procedure? name with _ | p <;> rfl
  · rw [procedure_apply, procedure_apply]
    rcases m.env.procedure? name with _ | p <;> rfl

theorem register_notesNoRead (p : Procedure) : NotesNoRead (register p) m := by
  refine ⟨?_, fun j ↦ ⟨j, rfl, rfl, ?_⟩⟩
  · rw [register_eq]
    rcases m.env.register? p with _ | env <;> rfl
  · rw [register_eq, register_eq]
    dsimp only
    rcases m.env.register? p with _ | env <;> rfl

/-- A display leaves the input as it is, also if it fails. -/
theorem display_readsLines (value : Word) (line : Nat) : ReadsLines Unit (display value line) := by
  refine fun m ↦ ⟨[], .nothing (fun input ↦ ?_) ⟨?_, fun j ↦ ⟨j, rfl, rfl, ?_⟩⟩⟩
  · have hdisplay : (m.withInput input).console.display value = ((m.console.display value).1,
        { (m.console.display value).2 with input := input }) :=
      m.console.display_withInput value input
    rw [display_apply, display_apply, hdisplay]
    rcases (m.console.display value).1 with _ | failure <;> rfl
  · rw [display_apply]
    rcases hfailure : (m.console.display value).1 with _ | failure
    · rfl
    · cases failure with
      | notText => exact absurd hfailure (m.console.display_ne_notText value)
      | outputFull => rfl
      | flushFailed => rfl
  · rw [display_apply, display_apply]
    rcases (m.console.display value).1 with _ | failure <;> rfl

/-- The limit on calls is looked at without a read. -/
theorem checkDepth_readsLines (calls line : Nat) : ReadsLines Unit (checkDepth calls line) := by
  refine fun m ↦ ⟨[], .nothing (fun input ↦ ?_) ⟨?_, fun j ↦ ⟨j, rfl, rfl, ?_⟩⟩⟩
  · rw [checkDepth_apply, checkDepth_apply]
    show (if m.console.activeCalls < calls then _ else _) = _
    split <;> rfl
  · rw [checkDepth_apply]
    split <;> rfl
  · rw [checkDepth_apply, checkDepth_apply]
    dsimp only
    split <;> rfl

/-- Without input there is no line, and a read says so. -/
theorem readInto_of_nil (hinput : m.console.input = []) (s : ScopeId) (target : ReadTarget) :
    readInto s target m =
      .error (.fault ⟨.inputExhausted target.name, target.line⟩) m := by
  have hsame : { m.console with input := [] } = m.console := by
    rw [← hinput]
  have hread : m.console.read target.name = (.error (.inputExhausted target.name), m.console) := by
    rw [Console.read, hinput]
    exact congrArg (Prod.mk _) hsame
  rw [readInto_eq, hread]

/-- A read takes the first line, whatever comes of it. -/
theorem readInto_of_splitLine {line rest : List UInt8}
    (hsplit : splitLine m.console.input = (line, rest)) (s : ScopeId) (target : ReadTarget) :
    readInto s target m =
      match readLine target.name line with
      | .ok value =>
        assign s target.name value
          ((m.withInput rest).noting (.read target.name value target.line))
      | .error cause => .error (.fault ⟨cause, target.line⟩) (m.withInput rest) := by
  rw [readInto_eq, Console.read, hsplit]
  rfl

/-- A read finds the input exhausted, or it consumes the first line. -/
theorem readInto_readsLines (s : ScopeId) (target : ReadTarget) :
    ReadsLines Unit (readInto s target) := by
  intro m
  by_cases hinput : m.console.input = []
  · have hread := readInto_of_nil hinput s target
    refine ⟨[], ?_, ?_, ?_⟩
    · rw [hread]
      exact .none _
    · intro _ hleft
      exact absurd ⟨target.name, target.line, by rw [hread]; rfl⟩ hleft
    · intro j hj
      refine ⟨j, hj, ?_, ?_⟩
      · rw [hread]
        exact readInto_of_nil (m := { m with journal := j }) hinput s target
      · rw [hread]
        rfl
  · have hlines := lines_splitLine hinput
    have hwhole := splitLine_of_isWhole hinput
    rcases hsplit : splitLine m.console.input with ⟨line, rest⟩
    rw [hsplit] at hlines hwhole
    have hline : line ≠ [] := hlines.ne_nil_of_mem (List.mem_singleton_self line)
    have hread := readInto_of_splitLine hsplit s target
    refine ⟨[line], ?_, ?_, ?_⟩
    · have hleft : (stateLeft (readInto s target m)).console.input = rest := by
        rw [hread]
        rcases readLine target.name line with cause | value
        · rfl
        · dsimp only
          rw [(assign_detached s target.name value).console_eq]
          rfl
      rw [hleft]
      exact hlines
    · intro hends _ others
      rw [List.flatten_singleton] at hends ⊢
      rw [readInto_of_splitLine (hwhole hends others), hread]
      rcases readLine target.name line with cause | value
      · rfl
      · exact (assign_detached s target.name value).mapConsole
          (fun c ↦ { c with input := others })
          ((m.withInput rest).noting (.read target.name value target.line))
    · intro j hj
      have hread' := readInto_of_splitLine (m := { m with journal := j }) hsplit s target
      rw [hread', hread]
      rcases hword : readLine target.name line with cause | value
      · refine ⟨j, hj, rfl, ?_⟩
        rw [rejections_fault, if_pos (rejectsLine_of_readLine hline hword)]
        rfl
      · obtain ⟨hnone, hnoted⟩ := assign_notesNoRead (s := s) target.name value
          (m := (m.withInput rest).noting (.read target.name value target.line))
        obtain ⟨j', hkeeps, hreads, hsame⟩ := hnoted (j.note (.read target.name value target.line))
        refine ⟨j', ?_, hsame, ?_⟩
        · rw [hkeeps, Journal.keeps_note]
          exact hj
        · rw [hreads, j.reads_note_read hj, hnone]
          rfl

/-- A call reads the lines that its work reads. -/
theorem inCall_readsLines {work : ScopeId → Run α} (hcount : ∀ t, KeepsCount α (work t))
    (hwork : ∀ t, ReadsLines α (work t)) : ReadsLines α (inFreshScope fun t ↦ asCall (work t)) := by
  intro m
  by_cases hcalls : m.console.activeCalls < Console.maxCalls
  · obtain ⟨lines, hlines⟩ := hwork m.env.nextScope m.enterCall
    have hcall : ∀ m' : Machine, m'.console.activeCalls < Console.maxCalls →
        inFreshScope (fun t ↦ asCall (work t)) m' =
          mapMachine (·.leaveCall m'.env.nextScope) (work m'.env.nextScope m'.enterCall) :=
      fun m' h ↦ (inCall_apply hcount m').trans (if_pos h)
    refine ⟨lines, ?_, ?_, ?_⟩
    · rw [hcall m hcalls, stateLeft_mapMachine]
      exact hlines.consumed
    · intro hwhole hleft rest
      rw [hcall m hcalls] at hleft
      rw [hcall m hcalls, hcall (m.withInput (lines.flatten ++ rest)) hcalls]
      rw [isExhausted_mapMachine] at hleft
      have hunseen := hlines.unseen hwhole hleft rest
      refine (congrArg (mapMachine (·.leaveCall m.env.nextScope)) hunseen).trans ?_
      rcases work m.env.nextScope m.enterCall with ⟨a, m'⟩ | ⟨e, m'⟩ <;> rfl
    · intro j hj
      obtain ⟨j', hj', hsame, hreads⟩ := hlines.noted j hj
      refine ⟨j', hj', ?_, ?_⟩
      · rw [hcall m hcalls, hcall { m with journal := j } hcalls]
        refine (congrArg (mapMachine (·.leaveCall m.env.nextScope)) hsame).trans ?_
        rcases work m.env.nextScope m.enterCall with ⟨a, m'⟩ | ⟨e, m'⟩ <;> rfl
      · rw [hcall m hcalls, rejections_mapMachine]
        exact hreads
  · have hcall : ∀ m' : Machine, ¬ m'.console.activeCalls < Console.maxCalls →
        inFreshScope (fun t ↦ asCall (work t)) m' =
          .error .miscounted { m' with env := m'.env.push.pop m'.env.nextScope } :=
      fun m' h ↦ (inCall_apply hcount m').trans (if_neg h)
    refine ⟨[], .nothing (fun input ↦ ?_) ⟨?_, fun j ↦ ⟨j, rfl, rfl, ?_⟩⟩⟩
    · rw [hcall m hcalls, hcall (m.withInput input) hcalls]
      rfl
    · rw [hcall m hcalls]
      rfl
    · rw [hcall m hcalls, hcall { m with journal := j } hcalls]
      rfl

/-- Every run reads whole lines, and as many as it notes. -/
theorem readsLines_compositional : Compositional ReadsLines where
  pure _ := readsLines_of_detached (fun _ _ ↦ rfl) fun _ ↦ ⟨rfl, fun j ↦ ⟨j, rfl, rfl, rfl⟩⟩
  bind := ReadsLines.bind
  fail {α cause} hcause line := by
    refine readsLines_of_detached (fun _ _ ↦ rfl) fun _ ↦ ⟨?_, fun j ↦ ⟨j, rfl, rfl, rfl⟩⟩
    have haccepts : cause.rejectsLine = false := FaultCause.rejectsLine_of_not_isOfConsole hcause
    rw [show Run.fail cause line _ = .error (.fault ⟨cause, line⟩) _ from rfl, rejections_fault,
      haccepts]
    rfl
  outOfRounds :=
    readsLines_of_detached (fun _ _ ↦ rfl) fun _ ↦ ⟨rfl, fun j ↦ ⟨j, rfl, rfl, rfl⟩⟩
  lookup s name line :=
    readsLines_of_detached (lookup_detached s name line) fun _ ↦ lookup_notesNoRead name line
  assign s name value :=
    readsLines_of_detached (assign_detached s name value) fun _ ↦ assign_notesNoRead name value
  declare s name value :=
    readsLines_of_detached (declare_detached s name value) fun _ ↦ declare_notesNoRead name value
  display := display_readsLines
  readInto := readInto_readsLines
  procedure name line :=
    readsLines_of_detached (procedure_detached name line) fun _ ↦ procedure_notesNoRead name line
  checkDepth := checkDepth_readsLines
  noteCall name values line :=
    readsLines_of_detached (fun _ _ ↦ rfl) fun _ ↦ ⟨rfl, fun j ↦
      ⟨j.note (.called name values line), funext (j.keeps_note _), j.reads_note rfl, rfl⟩⟩
  inCall := inCall_readsLines

end Steps

/-! ### Programs -/

theorem register_readsLines (p : Procedure) : ReadsLines Unit (register p) :=
  readsLines_of_detached (register_detached p) fun _ ↦ register_notesNoRead p

theorem runProgram_readsLines (bounds : Bounds) (p : Program) :
    ReadsLines Unit (runProgram bounds p) :=
  readsLines_compositional.runProgram register_readsLines bounds p

/-- **Input is read by whole lines.** A program that ends has consumed some of the lines that its
input begins with, and the rest is left. There are as many of them as the reads that a journal of
its run notes, and one more if a read has rejected its line. If the lines do not stop within one,
and the input was not found exhausted, then with any other rest behind them the program ends in the
same way and on the same machine, but that this rest is left. -/
theorem input_by_lines {calls : Nat} {p : Program} {m : Machine}
    {r : EStateM.Result Halt Machine Unit} (h : EndsWith calls p m r) :
    ∃ lines, Lines m.console.input lines (stateLeft r).console.input ∧
      m.console.input = lines.flatten ++ (stateLeft r).console.input ∧
      (∃ journal, EndsWith calls p { m with journal := .upTo .debug }
          (mapMachine (fun m' ↦ { m' with journal := journal }) r) ∧
        lines.length = journal.reads + rejections r) ∧
      (IsWhole lines.flatten → ¬ IsExhausted r → ∀ rest,
        EndsWith calls p (m.withInput (lines.flatten ++ rest))
          (mapMachine (·.withInput rest) r)) := by
  obtain ⟨⟨rounds, rfl⟩, hrounds⟩ := h
  obtain ⟨lines, hlines⟩ := runProgram_readsLines ⟨calls, rounds⟩ p m
  refine ⟨lines, hlines.consumed, hlines.consumed.flatten_append, ?_, ?_⟩
  · obtain ⟨journal, -, hsame, hreads⟩ := hlines.noted (.upTo .debug) rfl
    refine ⟨journal, ⟨⟨rounds, hsame⟩, by rwa [halt?_mapMachine]⟩, ?_⟩
    rw [hreads, Journal.reads_upTo, Nat.zero_add]
  · intro hwhole hleft rest
    exact ⟨⟨rounds, hlines.unseen hwhole hleft rest⟩, by rwa [halt?_mapMachine]⟩

/-- A line is read in a call, the next is no text, and the last, which is not ended, is left.
Nothing changes if it is not there. -/
theorem input_by_lines_not_text :
    let f : Procedure := ⟨"f", [], ["x"], [.read ⟨"x", 2⟩, .assign "f" (.variable "x" 3) 3], 1⟩
    let p : Program := ⟨[f], [.display (.call "f" [] 5) (some ⟨"y", 5⟩) 5]⟩
    let m : Machine := ⟨.empty, Console.start [55, 10, 255, 10, 57] .reliable, .silent⟩
    ∃ r, EndsWith 64 p m r ∧ halt? r = some (.fault ⟨.stream .notText, 5⟩) ∧
      ∃ lines, Lines [55, 10, 255, 10, 57] lines [57] ∧ lines.flatten = [55, 10, 255, 10] ∧
        (∃ journal, EndsWith 64 p { m with journal := .upTo .debug }
            (mapMachine (fun m' ↦ { m' with journal := journal }) r) ∧
          lines.length = journal.reads + 1) ∧
        EndsWith 64 p (m.withInput [55, 10, 255, 10]) (mapMachine (·.withInput []) r) := by
  intro f p m
  have hhalt : halt? (runProgram ⟨64, 0⟩ p m) = some (.fault ⟨.stream .notText, 5⟩) := by
    decide +kernel
  have hleft : (stateLeft (runProgram ⟨64, 0⟩ p m)).console.input = [57] := by decide +kernel
  have h : EndsWith 64 p m (runProgram ⟨64, 0⟩ p m) := ⟨⟨0, rfl⟩, by simp [hhalt]⟩
  obtain ⟨lines, hlines, hinput, hnoted, hunseen⟩ := input_by_lines h
  have hrejections : rejections (runProgram ⟨64, 0⟩ p m) = 1 := by
    rw [rejections, hhalt]
    rfl
  rw [hleft] at hlines hinput
  rw [hrejections] at hnoted
  have hparts : [55, 10, 255, 10] ++ [57] = lines.flatten ++ [57] := hinput
  have hflatten : lines.flatten = [55, 10, 255, 10] := (List.append_cancel_right hparts).symm
  have hagain := hunseen (.inr (by rw [hflatten]; rfl))
    (fun ⟨_, _, he⟩ ↦ nomatch hhalt.symm.trans he) []
  rw [hflatten] at hagain
  exact ⟨_, h, hhalt, lines, hlines, hflatten, hnoted, hagain⟩

end Run

end TinyProc
