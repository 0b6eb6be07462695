import Mathlib.Data.List.Nodup
import TinyProc.Proofs.Run.Alike

/-!
# The names of parameters and local variables are private

If a parameter or a local variable of a procedure is called otherwise, and no other variable of the
procedure has that name, then nothing changes but the name in the fault that there is no input to
read into it. This is so whatever else has the old name or the new one: globals, the local variables
of other procedures, procedures.

The two runs are compared in the reference interpreter, where they are in lockstep. In the procedure
the translation is `Translation.replacing`: the frames have one name replaced, and the frames that
occur are those that bind the old name and do not bind the new one. Both matter. Since the old name
is bound, neither it nor its replacement is ever looked for among the globals; since the new name is
not, none of the values in the frame is lost. Everywhere else the two runs are the same run
(`Translation.same`).

A fault has a name and a line, but does not say which read it comes from (`SameHalt`). It does say
so if the new name is one that no other read is into. Since a name that has been put in place of
another can be replaced in its turn (`MayReplace.again`), every two runs are compared with such a
one (`Run.rename_marked`).
-/

namespace TinyProc

/-! ### Replacing a name -/

/-- The name `y` in place of `x`, and every other name as it is. -/
def replaceName (x y name : String) : String :=
  if name = x then y else name

@[simp] theorem replaceName_self (x y : String) : replaceName x y x = y :=
  if_pos rfl

theorem replaceName_of_ne {x name : String} (y : String) (h : name ≠ x) :
    replaceName x y name = name :=
  if_neg h

/-- Names other than the new one are kept apart. -/
theorem replaceName_inj {x y name other : String} (hname : name ≠ y) (hother : other ≠ y)
    (h : replaceName x y name = replaceName x y other) : name = other := by
  unfold replaceName at h
  grind

/-- A name put in its own place changes nothing. -/
theorem replaceName_same (x : String) : replaceName x x = id := by
  funext name
  by_cases h : name = x
  · rw [h, replaceName_self, id]
  · exact replaceName_of_ne x h

/-- A name that is new can be replaced in its turn. -/
theorem replaceName_replaceName {x z name : String} (y : String) (h : name ≠ z) :
    replaceName z y (replaceName x z name) = replaceName x y name := by
  by_cases hx : name = x
  · rw [hx, replaceName_self, replaceName_self, replaceName_self]
  · rw [replaceName_of_ne z hx, replaceName_of_ne y h, replaceName_of_ne y hx]

/-- After a replacement the old name is gone, and the new one is there only for the old. -/
theorem not_mem_map_replaceName {x z name : String} {names : List String} (hz : name ≠ z)
    (hx : name ∈ names → name = x) : name ∉ names.map (replaceName x z) := by
  rw [List.mem_map]
  rintro ⟨other, hother, heq⟩
  by_cases h : other = x
  · rw [h, replaceName_self] at heq
    exact hz heq.symm
  · rw [replaceName_of_ne z h] at heq
    subst heq
    exact h (hx hother)

/-- The name `y` may stand for the parameter or local variable `x` of a procedure: the procedure has
no variable of this name yet. -/
structure Procedure.MayReplace (d : Procedure) (x y : String) : Prop where
  /-- The names that the procedure binds are distinct. -/
  distinct : d.boundNames.Nodup
  /-- The old name is one of them, and not that of the procedure itself. -/
  bound : x ∈ d.params ++ d.locals
  /-- The new name is not. -/
  unbound : y ∉ d.boundNames
  /-- Nor is it used in the body for a variable. -/
  unused : y ∉ Statement.variablesAll d.body

namespace Procedure.MayReplace

variable {d : Procedure} {x y z : String}

/-- The old name is not that of the procedure: it would be bound twice. -/
theorem name_ne_old (h : d.MayReplace x y) : d.name ≠ x := by
  rintro rfl
  exact (List.nodup_cons.1 h.distinct).1 h.bound

/-- The new name is not that of the procedure either, and so the return slot keeps its name. -/
theorem name_ne_new (h : d.MayReplace x y) : d.name ≠ y := by
  rintro rfl
  exact h.unbound List.mem_cons_self

/-- The two names are different. -/
theorem ne (h : d.MayReplace x y) : x ≠ y := by
  rintro rfl
  exact h.unbound (List.mem_cons_of_mem _ h.bound)

/-- The names that are bound afterwards: only a parameter or a local variable has changed. -/
theorem boundNames_rename (h : d.MayReplace x y) :
    (d.rename (replaceName x y)).boundNames = d.boundNames.map (replaceName x y) := by
  rw [boundNames, boundNames, List.map_cons, List.map_append, replaceName_of_ne y h.name_ne_old]
  rfl

/-- Where `z` stands for `x`, every name may stand for `z` that might have stood for `x`, and so may
`x` itself. -/
theorem again (h : d.MayReplace x z) {name : String} (hz : name ≠ z)
    (hbound : name ∈ d.boundNames → name = x)
    (hunused : name ∈ Statement.variablesAll d.body → name = x) :
    (d.rename (replaceName x z)).MayReplace z name where
  distinct := by
    rw [h.boundNames_rename]
    refine List.Nodup.map_on (fun a ha b hb hab ↦ ?_) h.distinct
    exact replaceName_inj (ne_of_mem_of_not_mem ha h.unbound)
      (ne_of_mem_of_not_mem hb h.unbound) hab
  bound := by
    have hmem := List.mem_map_of_mem (f := replaceName x z) h.bound
    rw [replaceName_self, List.map_append] at hmem
    exact hmem
  unbound := by
    rw [h.boundNames_rename]
    exact not_mem_map_replaceName hz hbound
  unused := by
    rw [rename, Statement.variablesAll_renameAll]
    exact not_mem_map_replaceName hz hunused

/-- Replacing a name by way of another comes to the same as replacing it at once. -/
theorem rename_rename (h : d.MayReplace x z) (y : String) :
    (d.rename (replaceName x z)).rename (replaceName z y) = d.rename (replaceName x y) := by
  refine d.rename_rename (fun name hname ↦ ?_) fun name hname ↦ ?_
  · exact replaceName_replaceName y
      (ne_of_mem_of_not_mem (List.mem_cons_of_mem _ hname) h.unbound)
  · exact replaceName_replaceName y (ne_of_mem_of_not_mem hname h.unused)

end Procedure.MayReplace

namespace Bindings

/-- The bindings with other names. -/
def rename (f : String → String) (b : Bindings) : Bindings :=
  ⟨b.entries.map fun entry ↦ (f entry.1, entry.2)⟩

/-- Nothing is bound to the name. -/
def Avoids (b : Bindings) (y : String) : Prop :=
  ∀ entry ∈ b.entries, entry.1 ≠ y

section Rename

variable {f : String → String} {name : String} {entries : List (String × Word)}

/-- A search under the new name finds what the old one finds, if no other entry has got this name.
-/
theorem valueIn?_rename (h : ∀ entry ∈ entries, f entry.1 = f name → entry.1 = name) :
    valueIn? (f name) (entries.map fun entry ↦ (f entry.1, entry.2)) = valueIn? name entries := by
  induction entries with
  | nil => rfl
  | cons entry rest ih =>
    obtain ⟨hentry, hrest⟩ := List.forall_mem_cons.1 h
    have hiff : f name = f entry.1 ↔ name = entry.1 :=
      ⟨fun heq ↦ (hentry heq.symm).symm, congrArg f⟩
    simp only [List.map_cons, valueIn?, hiff, ih hrest]

/-- An insertion under the new name goes to the same place, if no other entry has got this name. -/
theorem insertEntry_rename (h : ∀ entry ∈ entries, f entry.1 = f name → entry.1 = name)
    (value : Word) :
    insertEntry (f name) value (entries.map fun entry ↦ (f entry.1, entry.2)) =
      (insertEntry name value entries).map fun entry ↦ (f entry.1, entry.2) := by
  induction entries with
  | nil => rfl
  | cons entry rest ih =>
    obtain ⟨hentry, hrest⟩ := List.forall_mem_cons.1 h
    have hiff : f name = f entry.1 ↔ name = entry.1 :=
      ⟨fun heq ↦ (hentry heq.symm).symm, congrArg f⟩
    simp only [List.map_cons, insertEntry, hiff]
    split
    · rfl
    · rw [List.map_cons, ih hrest]

end Rename

variable {b : Bindings} {x y name : String}

/-- Bindings in which nothing has the new name keep their values. -/
theorem get?_rename (hb : b.Avoids y) (hname : name ≠ y) :
    (b.rename (replaceName x y)).get? (replaceName x y name) = b.get? name :=
  valueIn?_rename fun entry hentry h ↦ replaceName_inj (hb entry hentry) hname h

theorem contains_rename (hb : b.Avoids y) (hname : name ≠ y) :
    (b.rename (replaceName x y)).contains (replaceName x y name) = b.contains name := by
  rw [contains, contains, get?_rename hb hname]

/-- Inserting and renaming can be exchanged. -/
theorem insert_rename (hb : b.Avoids y) (hname : name ≠ y) (value : Word) :
    (b.rename (replaceName x y)).insert (replaceName x y name) value =
      (b.insert name value).rename (replaceName x y) :=
  congrArg Bindings.mk
    (insertEntry_rename (fun entry hentry h ↦ replaceName_inj (hb entry hentry) hname h) value)

theorem avoids_empty (y : String) : empty.Avoids y :=
  List.forall_mem_nil _

/-- An insertion binds no other name than its own. -/
theorem Avoids.insert (hb : b.Avoids y) (hname : name ≠ y) (value : Word) :
    (b.insert name value).Avoids y := by
  obtain ⟨entries⟩ := b
  show ∀ entry ∈ insertEntry name value entries, entry.1 ≠ y
  induction entries with
  | nil => exact List.forall_mem_singleton.2 hname
  | cons entry rest ih =>
    obtain ⟨hentry, hrest⟩ := List.forall_mem_cons.1 hb
    unfold insertEntry
    split
    · exact List.forall_mem_cons.2 ⟨hname, hrest⟩
    · exact List.forall_mem_cons.2 ⟨hentry, ih hrest⟩

end Bindings

namespace Reference

/-! ### Frames -/

section Frames

variable {x y : String} {b : Bindings} {entries : List (String × Word)}

/-- Names that are bound one after the other avoid a name if each of them does. -/
theorem avoids_bindAll (hb : b.Avoids y) (h : ∀ entry ∈ entries, entry.1 ≠ y) :
    (bindAll entries b).Avoids y := by
  induction entries generalizing b with
  | nil => exact hb
  | cons entry rest ih =>
    obtain ⟨hentry, hrest⟩ := List.forall_mem_cons.1 h
    exact ih (hb.insert hentry entry.2) hrest

/-- Binding names one after the other and renaming can be exchanged. The bindings avoid the new name
at every stage, as insertions under other names do not bind it. -/
theorem bindAll_rename (hb : b.Avoids y) (h : ∀ entry ∈ entries, entry.1 ≠ y) :
    (bindAll entries b).rename (replaceName x y) =
      bindAll (entries.map fun entry ↦ (replaceName x y entry.1, entry.2))
        (b.rename (replaceName x y)) := by
  induction entries generalizing b with
  | nil => rfl
  | cons entry rest ih =>
    obtain ⟨hentry, hrest⟩ := List.forall_mem_cons.1 h
    have hstep := ih (hb.insert hentry entry.2) hrest
    rw [← Bindings.insert_rename hb hentry] at hstep
    exact hstep

/-- What is bound in the end is what was bound before and what has been bound since. -/
theorem contains_bindAll (name : String) :
    (bindAll entries b).contains name = true ↔
      name ∈ entries.map Prod.fst ∨ b.contains name = true := by
  induction entries generalizing b with
  | nil => simp [bindAll]
  | cons entry rest ih =>
    have hstep : bindAll (entry :: rest) b = bindAll rest (b.insert entry.1 entry.2) := rfl
    rw [hstep, ih, Bindings.contains_insert]
    simp [or_assoc, or_left_comm]

end Frames

section NewFrame

variable {d : Procedure} {x y : String}

/-- The frame of a call as the entries of the other interpreter, bound one after the other. -/
theorem newFrame_eq (d : Procedure) (values : List Word) :
    newFrame d values = bindAll (Run.frame d values) .empty := by
  simp [newFrame, bindAll, Run.frame]

/-- A frame binds nothing that the procedure does not bind. -/
theorem mem_boundNames_of_mem_frame {values : List Word} :
    ∀ entry ∈ Run.frame d values, entry.1 ∈ d.boundNames := by
  intro entry hentry
  rw [Procedure.boundNames, List.mem_cons, List.mem_append]
  obtain rfl | hentry := List.mem_cons.1 hentry
  · exact .inl rfl
  · obtain hparam | hlocal := List.mem_append.1 hentry
    · exact .inr (.inl (List.of_mem_zip hparam).1)
    · obtain ⟨name, hname, rfl⟩ := List.mem_map.1 hlocal
      exact .inr (.inr hname)

theorem ne_of_mem_frame (hy : y ∉ d.boundNames) {values : List Word} :
    ∀ entry ∈ Run.frame d values, entry.1 ≠ y :=
  fun entry hentry h ↦ hy (h ▸ mem_boundNames_of_mem_frame entry hentry)

/-- A name that the procedure does not bind is not bound in its frames. -/
theorem avoids_newFrame (hy : y ∉ d.boundNames) (values : List Word) :
    (newFrame d values).Avoids y := by
  rw [newFrame_eq]
  exact avoids_bindAll (Bindings.avoids_empty y) (ne_of_mem_frame hy)

/-- Every parameter is bound if there are as many arguments, and every local variable anyway. -/
theorem contains_newFrame (hx : x ∈ d.params ++ d.locals) {values : List Word}
    (harity : d.params.length = values.length) : (newFrame d values).contains x = true := by
  rw [newFrame_eq, contains_bindAll, Run.map_fst_frame harity.symm]
  exact .inl (List.mem_cons_of_mem _ hx)

/-- The frame of the renamed procedure is the renamed frame, for the same arguments. -/
theorem newFrame_rename (hx : d.name ≠ x) (hy : y ∉ d.boundNames) (values : List Word) :
    (newFrame d values).rename (replaceName x y) =
      newFrame (d.rename (replaceName x y)) values := by
  have hframe : (Run.frame d values).map (fun entry ↦ (replaceName x y entry.1, entry.2)) =
      Run.frame (d.rename (replaceName x y)) values := by
    simp only [Run.frame, Procedure.rename, List.map_cons, List.map_append, List.map_map,
      List.zip_map_left, replaceName_of_ne y hx]
    rfl
  rw [newFrame_eq, newFrame_eq, bindAll_rename (Bindings.avoids_empty y) (ne_of_mem_frame hy),
    hframe]
  rfl

end NewFrame

/-! ### Translations -/

namespace Translation

/-- The name `y` stands in the frames for `x`, which they bind. -/
def replacing (x y : String) : Translation where
  name := replaceName x y
  frame := Option.map (Bindings.rename (replaceName x y))
  Occurs frame := ∃ b, frame = some b ∧ b.contains x = true ∧ b.Avoids y

/-- An assignment in a call goes to the frame, unless only the globals bind the name. -/
theorem assign_some (globals b : Bindings) (console : Console) (name : String) (value : Word) :
    State.assign ⟨globals, some b, console⟩ name value =
      if !b.contains name && globals.contains name then
        ⟨globals.insert name value, some b, console⟩
      else ⟨globals, some (b.insert name value), console⟩ := by
  show (if b.contains name then _ else if globals.contains name then _ else _) = _
  cases b.contains name <;> cases globals.contains name <;> rfl

/-- Every name but the new one is translated. A name other than the old one is looked for in the
frame and then among the globals, as before; the old one is never looked for there. -/
theorem replacing_translates {x y name : String} (hname : name ≠ y) :
    (replacing x y).Translates name where
  value := by
    rintro ⟨globals, frame, console⟩ ⟨b, rfl, hx, hy⟩
    show ((b.rename (replaceName x y)).get? (replaceName x y name)).or
      (globals.get? (replaceName x y name)) = (b.get? name).or (globals.get? name)
    rw [Bindings.get?_rename hy hname]
    by_cases h : name = x
    · -- the frame has the value, so that the globals are not asked
      obtain ⟨value, hvalue⟩ := Option.isSome_iff_exists.1 hx
      rw [h, hvalue]
      rfl
    · rw [replaceName_of_ne y h]
  bound := by
    rintro ⟨globals, frame, console⟩ ⟨b, rfl, hx, hy⟩ hnone
    refine replaceName_of_ne y fun h ↦ ?_
    obtain ⟨value, hvalue⟩ := Option.isSome_iff_exists.1 hx
    have hsome : (b.get? name).or (globals.get? name) = none := hnone
    rw [h, hvalue] at hsome
    cases hsome
  assign := by
    rintro ⟨globals, frame, console⟩ value ⟨b, rfl, hx, hy⟩
    show State.assign ⟨globals, some (b.rename (replaceName x y)), console⟩
      (replaceName x y name) value = _
    rw [assign_some, assign_some, Bindings.contains_rename hy hname,
      Bindings.insert_rename hy hname]
    by_cases h : name = x
    · rw [h, hx]
      rfl
    · rw [replaceName_of_ne y h]
      split <;> rfl
  occurs := by
    rintro ⟨globals, frame, console⟩ value ⟨b, rfl, hx, hy⟩
    rw [assign_some]
    split
    · exact ⟨b, rfl, hx, hy⟩
    · refine ⟨b.insert name value, rfl, ?_, hy.insert hname value⟩
      rw [Bindings.contains_insert, hx, Bool.or_true]

end Translation

/-! ### Halts -/

/-- The halt with `y` for `x` in the fault that there is no input left to read. -/
def renameInput (x y : String) : Halt → Halt
  | .fault ⟨.inputExhausted name, line⟩ => exhausted ⟨replaceName x y name, line⟩
  | h => h

/-- The same halt, except that the lack of input for the variable `x` in one of the reads `inside`
is a lack of input for `y`. Where it is a lack of input for `x` in both, the read is `outside`. -/
def SameHalt (x y : String) (inside outside : List ReadTarget) (h h' : Halt) : Prop :=
  (h' = h ∧ ∀ line, h = exhausted ⟨x, line⟩ → ⟨x, line⟩ ∈ outside) ∨
    ∃ line, ⟨x, line⟩ ∈ inside ∧ h = exhausted ⟨x, line⟩ ∧ h' = exhausted ⟨y, line⟩

section Halts

variable {x y : String} {inside outside : List ReadTarget}

/-- The fault for lack of input tells the name and the line of the read. -/
theorem exhausted_inj {target target' : ReadTarget} (h : exhausted target = exhausted target') :
    target = target' := by
  obtain ⟨name, line⟩ := target
  obtain ⟨name', line'⟩ := target'
  cases h
  rfl

/-- Any other halt is its own counterpart. -/
theorem sameHalt_reflects : Reflects (SameHalt x y inside outside) :=
  fun _ hne ↦ .inl ⟨rfl, fun line h ↦ absurd h (hne ⟨x, line⟩)⟩

/-- Outside of the procedure, a lack of input is the same fault in both runs. -/
theorem relatesReads_same {reads : List ReadTarget} (h : ∀ target ∈ reads, target ∈ outside) :
    RelatesReads .same (SameHalt x y inside outside) reads := by
  intro target htarget
  refine .inl ⟨rfl, fun line hline ↦ ?_⟩
  rw [← exhausted_inj hline]
  exact h target htarget

/-- In the procedure, a lack of input for the old name is a lack of input for the new one. -/
theorem relatesReads_replacing :
    RelatesReads (.replacing x y) (SameHalt x y inside outside) inside := by
  rintro ⟨name, line⟩ htarget
  by_cases h : name = x
  · subst h
    exact .inr ⟨line, htarget, rfl, congrArg (exhausted ⟨·, line⟩) (replaceName_self name y)⟩
  · refine .inl ⟨congrArg (exhausted ⟨·, line⟩) (replaceName_of_ne y h), fun line' hline ↦ ?_⟩
    exact absurd (congrArg ReadTarget.name (exhausted_inj hline)) h

/-- If no read outside is into `x`, it can be told from the fault where the read was. -/
theorem SameHalt.eq_renameInput {h h' : Halt} (hsame : SameHalt x y inside outside h h')
    (houtside : ∀ target ∈ outside, target.name ≠ x) : h' = renameInput x y h := by
  obtain ⟨rfl, hread⟩ | ⟨line, -, rfl, rfl⟩ := hsame
  · unfold renameInput
    split
    · rename_i name line
      have hname : name ≠ x := by
        rintro rfl
        exact houtside _ (hread line rfl) rfl
      rw [replaceName_of_ne y hname]
      rfl
    · rfl
  · exact congrArg (exhausted ⟨·, line⟩) (replaceName_self x y).symm

end Halts

/-! ### Procedures -/

section Procedures

variable {x y : String} {inside outside : List ReadTarget} {d : Procedure}
  {before after : List Procedure}

/-- A procedure other than the one that is changed does the same in both runs. -/
theorem same_carries (p : Procedure)
    (h : ∀ target ∈ Statement.readsAll p.body, target ∈ outside) :
    Translation.same.Carries (SameHalt x y inside outside) p p where
  name := rfl
  line := rfl
  params := rfl
  body := (Statement.renameAll_id p.body).symm
  names name _ := Translation.same_translates name
  reads := relatesReads_same h
  occurs _ _ := trivial
  frame _ := rfl
  slot _ _ := rfl

/-- The procedure that is changed does the same under the new name. A frame with which it starts
binds the old name and not the new one. -/
theorem replacing_carries (h : d.MayReplace x y) :
    (Translation.replacing x y).Carries
      (SameHalt x y (Statement.readsAll d.body) outside) d (d.rename (replaceName x y)) where
  name := rfl
  line := rfl
  params := List.length_map _
  body := rfl
  names _ hmem := Translation.replacing_translates (ne_of_mem_of_not_mem hmem h.unused)
  reads := relatesReads_replacing
  occurs values harity :=
    ⟨_, rfl, contains_newFrame h.bound harity, avoids_newFrame h.unbound values⟩
  frame values := congrArg some (newFrame_rename h.name_ne_old h.unbound values)
  -- the name of the procedure is neither the old name nor the new one
  slot := by
    rintro _ ⟨b, rfl, -, hb⟩
    show (b.rename (replaceName x y)).get? d.name = b.get? d.name
    rw [← Bindings.get?_rename hb h.name_ne_new, replaceName_of_ne y h.name_ne_old]

/-- A list of procedures in which one has been replaced by another of the same name. -/
theorem found_cases {d' : Procedure} (hname : d'.name = d.name) (before after : List Procedure)
    (name : String) :
    (found (before ++ d :: after) name = some d ∧ found (before ++ d' :: after) name = some d') ∨
    found (before ++ d :: after) name = found (before ++ d' :: after) name ∧
      ∀ p, found (before ++ d :: after) name = some p → p ∈ before ++ after := by
  simp only [found, List.find?_append, List.find?_cons, hname]
  cases hbefore : before.find? (·.name = name) with
  | some q =>
    refine .inr ⟨rfl, fun p hp ↦ ?_⟩
    cases hp
    exact List.mem_append_left _ (List.mem_of_find?_eq_some hbefore)
  | none =>
    by_cases h : d.name = name
    · simp [h]
    · simp only [h, decide_false]
      exact .inr ⟨trivial, fun p hp ↦ List.mem_append_right _ (List.mem_of_find?_eq_some hp)⟩

/-- Lists of procedures that differ in one procedure correspond if it does the same as the one in
its place. Where there are several of the same name, the first is called, in both. -/
theorem corresponds_of_carries {R : Halt → Halt → Prop} {τ : Translation} {d' : Procedure}
    (hd : τ.Carries R d d') (hothers : ∀ p ∈ before ++ after, Translation.same.Carries R p p) :
    Corresponds R (before ++ d :: after) (before ++ d' :: after) := by
  intro name
  obtain ⟨hfound, hfound'⟩ | ⟨hsame, hmem⟩ := found_cases hd.name before after name
  · exact .inr ⟨τ, d, d', hfound, hfound', hd⟩
  · cases hfound : found (before ++ d :: after) name with
    | none => exact .inl ⟨rfl, hsame.symm.trans hfound⟩
    | some p =>
      exact .inr ⟨.same, p, p, rfl, hsame.symm.trans hfound, hothers p (hmem p hfound)⟩

end Procedures

end Reference

/-! ### Programs -/

namespace Run

open Reference (SameHalt)

/-- The reads of a program outside of one of its procedures. -/
def readsOutside (before after : List Procedure) (statements : Block) : List ReadTarget :=
  Statement.readsAll statements ++ (before ++ after).flatMap fun p ↦ Statement.readsAll p.body

variable {bounds : Bounds} {d : Procedure} {x y z : String}
variable (before after : List Procedure) (statements : Block) (console : Console)
  (journal : Journal)

/-- The comparison of the two runs, without a word on which read a fault comes from. -/
theorem rename_alike (hbounds : bounds.calls ≤ Console.maxCalls) (h : d.MayReplace x y) :
    EndAlike (SameHalt x y (Statement.readsAll d.body) (readsOutside before after statements))
      (runProgram bounds ⟨before ++ d :: after, statements⟩ ⟨.empty, console, journal⟩)
      (runProgram bounds ⟨before ++ d.rename (replaceName x y) :: after, statements⟩
        ⟨.empty, console, journal⟩) := by
  have hothers : ∀ p ∈ before ++ after, ∀ target ∈ Statement.readsAll p.body,
      target ∈ readsOutside before after statements := fun p hp target htarget ↦
    List.mem_append_right _ (List.mem_flatMap.2 ⟨p, hp, htarget⟩)
  have hcorresponds := Reference.corresponds_of_carries (Reference.replacing_carries h)
    fun p hp ↦ Reference.same_carries p (hothers p hp)
  refine runProgram_alike hbounds Reference.sameHalt_reflects hcorresponds ?_ ?_ console journal
  · simp [Procedure.header, Procedure.rename]
  · exact Reference.relatesReads_same fun target htarget ↦ List.mem_append_left _ htarget

/-- A procedure in which a name stands for `x`, compared with one in which `z` stands for it and no
read outside of it is into `z`. -/
theorem rename_marked (hbounds : bounds.calls ≤ Console.maxCalls) (hz : d.MayReplace x z)
    (houtside : ∀ target ∈ readsOutside before after statements, target.name ≠ z) {name : String}
    (hname : name ≠ z) (hbound : name ∈ d.boundNames → name = x)
    (hunused : name ∈ Statement.variablesAll d.body → name = x) :
    EndAlike (fun e e' ↦ e' = Reference.renameInput z name e)
      (runProgram bounds ⟨before ++ d.rename (replaceName x z) :: after, statements⟩
        ⟨.empty, console, journal⟩)
      (runProgram bounds ⟨before ++ d.rename (replaceName x name) :: after, statements⟩
        ⟨.empty, console, journal⟩) := by
  have halike := rename_alike before after statements console journal hbounds
    (hz.again hname hbound hunused)
  rw [hz.rename_rename] at halike
  exact halike.mono fun _ _ hsame ↦ hsame.eq_renameInput houtside

/-- **The names of parameters and local variables are private.** Within any bounds on calls that
the count can hold and any number of rounds, and whatever the other procedures, the statements and
the console are: if `y` stands for the parameter or local variable `x` of a procedure, then the
program ends as before, with the same globals, input and output, or it halts as before, except that
the fault for a lack of input in the procedure names `y`. In particular one of the programs runs out
of rounds if the other does, so that both go on without end or neither.

Where the same line has reads into `x` inside of the procedure and outside, the fault alone does not
tell which of them is meant. With a name `z` in place of `x` that no other read is into it does, and
from this fault the faults of both programs are obtained. -/
theorem local_names_private (hbounds : bounds.calls ≤ Console.maxCalls) (h : d.MayReplace x y) :
    let run (q : Procedure) :=
      runProgram bounds ⟨before ++ q :: after, statements⟩ ⟨.empty, console, journal⟩
    let outside := readsOutside before after statements
    EndAlike (SameHalt x y (Statement.readsAll d.body) outside) (run d)
        (run (d.rename (replaceName x y))) ∧
      ∀ z, d.MayReplace x z → z ≠ y → (∀ target ∈ outside, target.name ≠ z) →
        let marked := run (d.rename (replaceName x z))
        EndAlike (fun e e' ↦ e' = Reference.renameInput z x e) marked (run d) ∧
          EndAlike (fun e e' ↦ e' = Reference.renameInput z y e) marked
            (run (d.rename (replaceName x y))) := by
  intro run outside
  refine ⟨rename_alike _ _ _ _ _ hbounds h, fun z hz hzy houtside ↦ ⟨?_, ?_⟩⟩
  · have hself : d.rename (replaceName x x) = d := by rw [replaceName_same, d.rename_id]
    have hmarked := rename_marked before after statements console journal hbounds hz houtside
      hz.ne (fun _ ↦ rfl) fun _ ↦ rfl
    rwa [hself] at hmarked
  · exact rename_marked _ _ _ _ _ hbounds hz houtside hzy.symm (absurd · h.unbound)
      (absurd · h.unused)

/-- A program on one line, with globals of the old name and of the new one, a local variable of the
new name in another procedure, and a read into the global of the old name. The input is missed in
the procedure. -/
theorem local_names_private_one_line :
    let f (x : String) : Procedure := ⟨"f", [x], [],
      [.display (.variable x 1) (some ⟨x, 1⟩) 1, .assign "f" (.variable x 1) 1], 1⟩
    let g : Procedure := ⟨"g", ["a"], ["y"],
      [.assign "y" (.variable "x" 1) 1, .assign "g" (.call "f" [.variable "y" 1] 1) 1], 1⟩
    let statements : Block := [.assign "x" (.number .one) 1, .assign "y" (.number .zero) 1,
      .assign "y" (.call "g" [.variable "y" 1] 1) 1, .read ⟨"x", 1⟩]
    let run (q : Procedure) := runProgram ⟨64, 10⟩ ⟨[q, g], statements⟩
      ⟨.empty, Console.start [] .reliable, .silent⟩
    (f "x").MayReplace "x" "y" ∧ (f "x").rename (replaceName "x" "y") = f "y" ∧
      ∃ m m', run (f "x") = .error (.fault ⟨.inputExhausted "x", 1⟩) m ∧
        run (f "y") = .error (.fault ⟨.inputExhausted "y", 1⟩) m' ∧
          m'.env.bindings .root = m.env.bindings .root ∧ m'.console = m.console := by
  intro f g statements run
  have hy : (f "x").MayReplace "x" "y" := ⟨by decide, by decide, by decide, by decide⟩
  have hz : (f "x").MayReplace "x" "z" := ⟨by decide, by decide, by decide, by decide⟩
  have hfy : (f "x").rename (replaceName "x" "y") = f "y" := rfl
  have hfz : (f "x").rename (replaceName "x" "z") = f "z" := rfl
  have hbounds : (Bounds.mk 64 10).calls ≤ Console.maxCalls := by decide
  obtain ⟨-, hmarks⟩ := local_names_private [] [g] statements (Console.start [] .reliable) .silent
    hbounds hy
  obtain ⟨hx, hy'⟩ := hmarks "z" hz (by decide) (by decide)
  rw [hfz] at hx hy'
  rw [hfy] at hy'
  obtain ⟨m, hm⟩ : ∃ m, run (f "z") = .error (.fault ⟨.inputExhausted "z", 1⟩) m := by
    dsimp only [run, f, g, statements]
    exact ⟨_, rfl⟩
  replace hx : EndAlike _ (run (f "z")) (run (f "x")) := hx
  replace hy' : EndAlike _ (run (f "z")) (run (f "y")) := hy'
  rw [hm] at hx hy'
  refine ⟨hy, hfy, ?_⟩
  generalize run (f "x") = r at hx ⊢
  generalize run (f "y") = r' at hy' ⊢
  cases hx with
  | error he hglobals hconsole =>
    cases hy' with
    | error he' hglobals' hconsole' =>
      subst he he'
      exact ⟨_, _, rfl, rfl, hglobals'.trans hglobals.symm, hconsole'.trans hconsole.symm⟩

end Run

end TinyProc
