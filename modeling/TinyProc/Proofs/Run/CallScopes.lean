import TinyProc.Proofs.Run.Entries
import TinyProc.Proofs.Run.Refinement

/-!
# The scope of a call

A call binds the return slot, the parameters and the locals of its procedure, in this order and in a
scope that has just been pushed. If the procedure binds no name twice and there are as many values
as parameters, then every declaration finds its name unbound, and the scope holds the frame as it is
written (`Run.declareAll_frame`).

What a scope binds it goes on binding, whatever is entered from there (`Run.Handed`): one step
either stays in the scope and respects the frame, or is a call, which respects it too and adds a
scope. So the names of a procedure are found in the scope of its call throughout
(`Run.lookup_of_binds`).
-/

namespace TinyProc

/-! ### Bindings in order -/

theorem Bindings.insert_of_not_contains {b : Bindings} {name : String}
    (h : b.contains name = false) (value : Word) :
    b.insert name value = ⟨b.entries ++ [(name, value)]⟩ := by
  obtain ⟨entries⟩ := b
  simp only [contains, get?, insert] at h ⊢
  congr 1
  induction entries with
  | nil => rfl
  | cons entry rest ih =>
    rw [valueIn?] at h
    rw [insertEntry]
    split at h
    · cases h
    · rw [if_neg ‹_›, ih h, List.cons_append]

theorem Bindings.contains_eq_true_iff {b : Bindings} {name : String} :
    b.contains name = true ↔ name ∈ b.entries.map Prod.fst := by
  obtain ⟨entries⟩ := b
  simp only [contains, get?]
  induction entries with
  | nil => simp [valueIn?]
  | cons entry rest ih =>
    rw [valueIn?, List.map_cons, List.mem_cons]
    split
    · simp [*]
    · simp [*]

/-- Names that are new and distinct are added one behind the other. -/
theorem Reference.bindAll_of_nodup {entries : List (String × Word)} {b : Bindings}
    (h : ((b.entries ++ entries).map Prod.fst).Nodup) :
    bindAll entries b = ⟨b.entries ++ entries⟩ := by
  induction entries generalizing b with
  | nil =>
    rw [List.append_nil]
    rfl
  | cons entry rest ih =>
    have hnew : b.contains entry.1 = false := by
      rw [Bool.eq_false_iff, ne_eq, Bindings.contains_eq_true_iff]
      rw [List.map_append, List.map_cons, List.nodup_append] at h
      exact fun hmem ↦ h.2.2 _ hmem _ (List.mem_cons_self ..) rfl
    have hstep : bindAll (entry :: rest) b = bindAll rest (b.insert entry.1 entry.2) := rfl
    rw [hstep, Bindings.insert_of_not_contains hnew, ih, List.append_assoc, List.singleton_append]
    rwa [List.append_assoc, List.singleton_append]

namespace Run

variable {bounds : Bounds} {s : ScopeId} {m m' : Machine} {p : Procedure} {values : List Word}
  {c c' : Entry}

/-! ### Parameters and arguments -/

/-- There is a value for each argument, and it is what the argument evaluates to after those before
it. -/
theorem evalAll_eq_ok {call : Caller} {es : List Expr} (h : evalAll call s es m = .ok values m') :
    values.length = es.length ∧ ∀ i e, es[i]? = some e →
      ∃ m₁ value m₂, evalAll call s (es.take i) m = .ok (values.take i) m₁ ∧
        eval call s e m₁ = .ok value m₂ ∧ values[i]? = some value := by
  induction es generalizing m values with
  | nil =>
    cases h
    simp
  | cons first rest ih =>
    obtain ⟨value, m₁, hfirst, h⟩ := exists_of_bind_eq_ok h
    obtain ⟨others, m₂, hrest, h⟩ := exists_of_bind_eq_ok h
    cases h
    obtain ⟨hlength, hvalues⟩ := ih hrest
    refine ⟨congrArg Nat.succ hlength, fun i e he ↦ ?_⟩
    cases i with
    | zero =>
      cases he
      exact ⟨m, value, m₁, rfl, hfirst, rfl⟩
    | succ i =>
      obtain ⟨m₃, v, m₄, hbefore, hv, hvalue⟩ := hvalues i e he
      refine ⟨m₃, v, m₄, ?_, hv, hvalue⟩
      rw [List.take_succ_cons, evalAll, bind_of_ok hfirst, bind_of_ok hbefore]
      rfl

/-- **The frame is bound as it is written.** In a scope that has just been pushed all declarations
of a frame succeed, and what they leave there is the frame, entry by entry. -/
theorem declareAll_frame (hm : m.env.IsTwoLevel) (console : Console) (journal : Journal)
    (hdistinct : p.boundNames.Nodup) (hlength : values.length = p.params.length) :
    ∃ m', declareAll m.env.nextScope (frame p values) ⟨m.env.push, console, journal⟩ = .ok () m' ∧
      m'.Ready m.env.nextScope ∧ m'.env.bindings m.env.nextScope = ⟨frame p values⟩ := by
  have hroot := Environment.nextScope_ne_root hm.pos
  have hready := ready_push hm console journal
  obtain ⟨m', hdeclared, hframe, -, hview⟩ :=
    declareAll_apply hroot (frame p values) ⟨hready, rfl, rfl⟩
  -- the scope is behind the last one of the old environment, and a push binds nothing
  have hempty : m.env.push.bindings m.env.nextScope = .empty := by
    rw [Environment.bindings_push]
    exact Environment.bindings_of_le (Nat.le_refl m.env.depth)
  have hbound : m'.env.bindings m.env.nextScope =
      Reference.bindAll (frame p values) (m.env.push.bindings m.env.nextScope) := by
    have hsame := congrArg Reference.State.frame hview
    simpa [Machine.view, Reference.State.withFrame, hroot] using hsame
  refine ⟨m', hdeclared, hframe.ready hready, ?_⟩
  rw [hbound, hempty, Reference.bindAll_of_nodup]
  · rfl
  · rwa [Bindings.empty, List.nil_append, map_fst_frame hlength]

/-! ### Names that stay bound -/

/-- What an entry can rely on that is made, directly or not, from another one. -/
structure Handed (c c' : Entry) : Prop where
  /-- A run may start in its scope. -/
  ready : c'.machine.Ready c'.scope
  /-- The procedures are the same. -/
  procedures : c'.machine.env.procedures = c.machine.env.procedures
  /-- Every scope binds the names that it bound. -/
  bound : ∀ (t : ScopeId) (n : String), c.machine.env.Binds t n → c'.machine.env.Binds t n

/-- **One step:** what is bound and registered where a part is entered is bound and registered where
the next one is entered from it. -/
theorem Enters.handed (hbounds : bounds.calls ≤ Console.maxCalls) (h : Enters bounds c c')
    (hc : c.machine.Ready c.scope) : Handed c c' := by
  obtain ⟨hscope, hframe⟩ | ⟨m, console, journal, hcaller, -, -, hscope, hframe⟩ :=
    h.frame_or_call hbounds hc
  · refine ⟨?_, hframe.procedures, hframe.bound⟩
    rw [hscope]
    exact hframe.ready hc
  · have hpushed := ready_push (hcaller.ready hc).isTwoLevel console journal
    refine ⟨?_, hframe.procedures.trans hcaller.procedures, fun t n hn ↦ hframe.bound t n ?_⟩
    · rw [hscope]
      exact hframe.ready hpushed
    · -- the new scope hides nothing that the others bind
      have hkept := hcaller.bound t n hn
      rw [Environment.binds_iff] at hkept ⊢
      rwa [Environment.bindings_push]

/-- So it is wherever the run gets from there. -/
theorem handed_of_reached (hbounds : bounds.calls ≤ Console.maxCalls)
    (h : Relation.ReflTransGen (Enters bounds) c c') (hc : c.machine.Ready c.scope) :
    Handed c c' := by
  induction h with
  | refl => exact ⟨hc, rfl, fun _ _ hn ↦ hn⟩
  | tail _ hstep ih =>
    have hnext := hstep.handed hbounds ih.ready
    exact ⟨hnext.ready, hnext.procedures.trans ih.procedures,
      fun t n hn ↦ hnext.bound t n (ih.bound t n hn)⟩

/-- A name that a scope binds is found in it, and the globals are not asked. -/
theorem lookup_of_binds (hm : m.Ready s) {name : String} (h : m.env.Binds s name) (line : Nat) :
    ∃ value, m.env.resolve s name = some s ∧ m.env.localValue? s name = some value ∧
      m.env.get? s name = some value ∧ lookup s name line m = .ok value m := by
  obtain ⟨value, hvalue⟩ := Option.isSome_iff_exists.1 h
  have hresolve : m.env.resolve s name = some s := by
    rw [hm.isTwoLevel.resolve_eq hm.isLive, if_pos (Environment.binds_iff.1 h)]
  have hget : m.env.get? s name = some value := by
    rw [Environment.get?, hresolve]
    exact hvalue
  refine ⟨value, hresolve, hvalue, hget, ?_⟩
  rw [lookup, liveEnv_bind_apply hm, hget]
  rfl

/-- When the body of a procedure is through, the return slot is found in the scope of the call. -/
theorem returns_of_body {call : Caller} (hcall : CallKeeps call) {rounds : Nat} (hm : m.Ready s)
    (hslot : m.env.Binds s p.name) (hbody : execBlock call rounds s p.body m = .ok () m') :
    ∃ value, m'.env.resolve s p.name = some s ∧ m'.env.localValue? s p.name = some value ∧
      lookup s p.name p.line m' = .ok value m' := by
  have hkept := (execBlock_keeps hcall rounds p.body).frame hm hbody
  obtain ⟨value, hresolve, hvalue, -, hlookup⟩ :=
    lookup_of_binds (hkept.ready hm) (hkept.bound s p.name hslot) p.line
  exact ⟨value, hresolve, hvalue, hlookup⟩

/-- So what is done for a call halts only in the body. -/
theorem halt?_body_of_runBody {call : Caller} (hcall : CallKeeps call) {rounds : Nat}
    (hs : s ≠ .root) (hm : m.Ready s) {h : Halt}
    (hhalt : halt? (runBody call rounds p values s m) = some h) :
    ∃ m', declareAll s (frame p values) m = .ok () m' ∧
      halt? (execBlock call rounds s p.body m') = some h := by
  obtain ⟨m₁, hdeclared, hframe, hbinds, -⟩ :=
    declareAll_apply hs (frame p values) ⟨hm, rfl, rfl⟩
  refine ⟨m₁, hdeclared, ?_⟩
  rw [runBody, bind_of_ok hdeclared] at hhalt
  cases hbody : execBlock call rounds s p.body m₁ with
  | ok _ m₂ =>
    have hslot := hbinds (p.name, .zero) (List.mem_cons_self ..)
    obtain ⟨value, -, -, hlookup⟩ := returns_of_body hcall (hframe.ready hm) hslot hbody
    rw [bind_of_ok hbody, hlookup] at hhalt
    cases hhalt
  | error e m₂ =>
    rw [bind_of_error hbody] at hhalt
    exact hhalt

end Run

end TinyProc
