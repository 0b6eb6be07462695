import Mathlib.Data.List.Basic
import TinyProc.Syntax.Program

/-!
# Comparing nesting

How many levels a list of lexemes takes is said from two sides. A list `Passes n` if `n` levels are
enough: the check of the nesting goes over it as if it were not there. A list `Needs n` if the check
cannot go over it with less. Both are about the list in front of an arbitrary rest, so that lists
can be put together: the two have the same rules for appending lists and for putting a list between
a token that opens a level and one that closes it.

One list is nested `NoDeeper` than another if some number of levels is enough for the first and
needed by the second. The rules for this relation follow in pairs, and those that change only the
second list are the ways in which it may waste levels.
-/

namespace TinyProc

variable {limit depth n m : Nat} {c c' d d' : List Lexeme} {a b : Lexeme}

/-! ### One token -/

/-- Lexemes that neither open nor close a level. -/
def Flat (c : List Lexeme) : Prop :=
  ∀ lexeme ∈ c, lexeme.token.opensLevel = false ∧ lexeme.token.closesLevel = false

theorem flat_nil : Flat [] :=
  List.forall_mem_nil _

theorem flat_singleton (hopens : a.token.opensLevel = false)
    (hcloses : a.token.closesLevel = false) : Flat [a] :=
  List.forall_mem_singleton.2 ⟨hopens, hcloses⟩

/-- No token does both, although the check asks first whether a token opens a level. -/
theorem opensLevel_eq_false_of_closesLevel {token : Token} (h : token.closesLevel = true) :
    token.opensLevel = false := by
  unfold Token.closesLevel at h
  split at h
  · rfl
  · rfl
  · cases h

/-- The check fails at a token that opens a level beyond the limit, and otherwise goes on one level
further in. -/
theorem tooDeep?_of_opens (ha : a.token.opensLevel = true) (rest : List Lexeme) :
    tooDeep? limit depth (a :: rest) =
      if depth + 1 > limit then some a else tooDeep? limit (depth + 1) rest := by
  rw [tooDeep?, if_pos ha]

/-- On the ground level the check stays there. A token that closes nothing is not its concern. -/
theorem tooDeep?_of_closes (hb : b.token.closesLevel = true) (rest : List Lexeme) :
    tooDeep? limit depth (b :: rest) = tooDeep? limit (depth - 1) rest := by
  rw [tooDeep?, opensLevel_eq_false_of_closesLevel hb, if_neg Bool.false_ne_true, if_pos hb]

/-- The check goes over flat lists on any level. -/
theorem tooDeep?_of_flat (hc : Flat c) (rest : List Lexeme) :
    tooDeep? limit depth (c ++ rest) = tooDeep? limit depth rest := by
  induction c with
  | nil => rfl
  | cons a c ih =>
    obtain ⟨hopens, hcloses⟩ := hc a List.mem_cons_self
    rw [List.cons_append, tooDeep?, hopens, hcloses, if_neg Bool.false_ne_true,
      if_neg Bool.false_ne_true, ih fun x hx ↦ hc x (List.mem_cons_of_mem _ hx)]

/-- What neither opens nor closes a level makes no difference anywhere. -/
theorem tooDeep?_insert_flat (hd : Flat d) (c rest : List Lexeme) :
    tooDeep? limit depth (c ++ (d ++ rest)) = tooDeep? limit depth (c ++ rest) := by
  induction c generalizing depth with
  | nil => exact tooDeep?_of_flat hd rest
  | cons a c ih => simp only [List.cons_append, tooDeep?, ih]

theorem tooDeep?_append_of_flat (hd : Flat d) : tooDeep? limit depth (c ++ d) =
    tooDeep? limit depth c := by
  simpa using tooDeep?_insert_flat hd c []

/-! ### Enough levels -/

/-- With `n` levels to spare the check goes over the list as if it were not there. -/
def Passes (n : Nat) (c : List Lexeme) : Prop :=
  ∀ limit depth rest, depth + n ≤ limit →
    tooDeep? limit depth (c ++ rest) = tooDeep? limit depth rest

theorem Passes.mono (h : Passes n c) (hle : n ≤ m) : Passes m c :=
  fun limit depth rest hdepth ↦ h limit depth rest (by omega)

theorem passes_of_flat (hc : Flat c) : Passes n c :=
  fun _ _ rest _ ↦ tooDeep?_of_flat hc rest

/-- Lists one behind the other need no more levels than each of them. -/
theorem Passes.append (hc : Passes n c) (hd : Passes n d) : Passes n (c ++ d) := by
  intro limit depth rest hdepth
  rw [List.append_assoc, hc limit depth _ hdepth, hd limit depth rest hdepth]

/-- Inside of a construct, one level is taken already. -/
theorem Passes.bracket (ha : a.token.opensLevel = true) (hb : b.token.closesLevel = true)
    (h : Passes n c) : Passes (n + 1) (a :: (c ++ [b])) := by
  intro limit depth rest hdepth
  rw [List.cons_append, tooDeep?_of_opens ha, if_neg (by omega), List.append_assoc,
    h limit (depth + 1) _ (by omega), List.singleton_append, tooDeep?_of_closes hb,
    Nat.add_sub_cancel]

/-! ### Needed levels -/

/-- The check goes over the list only with `n` levels to spare. -/
def Needs (n : Nat) (c : List Lexeme) : Prop :=
  ∀ limit depth rest, depth ≤ limit → tooDeep? limit depth (c ++ rest) = none →
    depth + n ≤ limit ∧ tooDeep? limit depth rest = none

theorem Needs.anti (h : Needs m c) (hle : n ≤ m) : Needs n c := by
  intro limit depth rest hdepth hnone
  obtain ⟨hm, hrest⟩ := h limit depth rest hdepth hnone
  exact ⟨by omega, hrest⟩

theorem needs_of_flat (hc : Flat c) : Needs 0 c :=
  fun _ _ rest hdepth hnone ↦ ⟨hdepth, (tooDeep?_of_flat hc rest).symm.trans hnone⟩

/-- Lists one behind the other need what either of them needs. -/
theorem Needs.append (hc : Needs n c) (hd : Needs m d) : Needs (max n m) (c ++ d) := by
  intro limit depth rest hdepth hnone
  rw [List.append_assoc] at hnone
  obtain ⟨hn, hrest⟩ := hc limit depth _ hdepth hnone
  obtain ⟨hm, hrest'⟩ := hd limit depth rest hdepth hrest
  exact ⟨by omega, hrest'⟩

/-- What is needed inside of a construct is needed on top of its own level. -/
theorem Needs.bracket (ha : a.token.opensLevel = true) (hb : b.token.closesLevel = true)
    (h : Needs n c) : Needs (n + 1) (a :: (c ++ [b])) := by
  intro limit depth rest hdepth hnone
  rw [List.cons_append, tooDeep?_of_opens ha, List.append_assoc, List.singleton_append] at hnone
  split at hnone
  · cases hnone
  · obtain ⟨hn, hrest⟩ := h limit (depth + 1) _ (by omega) hnone
    rw [tooDeep?_of_closes hb, Nat.add_sub_cancel] at hrest
    exact ⟨by omega, hrest⟩

/-! ### Comparison -/

/-- Some number of levels is enough for the first list and needed by the second. -/
def NoDeeper (c' c : List Lexeme) : Prop :=
  ∃ n, Passes n c' ∧ Needs n c

namespace NoDeeper

theorem of_flat (hc' : Flat c') (hc : Flat c) : NoDeeper c' c :=
  ⟨0, passes_of_flat hc', needs_of_flat hc⟩

/-- Two lists are compared part by part. The levels are those of the deeper part, in both. -/
theorem append (hc : NoDeeper c' c) (hd : NoDeeper d' d) : NoDeeper (c' ++ d') (c ++ d) := by
  obtain ⟨n, hpasses, hneeds⟩ := hc
  obtain ⟨m, hpasses', hneeds'⟩ := hd
  exact ⟨max n m, (hpasses.mono (Nat.le_max_left ..)).append (hpasses'.mono (Nat.le_max_right ..)),
    hneeds.append hneeds'⟩

/-- A token in front of both lists, which may be a different one in each. -/
theorem cons {a' : Lexeme} (ha' : Flat [a']) (ha : Flat [a]) (h : NoDeeper c' c) :
    NoDeeper (a' :: c') (a :: c) :=
  (of_flat ha' ha).append h

/-- The same level around both lists. -/
theorem bracket {a' b' : Lexeme} (ha' : a'.token.opensLevel = true)
    (hb' : b'.token.closesLevel = true) (ha : a.token.opensLevel = true)
    (hb : b.token.closesLevel = true) (h : NoDeeper c' c) :
    NoDeeper (a' :: (c' ++ [b'])) (a :: (c ++ [b])) := by
  obtain ⟨n, hpasses, hneeds⟩ := h
  exact ⟨n + 1, hpasses.bracket ha' hb', hneeds.bracket ha hb⟩

/-- A level that only the second list opens. -/
theorem bracket_right (ha : a.token.opensLevel = true) (hb : b.token.closesLevel = true)
    (h : NoDeeper c' c) : NoDeeper c' (a :: (c ++ [b])) := by
  obtain ⟨n, hpasses, hneeds⟩ := h
  exact ⟨n, hpasses, (hneeds.bracket ha hb).anti (Nat.le_succ n)⟩

/-- The same level around both lists, each in two parts with a token between them. -/
theorem bracket_two {a' b' s s' : Lexeme} (ha' : a'.token.opensLevel = true)
    (hb' : b'.token.closesLevel = true) (ha : a.token.opensLevel = true)
    (hb : b.token.closesLevel = true) (hs' : Flat [s']) (hs : Flat [s]) (hc : NoDeeper c' c)
    (hd : NoDeeper d' d) :
    NoDeeper (a' :: (c' ++ s' :: (d' ++ [b']))) (a :: (c ++ s :: (d ++ [b]))) := by
  have hboth := (hc.append (hd.cons hs' hs)).bracket ha' hb' ha hb
  rw [List.append_assoc, List.append_assoc] at hboth
  exact hboth

/-- A list that is nested no deeper than the front of an accepted one is accepted. -/
theorem tooDeep?_eq_none {rest : List Lexeme} (h : NoDeeper c' c)
    (hnone : tooDeep? limit 0 (c ++ rest) = none) : tooDeep? limit 0 c' = none := by
  obtain ⟨n, hpasses, hneeds⟩ := h
  obtain ⟨hn, -⟩ := hneeds limit 0 rest (Nat.zero_le _) hnone
  rw [← List.append_nil c', hpasses limit 0 [] hn]
  rfl

end NoDeeper

end TinyProc
