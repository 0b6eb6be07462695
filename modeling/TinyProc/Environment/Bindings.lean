import TinyProc.Word

/-!
# Bindings

What a scope holds: names with their values, each name at most once when built by the operations
here. The view of a set of bindings is `get?`, and the lemmas say what each operation does to it.
-/

namespace TinyProc

/-- Names with their values. -/
structure Bindings where
  /-- The names and values, the oldest first. -/
  entries : List (String × Word)
deriving DecidableEq

namespace Bindings

/-- No bindings. -/
def empty : Bindings := ⟨[]⟩

/-- The value of a name in a list of entries. -/
def valueIn? (name : String) : List (String × Word) → Option Word
  | [] => none
  | entry :: rest => if name = entry.1 then some entry.2 else valueIn? name rest

/-- The value of a name, if it is bound. -/
def get? (b : Bindings) (name : String) : Option Word :=
  valueIn? name b.entries

/-- Whether a name is bound. -/
def contains (b : Bindings) (name : String) : Bool :=
  (b.get? name).isSome

/-- Gives a name a value in a list of entries: in its place if it is bound there, else at the end.
-/
def insertEntry (name : String) (value : Word) : List (String × Word) → List (String × Word)
  | [] => [(name, value)]
  | entry :: rest =>
    if name = entry.1 then (name, value) :: rest else entry :: insertEntry name value rest

/-- Gives a name a value. -/
def insert (b : Bindings) (name : String) (value : Word) : Bindings :=
  ⟨insertEntry name value b.entries⟩

@[simp] theorem get?_empty (name : String) : empty.get? name = none := rfl

@[simp] theorem contains_empty (name : String) : empty.contains name = false := rfl

theorem get?_insert (b : Bindings) (name other : String) (value : Word) :
    (b.insert name value).get? other = if other = name then some value else b.get? other := by
  obtain ⟨entries⟩ := b
  simp only [get?, insert]
  induction entries with
  | nil => simp [insertEntry, valueIn?]
  | cons entry rest ih =>
    unfold insertEntry
    by_cases hk : name = entry.1
    · subst hk
      by_cases h : other = entry.1 <;> simp [valueIn?, h]
    · by_cases ho : other = entry.1
      · subst ho
        simp [hk, valueIn?, Ne.symm hk]
      · simp [hk, valueIn?, ho, ih]

@[simp] theorem get?_insert_self (b : Bindings) (name : String) (value : Word) :
    (b.insert name value).get? name = some value := by
  simp [get?_insert]

theorem get?_insert_of_ne (b : Bindings) {name other : String} (value : Word)
    (h : other ≠ name) : (b.insert name value).get? other = b.get? other := by
  simp [get?_insert, h]

theorem contains_insert (b : Bindings) (name other : String) (value : Word) :
    (b.insert name value).contains other = (decide (other = name) || b.contains other) := by
  by_cases h : other = name <;> simp [contains, get?_insert, h]

end Bindings

end TinyProc
