import TinyProc.Text.Decimal

/-!
# Words

The numbers of the language: integers that fit in 64 bits with a sign. A `Word` is an integer with
the proof that it is in range, so that arithmetic is the exact arithmetic of the integers followed
by one question, whether the result is a word again (`Word.ofInt?`). Nothing wraps around.
-/

namespace TinyProc

/-- The integers from `-2 ^ 63` to `2 ^ 63 - 1`. -/
def InRange (i : Int) : Prop :=
  -9223372036854775808 ≤ i ∧ i ≤ 9223372036854775807

instance (i : Int) : Decidable (InRange i) :=
  inferInstanceAs (Decidable (_ ∧ _))

/-- A number of the language. -/
@[ext] structure Word where
  /-- The integer it is. -/
  val : Int
  /-- It fits in 64 bits. -/
  inRange : InRange val
deriving DecidableEq

namespace Word

/-- The word that is the integer `i`, if there is one. -/
def ofInt? (i : Int) : Option Word :=
  if h : InRange i then some ⟨i, h⟩ else none

@[simp] theorem ofInt?_val (w : Word) : ofInt? w.val = some w := by
  simp [ofInt?, w.inRange]

theorem ofInt?_eq_some_iff {i : Int} {w : Word} : ofInt? i = some w ↔ w.val = i := by
  constructor
  · intro h
    unfold ofInt? at h
    split at h
    · cases h; rfl
    · cases h
  · rintro rfl
    exact ofInt?_val w

theorem ofInt?_eq_none_iff {i : Int} : ofInt? i = none ↔ ¬ InRange i := by
  simp [ofInt?]

/-- Zero: the value of a fresh return slot and of a fresh local, and the only value that counts as
false. -/
def zero : Word := ⟨0, by decide⟩

/-- One: what a comparison that holds yields. -/
def one : Word := ⟨1, by decide⟩

/-- Minus one: the factor that a minus sign in front of a value stands for. -/
def minusOne : Word := ⟨-1, by decide⟩

@[simp] theorem val_zero : zero.val = 0 := rfl
@[simp] theorem val_one : one.val = 1 := rfl
@[simp] theorem val_minusOne : minusOne.val = -1 := rfl

/-- The word that stands for a truth value. -/
def ofBool (b : Bool) : Word :=
  if b then one else zero

@[simp] theorem ofBool_true : ofBool true = one := rfl
@[simp] theorem ofBool_false : ofBool false = zero := rfl

/-- The decimal text of a word. -/
def text (w : Word) : String :=
  Decimal.ofInt w.val

/-- Reads a word: at most one sign, then one or more digits, in range. -/
def read? (text : List Char) : Option Word :=
  (Decimal.integer? text).bind ofInt?

end Word

end TinyProc
