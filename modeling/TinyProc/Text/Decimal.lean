/-!
# Decimal text

Numbers are written in base ten without leading zeros, a minus sign in front of the negative ones.
Reading is more generous: a single sign of either kind and any number of leading zeros are accepted.

* `Decimal.ofNat`, `Decimal.ofInt` write;
* `Decimal.value` is the number a run of digits stands for;
* `Decimal.natural?`, `Decimal.integer?` read a whole text and refuse everything else.

Writing and reading rest on the digit functions of the standard library, so that its lemma that
digits read back to their number carries over.
-/

namespace TinyProc.Decimal

/-- The text of a natural number. -/
def ofNat (n : Nat) : String :=
  String.ofList (Nat.toDigits 10 n)

/-- The text of an integer. -/
def ofInt : Int → String
  | .ofNat n => ofNat n
  | .negSucc n => "-" ++ ofNat (n + 1)

@[simp] theorem ofInt_natCast (n : Nat) : ofInt n = ofNat n := rfl

/-- The number that a run of digits stands for, the most significant digit first. -/
def value (digits : List Char) : Nat :=
  Nat.ofDigitChars 10 digits 0

@[simp] theorem value_nil : value [] = 0 := rfl

/-- Digits written for a number stand for that number. -/
@[simp] theorem value_toDigits (n : Nat) : value (Nat.toDigits 10 n) = n :=
  Nat.ofDigitChars_ten_toDigits

/-- Reads one or more digits. -/
def natural? (text : List Char) : Option Nat :=
  if text ≠ [] ∧ text.all Char.isDigit then some (value text) else none

@[simp] theorem natural?_nil : natural? [] = none := rfl

/-- Reads an integer: at most one sign, then one or more digits. -/
def integer? : List Char → Option Int
  | '-' :: digits => (natural? digits).map fun n ↦ -(n : Int)
  | '+' :: digits => (natural? digits).map Int.ofNat
  | digits => (natural? digits).map Int.ofNat

end TinyProc.Decimal
