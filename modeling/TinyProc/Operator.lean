import TinyProc.Fault
import TinyProc.Token.Basic

/-!
# Operators

The ten operators between two values, their precedence and what they compute. Arithmetic is exact
and fails where the result is no word; a comparison yields one or zero.
-/

namespace TinyProc

/-- An operator between two values. -/
inductive Operator
  | add
  | sub
  | mul
  | div
  | equal
  | notEqual
  | less
  | greater
  | lessEqual
  | greaterEqual
deriving DecidableEq

/-- The three levels of precedence, the loosest first. -/
inductive Precedence
  | relational
  | additive
  | multiplicative
deriving DecidableEq

namespace Operator

/-- The level on which an operator binds. -/
def precedence : Operator → Precedence
  | add | sub => .additive
  | mul | div => .multiplicative
  | equal | notEqual | less | greater | lessEqual | greaterEqual => .relational

/-- Whether an operator compares. -/
def isRelational (op : Operator) : Bool :=
  op.precedence = .relational

/-- The symbol of an operator. -/
def symbol : Operator → Symbol
  | add => .plus
  | sub => .minus
  | mul => .star
  | div => .slash
  | equal => .equals
  | notEqual => .notEqual
  | less => .less
  | greater => .greater
  | lessEqual => .lessEqual
  | greaterEqual => .greaterEqual

/-- The spelling of an operator. -/
def text (op : Operator) : String :=
  op.symbol.text

/-- The operator that a symbol stands for between two values. -/
def ofSymbol? : Symbol → Option Operator
  | .plus => some add
  | .minus => some sub
  | .star => some mul
  | .slash => some div
  | .equals => some equal
  | .notEqual => some notEqual
  | .less => some less
  | .greater => some greater
  | .lessEqual => some lessEqual
  | .greaterEqual => some greaterEqual
  | .colonEquals | .percent | .leftParen | .rightParen | .semicolon | .colon | .comma
  | .period => none

/-- The operator that a token stands for between two values. -/
def ofToken? : Token → Option Operator
  | .symbol s => ofSymbol? s
  | _ => none

theorem ofSymbol?_eq_some_iff {s : Symbol} {op : Operator} :
    ofSymbol? s = some op ↔ op.symbol = s := by
  cases s <;> cases op <;> decide

@[simp] theorem ofSymbol?_symbol (op : Operator) : ofSymbol? op.symbol = some op :=
  ofSymbol?_eq_some_iff.2 rfl

@[simp] theorem ofToken?_symbol (op : Operator) : ofToken? (.symbol op.symbol) = some op :=
  ofSymbol?_symbol op

/-- The word that is an exact result, or the fault that there is none. -/
def checked (i : Int) : Except FaultCause Word :=
  match Word.ofInt? i with
  | some w => .ok w
  | none => .error .overflow

/-- Applies an operator. Division goes toward zero; a divisor of zero is reported as such, and not
as an overflow. -/
def apply (op : Operator) (left right : Word) : Except FaultCause Word :=
  match op with
  | add => checked (left.val + right.val)
  | sub => checked (left.val - right.val)
  | mul => checked (left.val * right.val)
  | div => if right.val = 0 then .error .divisionByZero else checked (left.val.tdiv right.val)
  | equal => .ok (.ofBool (left.val = right.val))
  | notEqual => .ok (.ofBool (left.val ≠ right.val))
  | less => .ok (.ofBool (left.val < right.val))
  | greater => .ok (.ofBool (left.val > right.val))
  | lessEqual => .ok (.ofBool (left.val ≤ right.val))
  | greaterEqual => .ok (.ofBool (left.val ≥ right.val))

theorem checked_eq_error {i : Int} {cause : FaultCause} (h : checked i = .error cause) :
    cause = .overflow := by
  unfold checked at h
  split at h
  · cases h
  · exact (Except.error.inj h).symm

/-- An operator fails in two ways only. -/
theorem apply_eq_error {op : Operator} {left right : Word} {cause : FaultCause}
    (h : op.apply left right = .error cause) : cause = .overflow ∨ cause = .divisionByZero := by
  cases op with
  | add | sub | mul => exact .inl (checked_eq_error h)
  | div =>
    unfold apply at h
    dsimp only at h
    split at h
    · exact .inr (Except.error.inj h).symm
    · exact .inl (checked_eq_error h)
  | equal | notEqual | less | greater | lessEqual | greaterEqual => cases h

end Operator

end TinyProc
