import TinyProc.Proofs.Sequencing
import TinyProc.Proofs.Syntax.Nesting
import TinyProc.Proofs.Syntax.Steps

/-!
# Parsing within a budget of levels

`programWithin levels` parses a program and fails at the first token that opens one level more than
`levels`. All four tokens that open a level are counted, the parenthesis in front of the parameters
of a procedure included.

The check of the nesting knows nothing of the grammar: it counts up and down along the stream. What
ties it to the parser is that the count is right wherever the parser gets to. A parser that has
consumed the front of a stream stands on the level on which the check stands, whatever comes behind
it (`Tracks.ok`). So if a token opens a level where the budget is used up, it is the token at which
the check fails (`Tracks.tooDeep`). Tokens that close a level nobody has opened do no harm, since
no parser goes on after one of them.

Two parsers are `InStep` if this holds of the first, and the second does what the first does unless
the budget is used up. There is one lemma for each parser, and each takes parsers that are in step
to parsers that are in step.
-/

namespace TinyProc.Parser

variable {α β : Type}

/-! ### Counting every level -/

/-- The parameters of a procedure where so many levels may be opened. The parenthesis in front of
them opens one. -/
def parametersWithin (levels : Nat) : Parser (List String) := do
  let line ← expect (.symbol .leftParen)
  match levels with
  | 0 => failTooDeep ⟨.symbol .leftParen, line⟩
  | _ + 1 => commaList identifier (.symbol .rightParen)

/-- What follows the keyword `procedure`, which stood on the given line, given the parsers of the
parameters and of the body. -/
def heading (parameters : Parser (List String)) (body : Parser Block) (line : Nat) :
    Parser Procedure := do
  let name ← identifier
  let params ← parameters
  let locals ← localNames
  procedureBody body name params locals line

/-- A procedure in which so many levels may be opened, itself included. -/
def procedureWithin (levels : Nat) : Parser Procedure := do
  let line ← expect (.keyword .procedureKw)
  match levels with
  | 0 => failTooDeep ⟨.keyword .procedureKw, line⟩
  | levels + 1 => heading (parametersWithin levels) (statements levels) line

/-- A program, given the parser of its procedures. -/
def programFrom (proc : Parser Procedure) (levels : Nat) : Parser Program := do
  let procedures ← do moreProcedures proc (← remaining)
  let statements ← statements levels
  programEnd ⟨procedures, statements⟩

/-- A program in which so many levels may be opened. -/
def programWithin (levels : Nat) : Parser Program :=
  programFrom (procedureWithin levels) levels

/-! ### Parsers in step -/

variable {limit depth : Nat} {after mid : α → Nat} {ts ts' : List Lexeme}

/-- How two parsers have ended that were started on level `depth` in front of `ts`. -/
inductive Tracks (limit depth : Nat) (after : α → Nat) (ts : List Lexeme) :
    EStateM.Result SyntaxError Cursor α → EStateM.Result SyntaxError Cursor α → Prop
  /-- Both succeed, and the check has come to the same level along what they have consumed. -/
  | ok {a : α} {c : Cursor} (hle : after a ≤ limit)
      (hrest : tooDeep? limit depth ts = tooDeep? limit (after a) c.rest) :
      Tracks limit depth after ts (.ok a c) (.ok a c)
  /-- Both fail, for want of something other than levels. -/
  | error {e : SyntaxError} {c : Cursor} (he : ∀ n, e.cause ≠ .nestingTooDeep n) :
      Tracks limit depth after ts (.error e c) (.error e c)
  /-- The first has no level left for a token, and the check fails there. -/
  | tooDeep {opening : Lexeme} {c : Cursor} {r : EStateM.Result SyntaxError Cursor α}
      (h : tooDeep? limit depth ts = some opening) :
      Tracks limit depth after ts (.error ⟨.nestingTooDeep 0, opening.line⟩ c) r

/-- Started on a level within the limit, the first parser keeps up with the check, and the second
does what the first does unless the levels of the first are used up. -/
def InStep (limit depth : Nat) (after : α → Nat) (x y : Parser α) : Prop :=
  depth ≤ limit → ∀ ts j, Tracks limit depth after ts (x ⟨ts, j⟩) (y ⟨ts, j⟩)

/-- The parsers are in step, and close the levels that they open. -/
def Balanced (limit depth : Nat) (x y : Parser α) : Prop :=
  InStep limit depth (fun _ ↦ depth) x y

/-- The check has come to the level `depth'` in front of `ts'`. -/
theorem Tracks.of_eq {depth' : Nat} {r r' : EStateM.Result SyntaxError Cursor α}
    (h : Tracks limit depth' after ts' r r')
    (heq : tooDeep? limit depth ts = tooDeep? limit depth' ts') :
    Tracks limit depth after ts r r' := by
  cases h with
  | ok hle hrest => exact .ok hle (heq.trans hrest)
  | error he => exact .error he
  | tooDeep h => exact .tooDeep (heq.trans h)

/-- Where the check does not fail, both have ended alike. -/
theorem Tracks.eq_of_none {r r' : EStateM.Result SyntaxError Cursor α}
    (h : Tracks limit depth after ts r r') (hnone : tooDeep? limit depth ts = none) : r = r' := by
  cases h with
  | ok _ _ => rfl
  | error _ => rfl
  | tooDeep h =>
    rw [hnone] at h
    cases h

/-- Where the check does not fail, the second is not short of levels either. -/
theorem Tracks.ne_nestingTooDeep {r : EStateM.Result SyntaxError Cursor α} {e : SyntaxError}
    {c : Cursor} (h : Tracks limit depth after ts r (.error e c))
    (hnone : tooDeep? limit depth ts = none) (n : Nat) : e.cause ≠ .nestingTooDeep n := by
  cases h with
  | error he => exact he n
  | tooDeep h =>
    rw [hnone] at h
    cases h

/-- The second parsers start on the level that the first ones have come to. -/
theorem InStep.bind {β : Type} {after : β → Nat} {x y : Parser α} {f g : α → Parser β}
    (hx : InStep limit depth mid x y) (hf : ∀ a, InStep limit (mid a) after (f a) (g a)) :
    InStep limit depth after (x >>= f) (y >>= g) := by
  intro hdepth ts j
  have h := hx hdepth ts j
  generalize hleft : x ⟨ts, j⟩ = r, hright : y ⟨ts, j⟩ = r' at h
  cases h with
  | @ok a c hle hrest =>
    rw [bind_of_ok hleft, bind_of_ok hright]
    exact (hf a hle c.rest c.journal).of_eq hrest
  | error he =>
    rw [bind_of_error hleft, bind_of_error hright]
    exact .error he
  | tooDeep h =>
    rw [bind_of_error hleft]
    exact .tooDeep h

/-- After parsers that close their levels, one goes on from the level one has started on. -/
theorem Balanced.bind {x y : Parser α} {after : β → Nat} {f g : α → Parser β}
    (hx : Balanced limit depth x y) (hf : ∀ a, InStep limit depth after (f a) (g a)) :
    InStep limit depth after (x >>= f) (y >>= g) :=
  InStep.bind hx hf

/-- A parser that consumes nothing closes what it opens. The count of the check stays where it is.
-/
theorem balanced_pure (a : α) : Balanced limit depth (pure a) (pure a) :=
  fun hdepth _ _ ↦ .ok hdepth rfl

theorem balanced_remaining : Balanced limit depth remaining remaining :=
  fun hdepth _ _ ↦ .ok hdepth rfl

theorem balanced_note (e : Event) : Balanced limit depth (note e) (note e) :=
  fun hdepth _ _ ↦ .ok hdepth rfl

/-! ### Single tokens -/

/-- The check passes the token and goes from one level to the other, which is no deeper. -/
structure Lowers (depth depth' : Nat) (token : Token) : Prop where
  /-- No level is opened. -/
  le : depth' ≤ depth
  /-- The check goes on from the new level. -/
  check (limit line : Nat) (ts : List Lexeme) :
    tooDeep? limit depth (⟨token, line⟩ :: ts) = tooDeep? limit depth' ts

/-- A token that has nothing to do with levels leaves the count as it is. -/
theorem lowers_of_flat {token : Token} (hopens : token.opensLevel = false)
    (hcloses : token.closesLevel = false) : Lowers depth depth token where
  le := Nat.le_refl depth
  check _ _ ts := tooDeep?_of_flat (flat_singleton hopens hcloses) ts

/-- A token that closes a level takes the count down by one. The level has to be there: on the
ground level the check does not count down, and no parser gets to such a token. -/
theorem lowers_of_closes {token : Token} (hcloses : token.closesLevel = true) :
    Lowers (depth + 1) depth token where
  le := Nat.le_succ depth
  check _ _ ts := tooDeep?_of_closes hcloses ts

section Lowering

variable {depth' : Nat} {token : Token}

/-- A parser of a single token that opens nothing ends on the level to which the token leads. -/
theorem inStep_expect (h : Lowers depth depth' token) :
    InStep limit depth (fun _ ↦ depth') (expect token) (expect token) := by
  intro hdepth ts j
  cases ts with
  | nil => exact .error nofun
  | cons found ts =>
    rw [expect_cons]
    split
    case isTrue htoken =>
      subst htoken
      exact .ok (Nat.le_trans h.le hdepth) (h.check limit found.line ts)
    case isFalse => exact .error nofun

/-- Looking for a token that opens nothing: the level depends on whether it has been found. -/
theorem inStep_take? (h : Lowers depth depth' token) :
    InStep limit depth (·.elim depth fun _ ↦ depth') (take? token) (take? token) := by
  intro hdepth ts j
  cases ts with
  | nil => exact .ok hdepth rfl
  | cons found ts =>
    rw [take?_cons]
    split
    case isTrue htoken =>
      subst htoken
      exact .ok (Nat.le_trans h.le hdepth) (h.check limit found.line ts)
    case isFalse => exact .ok hdepth rfl

end Lowering

/-- A name is no token that opens or closes a level. -/
theorem balanced_identifier : Balanced limit depth identifier identifier := by
  intro hdepth ts j
  cases ts with
  | nil => exact .error nofun
  | cons found ts =>
    obtain ⟨token, line⟩ := found
    cases token with
    | identifier name => exact .ok hdepth rfl
    | _ => exact .error nofun

theorem balanced_skipSemicolon : Balanced limit depth skipSemicolon skipSemicolon := by
  refine (inStep_take? (lowers_of_flat rfl rfl)).bind fun semicolon ↦ ?_
  cases semicolon <;> exact balanced_pure ()

/-! ### Tokens that open a level -/

/-- What follows a token on the given line that opens a level. -/
structure Enters (limit depth : Nat) (after : α → Nat) (line : Nat) (x y : Parser α) : Prop where
  /-- If there is a level left, the parsers are in step on the new level. -/
  inStep : depth < limit → InStep limit (depth + 1) after x y
  /-- If there is none, the first fails. -/
  fails : limit ≤ depth → ∀ c, ∃ c', x c = .error ⟨.nestingTooDeep 0, line⟩ c'

/-- Behind a token that opens a level, either there is a level left for what follows, or it is the
token at which the check fails. -/
theorem Enters.tracks {x y : Parser α} {opening : Lexeme} (hopens : opening.token.opensLevel = true)
    (h : Enters limit depth after opening.line x y) (ts : List Lexeme) (j : Journal) :
    Tracks limit depth after (opening :: ts) (x ⟨ts, j⟩) (y ⟨ts, j⟩) := by
  have hcheck := @tooDeep?_of_opens limit depth opening hopens ts
  by_cases hlt : depth < limit
  · rw [if_neg (by omega)] at hcheck
    exact (h.inStep hlt hlt ts j).of_eq hcheck
  · -- whatever the second does, the check fails at the opening token
    obtain ⟨c, hc⟩ := h.fails (by omega) ⟨ts, j⟩
    rw [if_pos (by omega)] at hcheck
    rw [hc]
    exact .tooDeep hcheck

/-- What may stand on the next level: nothing where the first budget is used up. -/
inductive Below (limit depth : Nat) (rel : β → β → Prop) : Option β → Option β → Prop
  | exhausted (h : limit ≤ depth) (y? : Option β) : Below limit depth rel none y?
  | left {x y : β} (h : depth < limit) : rel x y → Below limit depth rel (some x) (some y)

/-- Goes on to the next level, if something may stand there. -/
def descend (opening : Lexeme) (next? : Option β) (f : β → Parser α) : Parser α :=
  match next? with
  | none => failTooDeep opening
  | some next => f next

/-- Going on to the next level is what follows a token that opens one. If the first budget is used
up, nothing is known of the second parser, and nothing need be. -/
theorem Below.enters {rel : β → β → Prop} {x? y? : Option β} {f : β → Parser α}
    (h : Below limit depth rel x? y?) (opening : Lexeme)
    (hf : ∀ x y, rel x y → InStep limit (depth + 1) after (f x) (f y)) :
    Enters limit depth after opening.line (descend opening x? f) (descend opening y? f) := by
  cases h with
  | exhausted h => exact ⟨fun hlt ↦ absurd h (Nat.not_le.2 hlt), fun _ c ↦ ⟨c, rfl⟩⟩
  | left h hrel => exact ⟨fun _ ↦ hf _ _ hrel, fun hle ↦ absurd hle (Nat.not_le.2 h)⟩

section Opening

variable {token : Token} {after : β → Nat}

/-- A token that opens a level is required, and what follows it stands on the new level. -/
theorem inStep_expect_of_opens (hopens : token.opensLevel = true) {f g : Nat → Parser β}
    (h : ∀ line, Enters limit depth after line (f line) (g line)) :
    InStep limit depth after (expect token >>= f) (expect token >>= g) := by
  intro hdepth ts j
  cases ts with
  | nil => exact .error nofun
  | cons found ts =>
    obtain ⟨token', line⟩ := found
    have hexpect := expect_cons token ⟨token', line⟩ ts j
    split at hexpect
    case isTrue htoken =>
      obtain rfl : token' = token := htoken
      rw [bind_of_ok hexpect, bind_of_ok hexpect]
      exact (h line).tracks hopens ts j
    case isFalse =>
      rw [bind_of_error hexpect, bind_of_error hexpect]
      exact .error nofun

/-- A token that opens a level may stand there. If it does not, the parsers stay on the old level.
-/
theorem inStep_take?_of_opens (hopens : token.opensLevel = true) {f g : Option Nat → Parser β}
    (hnone : InStep limit depth after (f none) (g none))
    (hsome : ∀ line, Enters limit depth after line (f (some line)) (g (some line))) :
    InStep limit depth after (take? token >>= f) (take? token >>= g) := by
  intro hdepth ts j
  cases ts with
  | nil => exact hnone hdepth [] j
  | cons found ts =>
    obtain ⟨token', line⟩ := found
    have htake := take?_cons token ⟨token', line⟩ ts j
    split at htake
    case isTrue htoken =>
      obtain rfl : token' = token := htoken
      rw [bind_of_ok htake, bind_of_ok htake]
      exact (hsome line).tracks hopens ts j
    case isFalse =>
      rw [bind_of_ok htake, bind_of_ok htake]
      exact hnone hdepth _ j

end Opening

/-! ### Lists with commas -/

section Lists

variable {item item' : Parser α} {closing : Token} {depth' : Nat}

/-- The items of a list close their levels, and the list ends on the level to which its closing
token leads. With a parenthesis, this is the level in front of the list. -/
theorem inStep_items (hitem : Balanced limit depth item item')
    (hclosing : Lowers depth depth' closing) (bound : Nat) :
    InStep limit depth (fun _ ↦ depth') (items item closing bound) (items item' closing bound) := by
  induction bound with
  | zero => exact fun _ _ _ ↦ .error nofun
  | succ bound ih =>
    rw [items_succ, items_succ]
    refine hitem.bind fun first hdepth ts j ↦ ?_
    cases ts with
    | nil => exact .error nofun
    | cons found ts =>
      obtain ⟨token, line⟩ := found
      rw [afterItem_cons, afterItem_cons]
      split
      case isTrue hcomma =>
        obtain rfl : token = .symbol .comma := hcomma
        exact ((ih.bind fun rest ↦ balanced_pure (first :: rest)) hdepth ts j).of_eq
          ((lowers_of_flat rfl rfl).check limit line ts)
      case isFalse =>
        -- a token other than the closing one is an error, which is no matter of levels
        split
        case isTrue htoken =>
          obtain rfl : token = closing := htoken
          exact .ok (Nat.le_trans hclosing.le hdepth) (hclosing.check limit line ts)
        case isFalse => exact .error nofun

/-- A list may also be closed at once, on the same level. -/
theorem inStep_commaList (hitem : Balanced limit depth item item')
    (hclosing : Lowers depth depth' closing) :
    InStep limit depth (fun _ ↦ depth') (commaList item closing) (commaList item' closing) := by
  refine (inStep_take? hclosing).bind fun closed ↦ ?_
  cases closed with
  | some line => exact balanced_pure []
  | none => exact balanced_remaining.bind fun bound ↦ inStep_items hitem hclosing bound

end Lists

theorem lowers_rightParen : Lowers (depth + 1) depth (.symbol .rightParen) :=
  lowers_of_closes rfl

theorem lowers_end : Lowers (depth + 1) depth (.keyword .endKw) :=
  lowers_of_closes rfl

/-! ### Expressions -/

section Expressions

variable {inside inside' : Option (Parser Expr)}

/-- A parenthesis in front of a value goes on to the next level, if there is one. -/
theorem value_leftParen (line : Nat) (ts : List Lexeme) (j : Journal) :
    value inside ⟨⟨.symbol .leftParen, line⟩ :: ts, j⟩ =
      descend ⟨.symbol .leftParen, line⟩ inside (fun inside ↦ do
        let e ← inside
        let _ ← expect (.symbol .rightParen)
        pure e) ⟨ts, j⟩ := by
  cases inside <;> rfl

/-- The parenthesis of a call goes on to the next level, if there is one. -/
theorem afterName_some (name : String) (line line' : Nat) :
    afterName inside name line (some line') =
      descend ⟨.symbol .leftParen, line'⟩ inside (fun inside ↦ do
        let arguments ← commaList inside (.symbol .rightParen)
        pure (.call name arguments line)) := by
  cases inside <;> rfl

/-- What stands inside parentheses is in step on the next level. -/
abbrev InsideBelow (limit depth : Nat) : Option (Parser Expr) → Option (Parser Expr) → Prop :=
  Below limit depth (Balanced limit (depth + 1))

/-- A value opens a level in two places, for its parentheses and for the arguments of a call. Both
are closed by the parenthesis behind them. -/
theorem balanced_value (h : InsideBelow limit depth inside inside') :
    Balanced limit depth (value inside) (value inside') := by
  intro hdepth ts j
  cases ts with
  | nil => exact .error nofun
  | cons found ts =>
    obtain ⟨token, line⟩ := found
    cases token with
    | integer n => exact .ok hdepth rfl
    | identifier name =>
      have hname : InStep limit depth (fun _ ↦ depth)
          (take? (.symbol .leftParen) >>= afterName inside name line)
          (take? (.symbol .leftParen) >>= afterName inside' name line) := by
        refine inStep_take?_of_opens rfl (balanced_pure _) fun line' ↦ ?_
        rw [afterName_some, afterName_some]
        exact h.enters ⟨_, line'⟩ fun x y hxy ↦
          (inStep_commaList hxy lowers_rightParen).bind fun arguments ↦ balanced_pure _
      exact (hname hdepth ts j).of_eq rfl
    | symbol s =>
      cases s with
      | leftParen =>
        rw [value_leftParen, value_leftParen]
        refine (h.enters ⟨_, line⟩ fun x y hxy ↦ ?_).tracks rfl ts j
        exact hxy.bind fun e ↦ (inStep_expect lowers_rightParen).bind fun _ ↦ balanced_pure e
      | _ => exact .error nofun
    | _ => exact .error nofun

/-- A sign opens no level. -/
theorem balanced_negation (h : InsideBelow limit depth inside inside') :
    Balanced limit depth (negation inside) (negation inside') := by
  refine (inStep_take? (lowers_of_flat rfl rfl)).bind fun sign ↦ ?_
  cases sign with
  | none => exact balanced_value h
  | some line => exact (balanced_value h).bind fun v ↦ balanced_pure _

/-- No operator is a token that opens or closes a level. -/
theorem balanced_operator? (level : Precedence) :
    Balanced limit depth (operator? level) (operator? level) := by
  intro hdepth ts j
  cases ts with
  | nil => exact .ok hdepth rfl
  | cons found ts =>
    obtain ⟨token, line⟩ := found
    rw [operator?_cons]
    cases hop : Operator.ofToken? token with
    | none => exact .ok hdepth rfl
    | some op =>
      obtain rfl := ofToken?_eq_some_iff.1 hop
      dsimp only
      split
      case isTrue =>
        have hflat : Lowers depth depth (.symbol op.symbol) := by
          cases op <;> exact lowers_of_flat rfl rfl
        exact .ok hdepth (hflat.check limit line ts)
      case isFalse => exact .ok hdepth rfl

/-- Operators and operands in turn, for as many rounds as the bound allows: the bound is the same
for both parsers, since both have consumed the same. -/
theorem balanced_operations {level : Precedence} {operand operand' : Parser Expr}
    (h : Balanced limit depth operand operand') (bound : Nat) (left : Expr) :
    Balanced limit depth (operations level operand bound left)
      (operations level operand' bound left) := by
  induction bound generalizing left with
  | zero => exact balanced_pure left
  | succ bound ih =>
    refine (balanced_operator? level).bind fun found ↦ ?_
    cases found with
    | none => exact balanced_pure left
    | some found => exact h.bind fun right ↦ ih _

/-- The operands of a level are in step, so what is joined of them is. -/
theorem balanced_leftGrouped {level : Precedence} {operand operand' : Parser Expr}
    (h : Balanced limit depth operand operand') :
    Balanced limit depth (leftGrouped level operand) (leftGrouped level operand') :=
  h.bind fun first ↦ balanced_remaining.bind fun bound ↦ balanced_operations h bound first

/-- The layers of an expression from the inside out. Only the innermost one opens a level. -/
theorem balanced_relational (h : InsideBelow limit depth inside inside') :
    Balanced limit depth (relational inside) (relational inside') :=
  balanced_leftGrouped (balanced_leftGrouped (balanced_leftGrouped (balanced_negation h)))

end Expressions

/-- With as many levels as there are up to the limit, an expression is in step with one that may
open more. -/
theorem balanced_expression {levels levels' : Nat} (hlimit : limit = depth + levels)
    (hle : levels ≤ levels') :
    Balanced limit depth (expression levels) (expression levels') := by
  induction levels generalizing depth levels' with
  | zero =>
    rw [expression_eq, expression_eq]
    exact balanced_relational (.exhausted (by omega) _)
  | succ levels ih =>
    obtain ⟨levels', rfl⟩ : ∃ n, levels' = n + 1 := ⟨levels' - 1, by omega⟩
    exact balanced_relational (.left (by omega) (ih (by omega) (by omega)))

/-! ### Statements -/

section Statements

variable {expr expr' : Parser Expr} {stmt stmt' : Parser Statement}

theorem balanced_readTarget (line : Nat) :
    Balanced limit depth (readTarget line) (readTarget line) :=
  balanced_identifier.bind fun _ ↦ balanced_pure _

/-- A read may be attached or not, and either way no level is opened. -/
theorem balanced_attachedRead? : Balanced limit depth attachedRead? attachedRead? := by
  refine (inStep_take? (lowers_of_flat rfl rfl)).bind fun found ↦ ?_
  cases found with
  | none => exact balanced_pure none
  | some line => exact (balanced_readTarget line).bind fun _ ↦ balanced_pure _

theorem balanced_display (h : Balanced limit depth expr expr') (line : Nat) :
    Balanced limit depth (display expr line) (display expr' line) :=
  h.bind fun _ ↦ balanced_attachedRead?.bind fun _ ↦ balanced_pure _

/-- Either spelling of the sign is a token that opens nothing, and with any other both parsers fail
alike. -/
theorem balanced_assignmentSign (line : Nat) :
    Balanced limit depth (assignmentSign line) (assignmentSign line) := by
  intro hdepth ts j
  cases ts with
  | nil => exact .error nofun
  | cons found ts =>
    obtain ⟨token, line'⟩ := found
    rw [assignmentSign_cons]
    split
    case isTrue h =>
      obtain rfl | rfl : token = .symbol .colonEquals ∨ token = .symbol .equals := h
      · exact .ok hdepth rfl
      · exact .ok hdepth rfl
    case isFalse => exact .error nofun

theorem balanced_peek : Balanced limit depth peek peek := by
  intro hdepth ts j
  cases ts with
  | nil => exact .error nofun
  | cons found ts => exact .ok hdepth rfl

/-- An assignment opens no level of its own. Its expression may. -/
theorem balanced_assignment (h : Balanced limit depth expr expr') :
    Balanced limit depth (assignment expr) (assignment expr') :=
  balanced_peek.bind fun first ↦ balanced_identifier.bind fun _ ↦
    (balanced_assignmentSign first.line).bind fun _ ↦ h.bind fun _ ↦ balanced_pure _

/-- The statements of a block that follow the first: each closes what it opens, and so the level is
the same in front of the next. -/
theorem balanced_moreStatements (h : Balanced limit depth stmt stmt') (bound : Nat) :
    Balanced limit depth (moreStatements stmt bound) (moreStatements stmt' bound) := by
  induction bound with
  | zero => exact fun _ _ _ ↦ .error nofun
  | succ bound ih =>
    refine balanced_peek.bind fun next ↦ ?_
    split
    · exact balanced_pure []
    · exact h.bind fun _ ↦ ih.bind fun _ ↦ balanced_pure _

/-- A block stands on one level. Where it is empty, both parsers fail alike. -/
theorem balanced_block (h : Balanced limit depth stmt stmt') :
    Balanced limit depth (block stmt) (block stmt') := by
  refine balanced_peek.bind fun next ↦ ?_
  split
  · exact fun _ _ _ ↦ .error nofun
  · exact h.bind fun _ ↦ balanced_remaining.bind fun bound ↦
      (balanced_moreStatements h bound).bind fun _ ↦ balanced_pure _

/-- What a conditional or a loop holds is in step on the next level. -/
structure InteriorInStep (limit depth : Nat) (interior interior' : Interior) : Prop where
  /-- The conditions. -/
  condition : Balanced limit depth interior.condition interior'.condition
  /-- The blocks. -/
  block : Balanced limit depth interior.block interior'.block

variable {interior interior' : Interior}

/-- The second block stands on the level of the first, since `else` is no token that closes one. -/
theorem InteriorInStep.elseBlock? (h : InteriorInStep limit depth interior interior') :
    Balanced limit depth (elseBlock? interior) (Parser.elseBlock? interior') := by
  refine (inStep_take? (lowers_of_flat rfl rfl)).bind fun found ↦ ?_
  cases found with
  | none => exact balanced_pure none
  | some line => exact h.block.bind fun _ ↦ balanced_pure _

/-- Behind `if`, on the level that it has opened. The last token is the `end` that closes it. -/
theorem InteriorInStep.branch (h : InteriorInStep limit (depth + 1) interior interior')
    (line : Nat) :
    InStep limit (depth + 1) (fun _ ↦ depth) (branch interior line)
      (Parser.branch interior' line) :=
  h.condition.bind fun _ ↦ (inStep_expect (lowers_of_flat rfl rfl)).bind fun _ ↦
    h.block.bind fun _ ↦ h.elseBlock?.bind fun _ ↦
      (inStep_expect lowers_end).bind fun _ ↦ balanced_pure _

/-- Behind `while`, on the level that it has opened. The last token is the `end` that closes it. -/
theorem InteriorInStep.loop (h : InteriorInStep limit (depth + 1) interior interior')
    (line : Nat) :
    InStep limit (depth + 1) (fun _ ↦ depth) (loop interior line) (Parser.loop interior' line) :=
  h.condition.bind fun _ ↦ (inStep_expect (lowers_of_flat rfl rfl)).bind fun _ ↦
    h.block.bind fun _ ↦ (inStep_expect lowers_end).bind fun _ ↦ balanced_pure _

/-- A conditional goes on to the next level, if there is one. -/
theorem bareStatement_if (interior? : Option Interior) (line : Nat) (ts : List Lexeme)
    (j : Journal) :
    bareStatement expr interior? ⟨⟨.keyword .ifKw, line⟩ :: ts, j⟩ =
      descend ⟨.keyword .ifKw, line⟩ interior? (branch · line) ⟨ts, j⟩ := by
  cases interior? <;> rfl

/-- A loop goes on to the next level, if there is one. -/
theorem bareStatement_while (interior? : Option Interior) (line : Nat) (ts : List Lexeme)
    (j : Journal) :
    bareStatement expr interior? ⟨⟨.keyword .whileKw, line⟩ :: ts, j⟩ =
      descend ⟨.keyword .whileKw, line⟩ interior? (loop · line) ⟨ts, j⟩ := by
  cases interior? <;> rfl

/-- A statement by its first token. Only `if` and `while` ask for another level, and they close it.
-/
theorem balanced_bareStatement {interior? interior?' : Option Interior}
    (hexpr : Balanced limit depth expr expr')
    (h : Below limit depth (InteriorInStep limit (depth + 1)) interior? interior?') :
    Balanced limit depth (bareStatement expr interior?) (bareStatement expr' interior?') := by
  intro hdepth ts j
  cases ts with
  | nil => exact .error nofun
  | cons found ts =>
    obtain ⟨token, line⟩ := found
    cases token with
    | identifier name => exact balanced_assignment hexpr hdepth _ j
    | keyword k =>
      cases k with
      | displayKw => exact (balanced_display hexpr line hdepth ts j).of_eq rfl
      | readKw =>
        exact (((balanced_readTarget line).bind fun _ ↦ balanced_pure _) hdepth ts j).of_eq rfl
      | assignKw => exact (balanced_assignment hexpr hdepth ts j).of_eq rfl
      | ifKw =>
        rw [bareStatement_if, bareStatement_if]
        exact (h.enters ⟨_, line⟩ fun _ _ hxy ↦ hxy.branch line).tracks rfl ts j
      | whileKw =>
        rw [bareStatement_while, bareStatement_while]
        exact (h.enters ⟨_, line⟩ fun _ _ hxy ↦ hxy.loop line).tracks rfl ts j
      | _ => exact .error nofun
    | _ => exact .error nofun

/-- The semicolon behind a statement and the note in the journal have no part in the levels. -/
theorem balanced_statementWith {interior? interior?' : Option Interior}
    (hexpr : Balanced limit depth expr expr')
    (h : Below limit depth (InteriorInStep limit (depth + 1)) interior? interior?') :
    Balanced limit depth (statementWith expr interior?) (statementWith expr' interior?') :=
  (balanced_bareStatement hexpr h).bind fun s ↦ balanced_skipSemicolon.bind fun _ ↦
    (balanced_note (.statement s)).bind fun _ ↦ balanced_pure s

end Statements

/-- With as many levels as there are up to the limit, a statement is in step with one that may open
more. The induction is on the levels that are left: a conditional or a loop hands on one less. -/
theorem balanced_statement {levels levels' : Nat} (hlimit : limit = depth + levels)
    (hle : levels ≤ levels') : Balanced limit depth (statement levels) (statement levels') := by
  induction levels generalizing depth levels' with
  | zero =>
    rw [statement_eq, statement_eq]
    exact balanced_statementWith (balanced_expression hlimit hle) (.exhausted (by omega) _)
  | succ levels ih =>
    obtain ⟨levels', rfl⟩ : ∃ n, levels' = n + 1 := ⟨levels' - 1, by omega⟩
    have hinterior : InteriorInStep limit (depth + 1) ⟨expression levels, statements levels⟩
        ⟨expression levels', statements levels'⟩ :=
      ⟨balanced_expression (by omega) (by omega), balanced_block (ih (by omega) (by omega))⟩
    exact balanced_statementWith (balanced_expression hlimit hle) (.left (by omega) hinterior)

theorem balanced_statements {levels levels' : Nat} (hlimit : limit = depth + levels)
    (hle : levels ≤ levels') : Balanced limit depth (statements levels) (statements levels') :=
  balanced_block (balanced_statement hlimit hle)

/-! ### Procedures -/

/-- The parameters of a procedure, without a limit. -/
def parameters : Parser (List String) := do
  let _ ← expect (.symbol .leftParen)
  commaList identifier (.symbol .rightParen)

/-- The parser of procedures takes no level for the parenthesis in front of the parameters, and so
it is the heading with parameters that have no limit. -/
theorem procedure_succ (levels : Nat) :
    procedure (levels + 1) =
      expect (.keyword .procedureKw) >>= heading parameters (statements levels) := by
  show (_ >>= _) = _
  refine congrArg _ (funext fun line ↦ ?_)
  simp only [heading, parameters, bind_assoc]
  rfl

/-- Two names that are the same are an error of its own, which is the same for both. -/
theorem balanced_checkDistinct (name : String) (names : List String) (line : Nat) :
    Balanced limit depth (checkDistinct name names line) (checkDistinct name names line) := by
  unfold checkDistinct
  split
  · exact balanced_pure ()
  · exact fun _ _ _ ↦ .error nofun

/-- Local variables open no level, although they are a list. Their closing token is a semicolon. -/
theorem balanced_localNames : Balanced limit depth localNames localNames := by
  refine (inStep_take? (lowers_of_flat rfl rfl)).bind fun found ↦ ?_
  cases found with
  | none => exact balanced_pure []
  | some line => exact inStep_commaList balanced_identifier (lowers_of_flat rfl rfl)

/-- Behind the keyword of a procedure, on the level that it has opened. Parameters and body close
what they open, and `end` closes the level of the procedure. -/
theorem inStep_heading {params params' : Parser (List String)} {body body' : Parser Block}
    (hparams : Balanced limit (depth + 1) params params')
    (hbody : Balanced limit (depth + 1) body body') (line : Nat) :
    InStep limit (depth + 1) (fun _ ↦ depth) (heading params body line)
      (heading params' body' line) := by
  refine balanced_identifier.bind fun name ↦ hparams.bind fun names ↦
    balanced_localNames.bind fun locals ↦ ?_
  exact (balanced_checkDistinct name (names ++ locals) line).bind fun _ ↦ hbody.bind fun _ ↦
    (inStep_expect lowers_end).bind fun _ ↦ balanced_skipSemicolon.bind fun _ ↦
      (balanced_note _).bind fun _ ↦ balanced_pure _

section Procedures

variable {levels levels' : Nat}

/-- The second parser need not ask for a level, and if it does, it has one. -/
theorem balanced_parametersWithin (hlimit : limit = depth + levels)
    {names : Nat → Parser (List String)}
    (hnames : 0 < levels → ∀ line, names line = commaList identifier (.symbol .rightParen)) :
    Balanced limit depth (parametersWithin levels) (expect (.symbol .leftParen) >>= names) := by
  refine inStep_expect_of_opens rfl fun line ↦ ?_
  cases levels with
  | zero => exact ⟨fun hlt ↦ by omega, fun _ c ↦ ⟨c, rfl⟩⟩
  | succ levels =>
    rw [hnames (Nat.zero_lt_succ levels)]
    refine ⟨fun _ ↦ ?_, fun hle ↦ by omega⟩
    exact inStep_commaList balanced_identifier lowers_rightParen

/-- The keyword of a procedure opens a level. What the second parser does behind it matters only
where the first one has a level left. -/
theorem balanced_procedureWithin (hlimit : limit = depth + levels) {rest : Nat → Parser Procedure}
    (hrest : ∀ n, levels = n + 1 → ∀ line, InStep limit (depth + 1) (fun _ ↦ depth)
      (heading (parametersWithin n) (statements n) line) (rest line)) :
    Balanced limit depth (procedureWithin levels) (expect (.keyword .procedureKw) >>= rest) := by
  refine inStep_expect_of_opens rfl fun line ↦ ?_
  cases levels with
  | zero => exact ⟨fun hlt ↦ by omega, fun _ c ↦ ⟨c, rfl⟩⟩
  | succ levels => exact ⟨fun _ ↦ hrest levels rfl line, fun hle ↦ by omega⟩

/-- With as many levels as there are up to the limit, a procedure is in step with one that may open
more. -/
theorem balanced_procedureWithin_procedureWithin (hlimit : limit = depth + levels)
    (hle : levels ≤ levels') :
    Balanced limit depth (procedureWithin levels) (procedureWithin levels') := by
  refine balanced_procedureWithin hlimit fun n hn line ↦ ?_
  obtain ⟨n', rfl⟩ : ∃ n', levels' = n' + 1 := ⟨levels' - 1, by omega⟩
  refine inStep_heading (balanced_parametersWithin (by omega) fun hpos _ ↦ ?_)
    (balanced_statements (by omega) (by omega)) line
  obtain ⟨m, rfl⟩ : ∃ m, n' = m + 1 := ⟨n' - 1, by omega⟩
  rfl

/-- The parser of procedures does not count the parenthesis in front of the parameters. It is in
step all the same, with as many levels or more. -/
theorem balanced_procedureWithin_procedure (hlimit : limit = depth + levels)
    (hle : levels ≤ levels') :
    Balanced limit depth (procedureWithin levels) (procedure levels') := by
  cases levels' with
  | zero => exact balanced_procedureWithin hlimit fun n hn ↦ by omega
  | succ levels' =>
    rw [procedure_succ]
    refine balanced_procedureWithin hlimit fun n hn line ↦ ?_
    exact inStep_heading (balanced_parametersWithin (by omega) fun _ _ ↦ rfl)
      (balanced_statements (by omega) (by omega)) line

end Procedures

/-! ### Programs -/

/-- Procedures, one after the other, as long as there is a keyword `procedure`. Each is closed
before the next. -/
theorem balanced_moreProcedures {proc proc' : Parser Procedure}
    (h : Balanced limit depth proc proc') (bound : Nat) :
    Balanced limit depth (moreProcedures proc bound) (moreProcedures proc' bound) := by
  induction bound with
  | zero => exact balanced_pure []
  | succ bound ih =>
    intro hdepth ts j
    cases ts with
    | nil => exact .ok hdepth rfl
    | cons found ts =>
      rw [moreProcedures_cons, moreProcedures_cons]
      split
      · exact (h.bind fun _ ↦ ih.bind fun _ ↦ balanced_pure _) hdepth _ j
      · exact .ok hdepth rfl

theorem balanced_programEnd (p : Program) :
    Balanced limit depth (programEnd p) (programEnd p) := by
  intro hdepth ts j
  cases ts with
  | nil => exact .error nofun
  | cons last ts =>
    obtain ⟨token, line⟩ := last
    cases token with
    | eof => exact .ok hdepth rfl
    | _ => exact .error nofun

/-- A program is in step with one that may open more levels, given that its procedures are. -/
theorem balanced_programWithin {proc : Parser Procedure} {levels levels' : Nat}
    (hproc : Balanced levels 0 (procedureWithin levels) proc) (hle : levels ≤ levels') :
    Balanced levels 0 (programWithin levels) (programFrom proc levels') := by
  have hprocs : Balanced levels 0 (do moreProcedures (procedureWithin levels) (← remaining))
      (do moreProcedures proc (← remaining)) :=
    balanced_remaining.bind fun bound ↦ balanced_moreProcedures hproc bound
  exact hprocs.bind fun ps ↦ (balanced_statements (Nat.zero_add _).symm hle).bind fun statements ↦
    balanced_programEnd ⟨ps, statements⟩

/-- A stream does not open more levels than it has tokens. -/
theorem tooDeep?_eq_none_of_length (h : depth + ts.length ≤ limit) :
    tooDeep? limit depth ts = none := by
  induction ts generalizing depth with
  | nil => rfl
  | cons a ts ih =>
    rw [List.length_cons] at h
    unfold tooDeep?
    split
    · rw [if_neg (by omega)]
      exact ih (by omega)
    · split <;> exact ih (by omega)

/-- **A budget of levels makes no difference but where the check fails.** From the start of any
stream, the parser with a budget does what the parser without one does, which is never short of
levels, or it fails at the token at which the check fails. -/
theorem programWithin_tracks (limit : Nat) (ts : List Lexeme) (j : Journal) :
    Tracks limit 0 (fun _ ↦ 0) ts (programWithin limit ⟨ts, j⟩)
      (runFrom uncheckedProgram ⟨ts, j⟩) := by
  have hfree : ∀ n ≤ ts.length, Tracks n 0 (fun _ ↦ 0) ts (programWithin n ⟨ts, j⟩)
      (runFrom uncheckedProgram ⟨ts, j⟩) := fun n hn ↦
    balanced_programWithin (balanced_procedureWithin_procedure (Nat.zero_add n).symm hn) hn
      (Nat.zero_le n) ts j
  have hmore : ∀ n ≤ limit, Tracks n 0 (fun _ ↦ 0) ts (programWithin n ⟨ts, j⟩)
      (programWithin limit ⟨ts, j⟩) := fun n hn ↦
    balanced_programWithin (balanced_procedureWithin_procedureWithin (Nat.zero_add n).symm hn) hn
      (Nat.zero_le n) ts j
  rcases Nat.le_total limit ts.length with hle | hle
  · exact hfree limit hle
  · -- as many levels as tokens are enough, and so both do what is done with that many
    have hnone : tooDeep? ts.length 0 ts = none := tooDeep?_eq_none_of_length (by omega)
    rw [← (hfree _ (Nat.le_refl _)).eq_of_none hnone, (hmore _ hle).eq_of_none hnone]
    exact hmore limit (Nat.le_refl _)

/-- A procedure takes a level, and the parenthesis in front of its parameters another. -/
example :
    (match programWithin 1 ⟨[⟨.keyword .procedureKw, 1⟩, ⟨.identifier "f", 1⟩,
      ⟨.symbol .leftParen, 2⟩, ⟨.symbol .rightParen, 2⟩], .silent⟩ with
    | .ok _ _ => none
    | .error e _ => some e) = some ⟨.nestingTooDeep 0, 2⟩ := by decide +kernel

end TinyProc.Parser
