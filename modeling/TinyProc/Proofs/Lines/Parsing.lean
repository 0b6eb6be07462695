import TinyProc.Proofs.Lines.Trees
import TinyProc.Proofs.Sequencing
import TinyProc.Proofs.Syntax.Steps

/-!
# Parsing with lines moved

What becomes of a stream of tokens when its lines are moved: when every token is put on another
line, and which line may be put in the place of which is said by a relation `R`. Nothing else
becomes of it. Parsers deliver the same trees with their lines moved, or fail for the same cause on
a line that is moved (`program_parallel`).

The relation is left open because two questions are answered by it. If any line may be put in the
place of any other, the statement is that lines have no influence. And if a stream is compared with
itself, where `R` holds of the lines that occur in it, the statement is that trees and errors have
lines from the stream; for a parser that made up a line would not respect every relation.

The streams are those that scanning delivers. They end with an end mark and hold no other
(`Stream`), and a parser that succeeds leaves such a stream again, so that it has not consumed the
mark. No parser can therefore come to the end of the stream, and of the errors of a parser it is
known that none is `unexpectedEnd`. The parser of a whole program is the one that consumes the mark,
and it stops there.

Of the loops it has to be known that they are not stopped by their bounds. `Before R n` are the
streams of at most `n` tokens, `Steady` parsers leave no more tokens than they find and `Consuming`
parsers fewer.
-/

namespace TinyProc

variable {R : Nat → Nat → Prop}

/-- The same token, on a line that is moved. -/
inductive Lexeme.Moved (R : Nat → Nat → Prop) : Lexeme → Lexeme → Prop
  | intro (token : Token) {line line' : Nat} : R line line' → Moved R ⟨token, line⟩ ⟨token, line'⟩

namespace Parser

variable {α β : Type} {V : α → α → Prop} {W : β → β → Prop} {n : Nat} {ts ts' : List Lexeme}

/-! ### Streams -/

/-- A stream with an end mark as its last token and nowhere else, and the same stream with its lines
moved. -/
inductive Stream (R : Nat → Nat → Prop) : List Lexeme → List Lexeme → Prop
  | last {line line' : Nat} : R line line' → Stream R [⟨.eof, line⟩] [⟨.eof, line'⟩]
  | cons {token : Token} {line line' : Nat} {ts ts' : List Lexeme} :
    token ≠ .eof → R line line' → Stream R ts ts' →
      Stream R (⟨token, line⟩ :: ts) (⟨token, line'⟩ :: ts')

/-- A stream has as many tokens with its lines moved. -/
theorem Stream.length_eq (h : Stream R ts ts') : ts'.length = ts.length := by
  induction h with
  | last _ => rfl
  | cons _ _ _ ih => exact congrArg Nat.succ ih

/-- Streams of at most `n` tokens, in front of the end mark. -/
structure Before (R : Nat → Nat → Prop) (n : Nat) (ts ts' : List Lexeme) : Prop where
  /-- They go up to the end mark. -/
  stream : Stream R ts ts'
  /-- There are not more tokens. -/
  length_le : ts.length ≤ n

/-- Behind a token there is one less. -/
theorem Before.of_cons {t : Lexeme} (h : Stream R ts ts') (hn : (t :: ts).length ≤ n + 1) :
    Before R n ts ts' :=
  ⟨h, Nat.le_of_succ_le_succ hn⟩

theorem Before.mono {k : Nat} (hle : n ≤ k) (h : Before R n ts ts') : Before R k ts ts' :=
  ⟨h.stream, Nat.le_trans h.length_le hle⟩

/-- There is the end mark at least. -/
theorem Before.exists_succ (h : Before R n ts ts') : ∃ k, n = k + 1 := by
  obtain ⟨hstream, hn⟩ := h
  cases hstream with
  | last _ => exact ⟨n - 1, by rw [List.length_singleton] at hn; omega⟩
  | cons _ _ _ => exact ⟨n - 1, by rw [List.length_cons] at hn; omega⟩

/-- Nothing is left, the end mark included. -/
def Finished (ts ts' : List Lexeme) : Prop :=
  ts = [] ∧ ts' = []

/-! ### Parsers side by side -/

/-- How a parser has ended on two streams, where `V` relates what it delivers and `Q` what it
leaves. Errors have the same cause, which is not the end of the stream. -/
inductive EndMoved (R : Nat → Nat → Prop) (V : α → α → Prop)
    (Q : List Lexeme → List Lexeme → Prop) :
    EStateM.Result SyntaxError Cursor α → EStateM.Result SyntaxError Cursor α → Prop
  | ok {a a' : α} {ts ts' : List Lexeme} {j j' : Journal} (ha : V a a') (hts : Q ts ts') :
    EndMoved R V Q (.ok a ⟨ts, j⟩) (.ok a' ⟨ts', j'⟩)
  | error {cause : SyntaxCause} {line line' : Nat} {c c' : Cursor}
    (hcause : cause ≠ .unexpectedEnd) (hline : R line line') :
    EndMoved R V Q (.error ⟨cause, line⟩ c) (.error ⟨cause, line'⟩ c')

/-- From streams that `P` relates, two parsers end alike. -/
def Parallel (R : Nat → Nat → Prop) (P : List Lexeme → List Lexeme → Prop) (V : α → α → Prop)
    (Q : List Lexeme → List Lexeme → Prop) (x x' : Parser α) : Prop :=
  ∀ (ts ts' : List Lexeme) (j j' : Journal), P ts ts' → EndMoved R V Q (x ⟨ts, j⟩) (x' ⟨ts', j'⟩)

/-- The parsers end alike, leave the end mark and leave no more tokens than they find. -/
def Steady (R : Nat → Nat → Prop) (V : α → α → Prop) (x x' : Parser α) : Prop :=
  ∀ n, Parallel R (Before R n) V (Before R n) x x'

/-- The parsers end alike, leave the end mark and consume something. -/
def Consuming (R : Nat → Nat → Prop) (V : α → α → Prop) (x x' : Parser α) : Prop :=
  ∀ n, Parallel R (Before R (n + 1)) V (Before R n) x x'

section Combinators

variable {P Q Q' : List Lexeme → List Lexeme → Prop} {x x' : Parser α} {f f' : α → Parser β}

/-- Less may be said of what the parsers leave. -/
theorem EndMoved.mono {r r' : EStateM.Result SyntaxError Cursor α} (h : EndMoved R V Q r r')
    (hQ : ∀ ts ts', Q ts ts' → Q' ts ts') : EndMoved R V Q' r r' := by
  cases h with
  | ok ha hts => exact .ok ha (hQ _ _ hts)
  | error hcause hline => exact .error hcause hline

/-- Two sequences end alike if the first parsers do and the second parsers do from whatever these
leave and on results that are related. -/
theorem Parallel.bind (hx : Parallel R P V Q x x')
    (hf : ∀ a a', V a a' → Parallel R Q W Q' (f a) (f' a')) :
    Parallel R P W Q' (x >>= f) (x' >>= f') := by
  intro ts ts' j j' hts
  have h := hx ts ts' j j' hts
  generalize hr : x ⟨ts, j⟩ = r, hr' : x' ⟨ts', j'⟩ = r' at h
  cases h with
  | ok ha hrest =>
    rw [bind_of_ok hr, bind_of_ok hr']
    exact hf _ _ ha _ _ _ _ hrest
  | error hcause hline =>
    rw [bind_of_error hr, bind_of_error hr']
    exact .error hcause hline

theorem steady_pure {a a' : α} (h : V a a') : Steady R V (pure a) (pure a') :=
  fun _ _ _ _ _ hts ↦ .ok h hts

/-- What is noted may differ. -/
theorem steady_note (e e' : Event) : Steady R (fun _ _ ↦ True) (note e) (note e') :=
  fun _ _ _ _ _ hts ↦ .ok trivial hts

/-- No more tokens are left by two parsers in a row if each leaves no more. -/
theorem Steady.bind (hx : Steady R V x x') (hf : ∀ a a', V a a' → Steady R W (f a) (f' a')) :
    Steady R W (x >>= f) (x' >>= f') :=
  fun n ↦ (hx n).bind fun a a' ha ↦ hf a a' ha n

/-- Of a sequence it is enough that the first parser consumes something. -/
theorem Consuming.bind (hx : Consuming R V x x')
    (hf : ∀ a a', V a a' → Steady R W (f a) (f' a')) : Consuming R W (x >>= f) (x' >>= f') :=
  fun n ↦ (hx n).bind fun a a' ha ↦ hf a a' ha n

/-- It is enough as well that the second one does. -/
theorem Steady.bind_consuming (hx : Steady R V x x')
    (hf : ∀ a a', V a a' → Consuming R W (f a) (f' a')) : Consuming R W (x >>= f) (x' >>= f') :=
  fun n ↦ (hx (n + 1)).bind fun a a' ha ↦ hf a a' ha n

/-- Whoever consumes something leaves no more than he finds. -/
theorem Consuming.steady (h : Consuming R V x x') : Steady R V x x' := by
  intro n ts ts' j j' hts
  obtain ⟨k, rfl⟩ := hts.exists_succ
  exact (h k ts ts' j j' hts).mono fun _ _ ↦ .mono (Nat.le_succ k)

/-- The end mark is a token too, so that no bound on the tokens is used up in front of it. -/
theorem parallel_zero : Parallel R (Before R 0) V Q x x' := by
  intro ts ts' j j' hts
  obtain ⟨k, hk⟩ := hts.exists_succ
  cases hk

/-- A loop that is given the number of the tokens left. -/
theorem parallel_remaining {g g' : Nat → Parser α}
    (h : ∀ m, Parallel R (Before R m) V (Before R m) (g m) (g' m)) :
    Steady R V (remaining >>= g) (remaining >>= g') := by
  intro n ts ts' j j' hts
  show EndMoved R V _ (g ts.length ⟨ts, j⟩) (g' ts'.length ⟨ts', j'⟩)
  rw [hts.stream.length_eq]
  exact (h ts.length ts ts' j j' ⟨hts.stream, Nat.le_refl _⟩).mono fun _ _ ↦ .mono hts.length_le

end Combinators

/-! ### Single tokens -/

/-- A token other than the end mark is consumed on both sides, or expected on both in vain, and then
the fault is on the line of the token that stands there. -/
theorem expect_consuming (token : Token) (htoken : token ≠ .eof) :
    Consuming R R (expect token) (expect token) := by
  rintro n ts ts' j j' ⟨hstream, hn⟩
  cases hstream with
  | last hline =>
    rw [expect_cons, expect_cons, if_neg htoken.symm, if_neg htoken.symm]
    exact .error nofun hline
  | cons _ hline hts =>
    rw [expect_cons, expect_cons]
    split
    · exact .ok hline (.of_cons hts hn)
    · exact .error nofun hline

/-- A token that may be missing is missing on both sides or on neither. It is not the end mark, so
that this mark is not consumed. -/
theorem take?_steady (token : Token) (htoken : token ≠ .eof) :
    Steady R (Option.Rel R) (take? token) (take? token) := by
  intro n ts ts' j j' h
  obtain ⟨k, rfl⟩ := h.exists_succ
  have hrest := h
  obtain ⟨hstream, hn⟩ := h
  cases hstream with
  | last hline =>
    rw [take?_cons, take?_cons, if_neg htoken.symm, if_neg htoken.symm]
    exact .ok .none hrest
  | cons _ hline hts =>
    rw [take?_cons, take?_cons]
    split
    · exact .ok (.some hline) ((Before.of_cons hts hn).mono (Nat.le_succ k))
    · exact .ok .none hrest

/-- A name is the same on both sides, whatever its line. -/
theorem identifier_consuming : Consuming R Eq identifier identifier := by
  rintro n ts ts' j j' ⟨hstream, hn⟩
  cases hstream with
  | last hline => exact .error nofun hline
  | @cons token _ _ _ _ _ hline hts =>
    cases token with
    | identifier name => exact .ok rfl (.of_cons hts hn)
    | _ => exact .error nofun hline

/-- The next token is looked at and stays; there is one, since the end mark is left. -/
theorem peek_steady : Steady R (Lexeme.Moved R) peek peek := by
  intro n ts ts' j j' h
  have hrest := h
  obtain ⟨hstream, hn⟩ := h
  cases hstream with
  | last hline => exact .ok (.intro _ hline) hrest
  | cons _ hline _ => exact .ok (.intro _ hline) hrest

/-- A semicolon may be skipped on one side only if it is on the other. -/
theorem skipSemicolon_steady : Steady R (fun _ _ ↦ True) skipSemicolon skipSemicolon :=
  (take?_steady (.symbol .semicolon) nofun).bind fun _ _ _ ↦ steady_pure trivial

/-! ### Lists with commas -/

section Lists

variable {item : Parser α} {closing : Token}

/-- The items of a list. A stream that ends within the list has the end mark where a comma or the
closing token should be, so that the loop ends with an error there and not at its bound. -/
theorem items_parallel (hitem : Steady R V item item) (hclosing : closing ≠ .eof) (bound : Nat) :
    Parallel R (Before R bound) (List.Forall₂ V) (Before R bound) (items item closing bound)
      (items item closing bound) := by
  induction bound with
  | zero => exact parallel_zero
  | succ bound ih =>
    rw [items_succ]
    refine (hitem (bound + 1)).bind fun first first' hfirst ↦ ?_
    have hmore : Parallel R (Before R bound) (List.Forall₂ V) (Before R bound)
        (items item closing bound >>= fun rest ↦ pure (first :: rest))
        (items item closing bound >>= fun rest ↦ pure (first' :: rest)) :=
      ih.bind fun _ _ hrest ↦ steady_pure (.cons hfirst hrest) bound
    rintro ts ts' j j' ⟨hstream, hn⟩
    cases hstream with
    | last hline =>
      -- the end mark neither goes on with the list nor closes it
      have hcomma : Token.eof ≠ .symbol .comma := nofun
      simp only [afterItem_cons, hcomma, hclosing.symm, if_false]
      exact .error nofun hline
    | cons _ hline hts =>
      rw [afterItem_cons, afterItem_cons]
      have hrest := Before.of_cons hts hn
      split
      · exact (hmore _ _ j j' hrest).mono fun _ _ ↦ .mono (Nat.le_succ bound)
      · split
        · exact .ok (.cons hfirst .nil) (hrest.mono (Nat.le_succ bound))
        · exact .error nofun hline

/-- A list with commas holds as many items on both sides, and they are related one by one. -/
theorem commaList_steady (hitem : Steady R V item item) (hclosing : closing ≠ .eof) :
    Steady R (List.Forall₂ V) (commaList item closing) (commaList item closing) := by
  refine (take?_steady closing hclosing).bind fun closed closed' h ↦ ?_
  cases h with
  | some _ => exact steady_pure .nil
  | none => exact parallel_remaining fun m ↦ items_parallel hitem hclosing m

end Lists

/-! ### Expressions -/

section Expressions

variable {inside? : Option (Parser Expr)}

/-- Behind a name there is a variable or a call on both sides. The parenthesis that opens the
arguments is the one on whose line a depth that is exceeded would be reported. -/
theorem afterName_steady (h : ∀ inside ∈ inside?, Steady R (Expr.Moved R) inside inside)
    (name : String) {line line' : Nat} (hline : R line line') {found found' : Option Nat}
    (hfound : Option.Rel R found found') :
    Steady R (Expr.Moved R) (afterName inside? name line found)
      (afterName inside? name line' found') := by
  cases hfound with
  | none => exact steady_pure (.variable name hline)
  | some hparen =>
    cases inside? with
    | none => exact fun _ _ _ _ _ _ ↦ .error nofun hparen
    | some inside =>
      have harguments : Steady R (List.Forall₂ (Expr.Moved R))
          (commaList inside (.symbol .rightParen)) (commaList inside (.symbol .rightParen)) :=
        commaList_steady (h inside rfl) nofun
      exact harguments.bind fun _ _ harguments ↦ steady_pure (.call name harguments hline)

/-- A number, a name or an expression in parentheses, of which each consumes its first token. -/
theorem value_consuming (h : ∀ inside ∈ inside?, Steady R (Expr.Moved R) inside inside) :
    Consuming R (Expr.Moved R) (value inside?) (value inside?) := by
  rintro n ts ts' j j' ⟨hstream, hn⟩
  cases hstream with
  | last hline => exact .error nofun hline
  | @cons token line line' ts ts' _ hline hts =>
    have hrest := Before.of_cons hts hn
    -- the same token stands on both sides, so that both take the same one of the three forms
    cases token with
    | integer value => exact .ok (.number value) hrest
    | identifier name =>
      rw [value_identifier, value_identifier]
      exact (take?_steady (.symbol .leftParen) nofun).bind
        (fun _ _ hfound ↦ afterName_steady h name hline hfound) n _ _ j j' hrest
    | symbol s =>
      cases s with
      | leftParen =>
        cases inside? with
        | none => exact .error nofun hline
        | some inside =>
          exact (h inside rfl).bind (fun e e' he ↦
            (expect_consuming (.symbol .rightParen) nofun).steady.bind fun _ _ _ ↦
              steady_pure he) n _ _ j j' hrest
      | _ => exact .error nofun hline
    | _ => exact .error nofun hline

/-- The line of a sign becomes that of the multiplication which it stands for. -/
theorem negation_steady (h : ∀ inside ∈ inside?, Steady R (Expr.Moved R) inside inside) :
    Steady R (Expr.Moved R) (negation inside?) (negation inside?) := by
  refine (take?_steady (.symbol .minus) nofun).bind fun sign sign' hsign ↦ ?_
  cases hsign with
  | none => exact (value_consuming h).steady
  | some hline =>
    exact (value_consuming h).steady.bind fun _ _ hvalue ↦
      steady_pure (.binary .mul (.number .minusOne) hvalue hline)

/-- The same operator, with its line moved. -/
inductive OperatorMoved (R : Nat → Nat → Prop) : Operator × Nat → Operator × Nat → Prop
  | intro (op : Operator) {line line' : Nat} : R line line' → OperatorMoved R (op, line) (op, line')

/-- An operator is taken on both sides if it is of the level that is asked for. -/
theorem operator?_steady (level : Precedence) :
    Steady R (Option.Rel (OperatorMoved R)) (operator? level) (operator? level) := by
  intro n ts ts' j j' h
  obtain ⟨k, rfl⟩ := h.exists_succ
  have hrest := h
  obtain ⟨hstream, hn⟩ := h
  cases hstream with
  | last hline => exact .ok .none hrest
  | @cons token _ _ _ _ _ hline hts =>
    rw [operator?_cons, operator?_cons]
    cases Operator.ofToken? token with
    | none => exact .ok .none hrest
    | some op =>
      dsimp only
      split
      · exact .ok (.some (.intro op hline)) ((Before.of_cons hts hn).mono (Nat.le_succ k))
      · exact .ok .none hrest

variable {level : Precedence} {operand : Parser Expr}

/-- The operators of a level, with what is on their left already parsed on both sides. -/
theorem operations_steady (hoperand : Steady R (Expr.Moved R) operand operand) (bound : Nat)
    {left left' : Expr} (hleft : left.Moved R left') :
    Steady R (Expr.Moved R) (operations level operand bound left)
      (operations level operand bound left') := by
  induction bound generalizing left left' with
  | zero => exact steady_pure hleft
  | succ bound ih =>
    -- what has been parsed becomes the left operand of the next operator, on both sides
    refine (operator?_steady level).bind fun found found' hfound ↦ ?_
    cases hfound with
    | none => exact steady_pure hleft
    | some hop =>
      cases hop with
      | intro op hline =>
        exact hoperand.bind fun _ _ hright ↦ ih (.binary op hleft hright hline)

/-- Operands with operators of one level between them are grouped from the left on both sides. -/
theorem leftGrouped_steady (hoperand : Steady R (Expr.Moved R) operand operand) :
    Steady R (Expr.Moved R) (leftGrouped level operand) (leftGrouped level operand) :=
  hoperand.bind fun _ _ hfirst ↦
    parallel_remaining fun m ↦ operations_steady hoperand m hfirst m

/-- The three levels of operators over values, one over the other. -/
theorem relational_steady (h : ∀ inside ∈ inside?, Steady R (Expr.Moved R) inside inside) :
    Steady R (Expr.Moved R) (relational inside?) (relational inside?) :=
  leftGrouped_steady (leftGrouped_steady (leftGrouped_steady (negation_steady h)))

end Expressions

/-- **Expressions are parsed alike**, by induction on the depth that is left for parentheses. -/
theorem expression_steady (levels : Nat) :
    Steady R (Expr.Moved R) (expression levels) (expression levels) := by
  induction levels with
  | zero => exact relational_steady nofun
  | succ levels ih =>
    refine relational_steady ?_
    rintro _ ⟨rfl⟩
    exact ih

/-! ### Statements -/

section Statements

variable {expr : Parser Expr} {stmt : Parser Statement} {line line' : Nat}

/-- The variable to be read is on the line of its keyword, which is handed over. -/
theorem readTarget_steady (hline : R line line') :
    Steady R (ReadTarget.Moved R) (readTarget line) (readTarget line') := by
  refine identifier_consuming.steady.bind fun name name' hname ↦ ?_
  subst hname
  exact steady_pure (.intro name hline)

/-- A read behind a display is there on both sides or on neither. -/
theorem attachedRead?_steady :
    Steady R (Option.Rel (ReadTarget.Moved R)) attachedRead? attachedRead? := by
  refine (take?_steady (.keyword .readKw) nofun).bind fun found found' hfound ↦ ?_
  cases hfound with
  | none => exact steady_pure .none
  | some hline => exact (readTarget_steady hline).bind fun _ _ h ↦ steady_pure (.some h)

theorem display_steady (hexpr : Steady R (Expr.Moved R) expr expr) (hline : R line line') :
    Steady R (Statement.Moved R) (display expr line) (display expr line') :=
  hexpr.bind fun _ _ hvalue ↦ attachedRead?_steady.bind fun _ _ hattached ↦
    steady_pure (.display hvalue hattached hline)

/-- The sign of an assignment is missed on the line of the token in its place. The line that is
noted may be any. -/
theorem assignmentSign_steady (line line' : Nat) :
    Steady R (fun _ _ ↦ True) (assignmentSign line) (assignmentSign line') := by
  refine Consuming.steady ?_
  rintro n ts ts' j j' ⟨hstream, hn⟩
  cases hstream with
  | last hfound => exact .error nofun hfound
  | cons _ hfound hts =>
    rw [assignmentSign_cons, assignmentSign_cons]
    split
    · exact .ok trivial (.of_cons hts hn)
    · exact .error nofun hfound

/-- The line of an assignment is looked up before its name is consumed. -/
theorem assignment_consuming (hexpr : Steady R (Expr.Moved R) expr expr) :
    Consuming R (Statement.Moved R) (assignment expr) (assignment expr) := by
  refine peek_steady.bind_consuming fun first first' hfirst ↦ ?_
  refine identifier_consuming.bind fun name name' hname ↦ ?_
  subst hname
  cases hfirst with
  | intro token hline =>
    exact (assignmentSign_steady _ _).bind fun _ _ _ ↦ hexpr.bind fun _ _ hvalue ↦
      steady_pure (.assign name hvalue hline)

/-- After the first statement of a block there is one token less, which is what the induction over
the others needs. -/
theorem statementThen_consuming (hstmt : Consuming R (Statement.Moved R) stmt stmt)
    {more : Parser Block} {n : Nat}
    (hmore : Parallel R (Before R n) (Block.Moved R) (Before R n) more more) :
    Parallel R (Before R (n + 1)) (Block.Moved R) (Before R n) (statementThen stmt more)
      (statementThen stmt more) :=
  (hstmt n).bind fun _ _ hfirst ↦ hmore.bind fun _ _ hothers ↦
    steady_pure (.cons hfirst hothers) n

/-- The statements up to a token that ends a block; the end mark is such a token. -/
theorem moreStatements_parallel (hstmt : Consuming R (Statement.Moved R) stmt stmt)
    (bound : Nat) :
    Parallel R (Before R bound) (Block.Moved R) (Before R bound) (moreStatements stmt bound)
      (moreStatements stmt bound) := by
  induction bound with
  | zero => exact parallel_zero
  | succ bound ih =>
    intro ts ts' j j' h
    -- the first statement consumes something, so that the bound on the others suffices
    have hthen := (statementThen_consuming hstmt ih _ _ j j' h).mono
      fun _ _ ↦ Before.mono (Nat.le_succ bound)
    have hrest := h
    obtain ⟨hstream, -⟩ := h
    cases hstream with
    | last hline => exact .ok .nil hrest
    | cons _ hline _ =>
      rw [moreStatements_cons, moreStatements_cons]
      split
      · exact .ok .nil hrest
      · exact hthen

/-- A block is not empty: where it would be, the fault is on the line of the token that ends it. -/
theorem block_steady (hstmt : Consuming R (Statement.Moved R) stmt stmt) :
    Steady R (Block.Moved R) (block stmt) (block stmt) := by
  refine Consuming.steady fun n ts ts' j j' h ↦ ?_
  have hmore : Steady R (Block.Moved R) (do moreStatements stmt (← remaining))
      (do moreStatements stmt (← remaining)) :=
    parallel_remaining (moreStatements_parallel hstmt)
  have hthen := statementThen_consuming hstmt (hmore n) _ _ j j' h
  obtain ⟨hstream, -⟩ := h
  cases hstream with
  | last hline => exact .error nofun hline
  | cons _ hline _ =>
    rw [block_cons, block_cons]
    split
    · exact .error nofun hline
    · exact hthen

/-- What a conditional or a loop holds is parsed alike. -/
structure InteriorSteady (R : Nat → Nat → Prop) (interior : Interior) : Prop where
  /-- The condition. -/
  condition : Steady R (Expr.Moved R) interior.condition interior.condition
  /-- The block. -/
  block : Steady R (Block.Moved R) interior.block interior.block

variable {interior : Interior}

/-- The second block of a conditional is there on both sides or on neither. -/
theorem InteriorSteady.elseBlock? (h : InteriorSteady R interior) :
    Steady R (Option.Rel (Block.Moved R)) (elseBlock? interior) (Parser.elseBlock? interior) := by
  refine (take?_steady (.keyword .elseKw) nofun).bind fun found found' hfound ↦ ?_
  cases hfound with
  | none => exact steady_pure .none
  | some _ => exact h.block.bind fun _ _ hblock ↦ steady_pure (.some hblock)

/-- A conditional has the line of its keyword, which has been consumed. -/
theorem InteriorSteady.branch (h : InteriorSteady R interior) (hline : R line line') :
    Steady R (Statement.Moved R) (branch interior line) (Parser.branch interior line') :=
  h.condition.bind fun _ _ hcondition ↦
    (expect_consuming (.keyword .thenKw) nofun).steady.bind fun _ _ _ ↦
      h.block.bind fun _ _ hthen ↦ h.elseBlock?.bind fun _ _ helse ↦
        (expect_consuming (.keyword .endKw) nofun).steady.bind fun _ _ _ ↦
          steady_pure (.branch hcondition hthen helse hline)

/-- So has a loop. -/
theorem InteriorSteady.loop (h : InteriorSteady R interior) (hline : R line line') :
    Steady R (Statement.Moved R) (loop interior line) (Parser.loop interior line') :=
  h.condition.bind fun _ _ hcondition ↦
    (expect_consuming (.keyword .doKw) nofun).steady.bind fun _ _ _ ↦
      h.block.bind fun _ _ hbody ↦
        (expect_consuming (.keyword .endKw) nofun).steady.bind fun _ _ _ ↦
          steady_pure (.loop hcondition hbody hline)

/-- A statement of any kind, told by its first token. Where no depth is left there is no interior,
and a conditional or a loop is a fault on the line of its keyword. -/
theorem bareStatement_consuming {interior? : Option Interior}
    (hexpr : Steady R (Expr.Moved R) expr expr)
    (h : ∀ interior ∈ interior?, InteriorSteady R interior) :
    Consuming R (Statement.Moved R) (bareStatement expr interior?)
      (bareStatement expr interior?) := by
  intro n ts ts' j j' hts
  have hassign := assignment_consuming hexpr n _ _ j j' hts
  obtain ⟨hstream, hn⟩ := hts
  cases hstream with
  | last hline => exact .error nofun hline
  | @cons token line line' ts ts' _ hline hts =>
    have hrest := Before.of_cons hts hn
    -- an assignment looks at its name once more, all others have consumed their keyword
    cases token with
    | identifier name => exact hassign
    | keyword k =>
      cases k with
      | displayKw => exact display_steady hexpr hline n _ _ j j' hrest
      | readKw =>
        exact (readTarget_steady hline).bind (fun _ _ htarget ↦ steady_pure (.read htarget)) n _ _
          j j' hrest
      | assignKw => exact (assignment_consuming hexpr).steady n _ _ j j' hrest
      | ifKw =>
        cases interior? with
        | none => exact .error nofun hline
        | some interior => exact (h interior rfl).branch hline n _ _ j j' hrest
      | whileKw =>
        cases interior? with
        | none => exact .error nofun hline
        | some interior => exact (h interior rfl).loop hline n _ _ j j' hrest
      | _ => exact .error nofun hline
    | _ => exact .error nofun hline

/-- A statement with the semicolon that may follow it. -/
theorem statementWith_consuming {interior? : Option Interior}
    (hexpr : Steady R (Expr.Moved R) expr expr)
    (h : ∀ interior ∈ interior?, InteriorSteady R interior) :
    Consuming R (Statement.Moved R) (statementWith expr interior?)
      (statementWith expr interior?) :=
  (bareStatement_consuming hexpr h).bind fun _ _ hs ↦ skipSemicolon_steady.bind fun _ _ _ ↦
    (steady_note _ _).bind fun _ _ _ ↦ steady_pure hs

end Statements

/-- **Statements are parsed alike**, by induction on the depth that is left for conditionals and
loops. -/
theorem statement_consuming (levels : Nat) :
    Consuming R (Statement.Moved R) (statement levels) (statement levels) := by
  induction levels with
  | zero => exact statementWith_consuming (expression_steady 0) nofun
  | succ levels ih =>
    refine statementWith_consuming (expression_steady _) ?_
    rintro _ ⟨rfl⟩
    exact ⟨expression_steady levels, block_steady ih⟩

theorem statements_steady (levels : Nat) :
    Steady R (Block.Moved R) (statements levels) (statements levels) :=
  block_steady (statement_consuming levels)

/-! ### Procedures -/

/-- Names have no lines, so that lists of them are equal. -/
theorem names_steady (closing : Token) (hclosing : closing ≠ .eof) :
    Steady R Eq (commaList identifier closing) (commaList identifier closing) := by
  have h : Steady R (List.Forall₂ Eq) (commaList identifier closing)
      (commaList identifier closing) :=
    commaList_steady identifier_consuming.steady hclosing
  rwa [List.forall₂_eq_eq_eq] at h

/-- The locals of a procedure are the same, be they declared or not. -/
theorem localNames_steady : Steady R Eq localNames localNames := by
  refine (take?_steady (.keyword .varKw) nofun).bind fun found found' hfound ↦ ?_
  cases hfound with
  | none => exact steady_pure rfl
  | some _ => exact names_steady (.symbol .semicolon) nofun

/-- A name that is bound twice is a fault on the line of the procedure. -/
theorem checkDistinct_steady (name : String) (names : List String) {line line' : Nat}
    (hline : R line line') :
    Steady R (fun _ _ ↦ True) (checkDistinct name names line) (checkDistinct name names line') := by
  unfold checkDistinct
  split
  · exact steady_pure trivial
  · exact fun _ _ _ _ _ _ ↦ .error nofun hline

/-- A procedure from its body on, when its names are known. -/
theorem procedureBody_steady {body : Parser Block} (hbody : Steady R (Block.Moved R) body body)
    (name : String) (params locals : List String) {line line' : Nat} (hline : R line line') :
    Steady R (Procedure.Moved R) (procedureBody body name params locals line)
      (procedureBody body name params locals line') :=
  (checkDistinct_steady name (params ++ locals) hline).bind fun _ _ _ ↦
    hbody.bind fun _ _ hblock ↦ (expect_consuming (.keyword .endKw) nofun).steady.bind fun _ _ _ ↦
      skipSemicolon_steady.bind fun _ _ _ ↦ (steady_note _ _).bind fun _ _ _ ↦
        steady_pure (.intro name params locals hblock hline)

/-- A procedure behind its keyword, whose line it has. -/
theorem afterProcedure_steady {body : Parser Block} (hbody : Steady R (Block.Moved R) body body)
    {line line' : Nat} (hline : R line line') :
    Steady R (Procedure.Moved R) (afterProcedure body line) (afterProcedure body line') := by
  refine identifier_consuming.steady.bind fun name _ hname ↦ ?_
  refine (expect_consuming (.symbol .leftParen) nofun).steady.bind fun _ _ _ ↦ ?_
  refine (names_steady (.symbol .rightParen) nofun).bind fun params _ hparams ↦ ?_
  refine localNames_steady.bind fun locals _ hlocals ↦ ?_
  subst hname hparams hlocals
  exact procedureBody_steady hbody name params locals hline

/-- A procedure is parsed alike. With no depth left for its body the fault is on the line of its
keyword. -/
theorem procedure_steady (levels : Nat) :
    Steady R (Procedure.Moved R) (procedure levels) (procedure levels) := by
  cases levels with
  | zero =>
    refine (expect_consuming (.keyword .procedureKw) nofun).steady.bind fun _ _ hline ↦ ?_
    exact fun _ _ _ _ _ _ ↦ .error nofun hline
  | succ levels =>
    exact (expect_consuming (.keyword .procedureKw) nofun).steady.bind fun _ _ hline ↦
      afterProcedure_steady (statements_steady levels) hline

/-- Procedures are parsed as long as the next token is their keyword. No bound has to be known to
suffice: where it does not, the loop stops on both sides. -/
theorem moreProcedures_steady {proc : Parser Procedure}
    (hproc : Steady R (Procedure.Moved R) proc proc) (bound : Nat) :
    Steady R (List.Forall₂ (Procedure.Moved R)) (moreProcedures proc bound)
      (moreProcedures proc bound) := by
  induction bound with
  | zero => exact steady_pure .nil
  | succ bound ih =>
    intro n ts ts' j j' h
    have hthen := hproc.bind (fun _ _ hfirst ↦ ih.bind fun _ _ hothers ↦
      steady_pure (List.Forall₂.cons hfirst hothers)) n _ _ j j' h
    have hrest := h
    obtain ⟨hstream, -⟩ := h
    cases hstream with
    | last hline => exact .ok .nil hrest
    | cons _ hline _ =>
      rw [moreProcedures_cons, moreProcedures_cons]
      split
      · exact hthen
      · exact .ok .nil hrest

/-- All procedures in front of the statements. -/
theorem procedures_steady (levels : Nat) :
    Steady R (List.Forall₂ (Procedure.Moved R)) (procedures levels) (procedures levels) :=
  parallel_remaining fun m ↦ moreProcedures_steady (procedure_steady levels) m m

/-! ### Programs -/

/-- The end mark is consumed here, and nowhere else. -/
theorem programEnd_parallel {p p' : Program} (h : p.Moved R p') :
    Parallel R (Stream R) (Program.Moved R) Finished (programEnd p) (programEnd p') := by
  intro ts ts' j j' hstream
  cases hstream with
  | last _ => exact .ok h ⟨rfl, rfl⟩
  | @cons token _ _ _ _ htoken hline _ =>
    cases token with
    | eof => exact absurd rfl htoken
    | _ => exact .error nofun hline

/-- The first token that opens a construct too many is the same, on a line that is moved: depths are
counted without looking at lines. -/
theorem tooDeep?_moved (h : Stream R ts ts') (limit depth : Nat) :
    Option.Rel (Lexeme.Moved R) (tooDeep? limit depth ts) (tooDeep? limit depth ts') := by
  induction h generalizing depth with
  | last _ => exact .none
  | @cons token line line' ts ts' _ hline _ ih =>
    unfold tooDeep?
    dsimp only
    split
    · split
      · exact .some (.intro token hline)
      · exact ih _
    · split
      · exact ih _
      · exact ih _

/-- Nesting is too deep on both sides or on neither. -/
theorem checkNesting_parallel (limit : Nat) :
    Parallel R (Stream R) (fun _ _ ↦ True) (Stream R) (checkNesting limit)
      (checkNesting limit) := by
  intro ts ts' j j' hstream
  have hdeep := tooDeep?_moved hstream limit 0
  rw [checkNesting_apply, checkNesting_apply]
  revert hdeep
  generalize tooDeep? limit 0 ts = found, tooDeep? limit 0 ts' = found'
  intro hdeep
  cases hdeep with
  | none => exact .ok trivial hstream
  | some h =>
    cases h with
    | intro _ hline => exact .error nofun hline

/-- **Programs are parsed alike** from streams that differ in their lines. -/
theorem program_parallel (levels : Nat) :
    Parallel R (Stream R) (Program.Moved R) Finished (program levels) (program levels) := by
  refine (checkNesting_parallel maxNesting).bind fun _ _ _ ts ts' j j' hstream ↦ ?_
  -- the parts are bounded by the number of tokens, the end mark takes none of them
  have hparts : Parallel R (Before R ts.length) (Program.Moved R) Finished
      (uncheckedProgram levels) (uncheckedProgram levels) := by
    rw [uncheckedProgram_eq]
    refine (procedures_steady levels _).bind fun _ _ hprocedures ↦ ?_
    refine (statements_steady levels _).bind fun _ _ hstatements ↦ ?_
    exact fun ts ts' j j' hrest ↦
      programEnd_parallel ⟨hprocedures, hstatements⟩ ts ts' j j' hrest.stream
  exact hparts ts ts' j j' ⟨hstream, Nat.le_refl _⟩

/-- The depth that a whole text is given is the number of its tokens, which is the same on both
sides. -/
theorem runFrom_program_ends (h : Stream R ts ts') (j j' : Journal) :
    EndMoved R (Program.Moved R) Finished (runFrom program ⟨ts, j⟩)
      (runFrom program ⟨ts', j'⟩) := by
  have hends := program_parallel ts.length ts ts' j j' h
  rw [runFrom, runFrom, h.length_eq]
  exact hends

end Parser

end TinyProc
