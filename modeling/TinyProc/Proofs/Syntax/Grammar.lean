import TinyProc.Syntax.Program

/-!
# The grammar

The grammar of programs as a relation between lists of lexemes and syntax trees, with the line that
each node carries:

```
program    := procedure* statement+
procedure  := procedure name ( [name (, name)*] ) [var [name (, name)*] ;] statement+ end [;]
statement  := ( display expr [read name]
              | read name
              | [assign] name (:= | =) expr
              | if expr then statement+ [else statement+] end
              | while expr do statement+ end ) [;]
expr       := add | expr (= | <> | < | > | <= | >=) add
add        := mul | add (+ | -) mul
mul        := neg | mul (* | /) neg
neg        := value | - value
value      := number | name | ( expr ) | name ( [expr (, expr)*] )
```

Nothing here refers to a parser: a rule says which lists are put together to which list, and what
tree this gives. The rules for operators recurse on the left, which is to say that operators of one
level group to the left. The list after `var` may be empty.

The rules leave one choice open. A `read` directly behind what a `display` shows can be part of the
display or a statement of its own. Sequences of statements are therefore defined for two rules about
reads, one that leaves the choice open and one that does not (`ReadRule`). The first gives a context
free grammar, and the second one that is not ambiguous.
-/

namespace TinyProc

/-- Whether a read may still be attached to a statement. -/
def Statement.takesRead : Statement → Prop
  | .display _ none _ => True
  | _ => False

namespace Grammar

variable {α : Type}

/-! ### Parts of rules -/

/-- A token that may be missing. -/
def Optional (token : Token) (c : List Lexeme) : Prop :=
  c = [] ∨ ∃ line, c = [⟨token, line⟩]

/-- A list that begins with a token. -/
def StartsWith (token : Token) (c : List Lexeme) : Prop :=
  ∃ line c', c = ⟨token, line⟩ :: c'

theorem not_startsWith_cons {token : Token} {found : Lexeme} {rest : List Lexeme}
    (h : found.token ≠ token) : ¬ StartsWith token (found :: rest) := by
  rintro ⟨line, rest', heq⟩
  cases heq
  exact h rfl

/-- A name. -/
def IsName (c : List Lexeme) (name : String) : Prop :=
  ∃ line, c = [⟨.identifier name, line⟩]

/-- Items with commas between them, and the token that closes the list. -/
inductive Items (item : List Lexeme → α → Prop) (closing : Token) : List Lexeme → List α → Prop
  | last {c : List Lexeme} {a : α} (line : Nat) :
    item c a → Items item closing (c ++ [⟨closing, line⟩]) [a]
  | cons {c c' : List Lexeme} {a : α} {as : List α} (line : Nat) :
    item c a → Items item closing c' as →
      Items item closing (c ++ ⟨.symbol .comma, line⟩ :: c') (a :: as)

/-- A list with commas and the token that closes it. The list may be empty. -/
inductive CommaList (item : List Lexeme → α → Prop) (closing : Token) :
    List Lexeme → List α → Prop
  | empty (line : Nat) : CommaList item closing [⟨closing, line⟩] []
  | filled {c : List Lexeme} {as : List α} :
    Items item closing c as → CommaList item closing c as

/-- Items end with the token that closes them, and so there is always one. -/
theorem Items.ne_nil {item : List Lexeme → α → Prop} {closing : Token} {c : List Lexeme}
    {as : List α} (h : Items item closing c as) : c ≠ [] := by
  cases h <;> simp

/-! ### Expressions -/

/-- The layers of expressions. -/
inductive Tier
  /-- What stands between operators and signs. -/
  | value
  /-- A value, with or without a sign. -/
  | signed
  /-- Operands joined by the operators of a level. -/
  | joined (level : Precedence)

/-- The layer of the operands on a level. -/
def operands : Precedence → Tier
  | .multiplicative => .signed
  | .additive => .joined .multiplicative
  | .relational => .joined .additive

/-- The layer of whole expressions. -/
def Tier.whole : Tier :=
  .joined .relational

/-- The rules for expressions. -/
inductive IsExpr : Tier → List Lexeme → Expr → Prop
  | number (value : Word) (line : Nat) : IsExpr .value [⟨.integer value, line⟩] (.number value)
  | name (name : String) (line : Nat) :
    IsExpr .value [⟨.identifier name, line⟩] (.variable name line)
  | group {c : List Lexeme} {e : Expr} (line line' : Nat) :
    IsExpr .whole c e →
      IsExpr .value (⟨.symbol .leftParen, line⟩ :: (c ++ [⟨.symbol .rightParen, line'⟩])) e
  | call {c : List Lexeme} {arguments : List Expr} (name : String) (line line' : Nat) :
    CommaList (IsExpr .whole) (.symbol .rightParen) c arguments →
      IsExpr .value (⟨.identifier name, line⟩ :: ⟨.symbol .leftParen, line'⟩ :: c)
        (.call name arguments line)
  | plain {c : List Lexeme} {e : Expr} : IsExpr .value c e → IsExpr .signed c e
  | minus {c : List Lexeme} {e : Expr} (line : Nat) :
    IsExpr .value c e →
      IsExpr .signed (⟨.symbol .minus, line⟩ :: c) (.binary .mul (.number .minusOne) e line)
  | operand {level : Precedence} {c : List Lexeme} {e : Expr} :
    IsExpr (operands level) c e → IsExpr (.joined level) c e
  | operation {level : Precedence} {op : Operator} {c c' : List Lexeme} {left right : Expr}
    (line : Nat) :
    IsExpr (.joined level) c left → op.precedence = level → IsExpr (operands level) c' right →
      IsExpr (.joined level) (c ++ ⟨.symbol op.symbol, line⟩ :: c') (.binary op left right line)

/-- Induction along the rules for expressions. Of the arguments of a call it is known that they are
expressions and that what is to be shown holds of them. -/
@[elab_as_elim]
theorem IsExpr.induction {motive : ∀ {t c e}, IsExpr t c e → Prop}
    (number : ∀ (value : Word) (line : Nat), motive (.number value line))
    (name : ∀ (name : String) (line : Nat), motive (.name name line))
    (group : ∀ {c e} (line line' : Nat) (h : IsExpr .whole c e), motive h →
      motive (.group line line' h))
    (call : ∀ {c arguments} (name : String) (line line' : Nat)
      (h : CommaList (IsExpr .whole) (.symbol .rightParen) c arguments),
      CommaList (fun c e ↦ ∃ h : IsExpr .whole c e, motive h) (.symbol .rightParen) c arguments →
        motive (.call name line line' h))
    (plain : ∀ {c e} (h : IsExpr .value c e), motive h → motive (.plain h))
    (minus : ∀ {c e} (line : Nat) (h : IsExpr .value c e), motive h → motive (.minus line h))
    (operand : ∀ {level c e} (h : IsExpr (operands level) c e), motive h → motive (.operand h))
    (operation : ∀ {level op c c' left right} (line : Nat) (hleft : IsExpr (.joined level) c left)
      (hop : Operator.precedence op = level) (hright : IsExpr (operands level) c' right),
      motive hleft → motive hright → motive (.operation line hleft hop hright))
    {t : Tier} {c : List Lexeme} {e : Expr} (h : IsExpr t c e) : motive h :=
  @IsExpr.rec (fun _ _ _ h ↦ motive h)
    (fun c es _ ↦
      CommaList (fun c e ↦ ∃ h : IsExpr .whole c e, motive h) (.symbol .rightParen) c es)
    (fun c es _ ↦ Items (fun c e ↦ ∃ h : IsExpr .whole c e, motive h) (.symbol .rightParen) c es)
    number name group call plain minus operand operation .empty (fun _ ↦ .filled)
    (fun line ha iha ↦ .last line ⟨ha, iha⟩) (fun line ha _ iha ↦ .cons line ⟨ha, iha⟩) t c e h

/-- A number is an expression by itself. -/
theorem IsExpr.wholeNumber (value : Word) (line : Nat) :
    IsExpr .whole [⟨.integer value, line⟩] (.number value) :=
  .operand (.operand (.operand (.plain (.number value line))))

/-! ### Statements -/

/-- What is said about a `read` directly behind what a `display` shows. -/
inductive ReadRule
  /-- It is part of the display or a statement of its own. -/
  | free
  /-- It is part of the display. -/
  | attached

/-- Whether the rule allows a statement, with or without a semicolon behind it, in front of more. -/
def ReadRule.Allows : ReadRule → Statement → (semicolon next : List Lexeme) → Prop
  | .free, _, _, _ => True
  | .attached, s, semicolon, next =>
    s.takesRead → semicolon = [] → ¬ StartsWith (.keyword .readKw) next

/-- One or more statements, each with or without a semicolon behind it. -/
inductive Sequence (rule : ReadRule) (item : List Lexeme → Statement → Prop) :
    List Lexeme → Block → Prop
  | last {c semicolon : List Lexeme} {s : Statement} :
    item c s → Optional (.symbol .semicolon) semicolon → Sequence rule item (c ++ semicolon) [s]
  | cons {c semicolon next : List Lexeme} {s : Statement} {block : Block} :
    item c s → Optional (.symbol .semicolon) semicolon → rule.Allows s semicolon next →
      Sequence rule item next block →
        Sequence rule item (c ++ (semicolon ++ next)) (s :: block)

/-- A sequence of what is more specific is one of what is less. -/
theorem Sequence.imp {rule : ReadRule} {item item' : List Lexeme → Statement → Prop}
    {c : List Lexeme} {block : Block} (h : ∀ c s, item c s → item' c s)
    (hc : Sequence rule item c block) : Sequence rule item' c block := by
  induction hc with
  | last hs hsemicolon => exact .last (h _ _ hs) hsemicolon
  | cons hs hsemicolon hallows _ ih => exact .cons (h _ _ hs) hsemicolon hallows ih

/-- A sequence is a first statement, its semicolon, and nothing or another sequence. -/
theorem Sequence.uncons {rule : ReadRule} {item : List Lexeme → Statement → Prop}
    {c : List Lexeme} {block : Block} (h : Sequence rule item c block) :
    ∃ c₁ semicolon c₂ s block', c = c₁ ++ (semicolon ++ c₂) ∧ block = s :: block' ∧ item c₁ s ∧
      Optional (.symbol .semicolon) semicolon ∧
        (c₂ = [] ∧ block' = [] ∨ rule.Allows s semicolon c₂ ∧ Sequence rule item c₂ block') := by
  cases h with
  | @last c semicolon s hs hsemicolon =>
    exact ⟨c, semicolon, [], s, [], by simp, rfl, hs, hsemicolon, .inl ⟨rfl, rfl⟩⟩
  | cons hs hsemicolon hallows h =>
    exact ⟨_, _, _, _, _, rfl, rfl, hs, hsemicolon, .inr ⟨hallows, h⟩⟩

/-- The rules for statements, without the semicolon behind them. -/
inductive IsStatement (rule : ReadRule) : List Lexeme → Statement → Prop
  | display {c : List Lexeme} {e : Expr} (line : Nat) :
    IsExpr .whole c e →
      IsStatement rule (⟨.keyword .displayKw, line⟩ :: c) (.display e none line)
  | displayRead {c : List Lexeme} {e : Expr} (name : String) (line line' line'' : Nat) :
    IsExpr .whole c e →
      IsStatement rule
        (⟨.keyword .displayKw, line⟩ ::
          (c ++ [⟨.keyword .readKw, line'⟩, ⟨.identifier name, line''⟩]))
        (.display e (some ⟨name, line'⟩) line)
  | read (name : String) (line line' : Nat) :
    IsStatement rule [⟨.keyword .readKw, line⟩, ⟨.identifier name, line'⟩] (.read ⟨name, line⟩)
  | assign {keyword c : List Lexeme} {sign : Symbol} {e : Expr} (name : String)
    (line line' : Nat) :
    Optional (.keyword .assignKw) keyword → sign = .colonEquals ∨ sign = .equals →
      IsExpr .whole c e →
        IsStatement rule (keyword ++ ⟨.identifier name, line⟩ :: ⟨.symbol sign, line'⟩ :: c)
          (.assign name e line)
  | branch {c c' : List Lexeme} {e : Expr} {block : Block} (line line' line'' : Nat) :
    IsExpr .whole c e → Sequence rule (IsStatement rule) c' block →
      IsStatement rule
        (⟨.keyword .ifKw, line⟩ ::
          (c ++ ⟨.keyword .thenKw, line'⟩ :: (c' ++ [⟨.keyword .endKw, line''⟩])))
        (.branch e block none line)
  | branchElse {c c' c'' : List Lexeme} {e : Expr} {block block' : Block}
    (line line₁ line₂ line₃ : Nat) :
    IsExpr .whole c e → Sequence rule (IsStatement rule) c' block →
      Sequence rule (IsStatement rule) c'' block' →
        IsStatement rule
          (⟨.keyword .ifKw, line⟩ ::
            (c ++ ⟨.keyword .thenKw, line₁⟩ ::
              (c' ++ ⟨.keyword .elseKw, line₂⟩ :: (c'' ++ [⟨.keyword .endKw, line₃⟩]))))
          (.branch e block (some block') line)
  | loop {c c' : List Lexeme} {e : Expr} {block : Block} (line line' line'' : Nat) :
    IsExpr .whole c e → Sequence rule (IsStatement rule) c' block →
      IsStatement rule
        (⟨.keyword .whileKw, line⟩ ::
          (c ++ ⟨.keyword .doKw, line'⟩ :: (c' ++ [⟨.keyword .endKw, line''⟩])))
        (.loop e block line)

/-- Induction along the rules for statements. Of the statements in a block it is known that they are
statements and that what is to be shown holds of them. -/
@[elab_as_elim]
theorem IsStatement.induction {rule : ReadRule} {motive : ∀ {c s}, IsStatement rule c s → Prop}
    (display : ∀ {c e} (line : Nat) (he : IsExpr .whole c e), motive (.display line he))
    (displayRead : ∀ {c e} (name : String) (line line' line'' : Nat) (he : IsExpr .whole c e),
      motive (.displayRead name line line' line'' he))
    (read : ∀ (name : String) (line line' : Nat), motive (.read name line line'))
    (assign : ∀ {keyword c sign e} (name : String) (line line' : Nat)
      (hkeyword : Optional (.keyword .assignKw) keyword)
      (hsign : sign = Symbol.colonEquals ∨ sign = Symbol.equals) (he : IsExpr .whole c e),
      motive (.assign name line line' hkeyword hsign he))
    (branch : ∀ {c c' e block} (line line' line'' : Nat) (he : IsExpr .whole c e)
      (h : Sequence rule (IsStatement rule) c' block),
      Sequence rule (fun c s ↦ ∃ h : IsStatement rule c s, motive h) c' block →
        motive (.branch line line' line'' he h))
    (branchElse : ∀ {c c' c'' e block block'} (line line₁ line₂ line₃ : Nat)
      (he : IsExpr .whole c e) (h : Sequence rule (IsStatement rule) c' block)
      (h' : Sequence rule (IsStatement rule) c'' block'),
      Sequence rule (fun c s ↦ ∃ h : IsStatement rule c s, motive h) c' block →
        Sequence rule (fun c s ↦ ∃ h : IsStatement rule c s, motive h) c'' block' →
          motive (.branchElse line line₁ line₂ line₃ he h h'))
    (loop : ∀ {c c' e block} (line line' line'' : Nat) (he : IsExpr .whole c e)
      (h : Sequence rule (IsStatement rule) c' block),
      Sequence rule (fun c s ↦ ∃ h : IsStatement rule c s, motive h) c' block →
        motive (.loop line line' line'' he h))
    {c : List Lexeme} {s : Statement} (h : IsStatement rule c s) : motive h :=
  @IsStatement.rec rule (fun _ _ h ↦ motive h)
    (fun c block _ ↦ Sequence rule (fun c s ↦ ∃ h : IsStatement rule c s, motive h) c block)
    display displayRead read assign branch branchElse loop
    (fun hs hm ihs ↦ .last ⟨hs, ihs⟩ hm) (fun hs hm hr _ ihs ↦ .cons ⟨hs, ihs⟩ hm hr) c s h

/-- No statement is empty, so that sequences of them get longer with each. -/
theorem IsStatement.ne_nil {rule : ReadRule} {c : List Lexeme} {s : Statement}
    (h : IsStatement rule c s) : c ≠ [] := by
  cases h <;> simp

/-! ### Programs -/

/-- The local variables of a procedure, if it declares some. -/
inductive IsLocals : List Lexeme → List String → Prop
  | none : IsLocals [] []
  | some {c : List Lexeme} {names : List String} (line : Nat) :
    CommaList IsName (.symbol .semicolon) c names →
      IsLocals (⟨.keyword .varKw, line⟩ :: c) names

/-- The rule for procedures. -/
inductive IsProcedure (rule : ReadRule) : List Lexeme → Procedure → Prop
  | intro {c₁ c₂ c₃ semicolon : List Lexeme} {params locals : List String} {block : Block}
    (name : String) (line line₁ line₂ line₃ : Nat) :
    CommaList IsName (.symbol .rightParen) c₁ params → IsLocals c₂ locals →
      Sequence rule (IsStatement rule) c₃ block → Optional (.symbol .semicolon) semicolon →
        IsProcedure rule
          (⟨.keyword .procedureKw, line⟩ :: ⟨.identifier name, line₁⟩ ::
            ⟨.symbol .leftParen, line₂⟩ ::
              (c₁ ++ (c₂ ++ (c₃ ++ ⟨.keyword .endKw, line₃⟩ :: semicolon))))
          ⟨name, params, locals, block, line⟩

/-- The keyword is what tells procedures from the statements behind them. -/
theorem IsProcedure.startsWith {rule : ReadRule} {c : List Lexeme} {p : Procedure}
    (h : IsProcedure rule c p) : StartsWith (.keyword .procedureKw) c := by
  cases h
  exact ⟨_, _, rfl⟩

theorem IsProcedure.pos {rule : ReadRule} {c : List Lexeme} {p : Procedure}
    (h : IsProcedure rule c p) : 1 ≤ c.length := by
  obtain ⟨line, c', rfl⟩ := h.startsWith
  rw [List.length_cons]
  omega

/-- Procedures one after the other, possibly none. -/
inductive IsProcedures (rule : ReadRule) : List Lexeme → List Procedure → Prop
  | nil : IsProcedures rule [] []
  | cons {c c' : List Lexeme} {p : Procedure} {ps : List Procedure} :
    IsProcedure rule c p → IsProcedures rule c' ps → IsProcedures rule (c ++ c') (p :: ps)

/-- The rule for programs. -/
inductive IsProgram (rule : ReadRule) : List Lexeme → Program → Prop
  | intro {c c' : List Lexeme} {ps : List Procedure} {block : Block} :
    IsProcedures rule c ps → Sequence rule (IsStatement rule) c' block →
      IsProgram rule (c ++ c') ⟨ps, block⟩

/-- A program and the end of the input behind it. -/
def IsSource (rule : ReadRule) (c : List Lexeme) (p : Program) : Prop :=
  ∃ c' line, c = c' ++ [⟨.eof, line⟩] ∧ IsProgram rule c' p

/-! ### First tokens -/

/-- Whether a token can begin a value. -/
def startsValue : Token → Bool
  | .integer _ | .identifier _ | .symbol .leftParen => true
  | _ => false

/-- Whether a token can begin an expression of a layer. -/
def Tier.starts : Tier → Token → Bool
  | .value, token => startsValue token
  | _, token => startsValue token || token = .symbol .minus

/-- Whether a token can begin a statement. -/
def startsStatement : Token → Bool
  | .identifier _ => true
  | .keyword .displayKw | .keyword .readKw | .keyword .assignKw => true
  | .keyword .ifKw | .keyword .whileKw => true
  | _ => false

/-- An operator never stands in front, so that a level begins with what its operands begin with. -/
theorem Tier.starts_joined (level : Precedence) (token : Token) :
    (Tier.joined level).starts token = (operands level).starts token := by
  cases level <;> rfl

/-- What an expression begins with. Only its layer decides whether this may be a sign. -/
theorem IsExpr.head {t : Tier} {c : List Lexeme} {e : Expr} (h : IsExpr t c e) :
    ∃ found c', c = found :: c' ∧ t.starts found.token := by
  induction h using IsExpr.induction with
  | number value line => exact ⟨_, _, rfl, rfl⟩
  | name name line => exact ⟨_, _, rfl, rfl⟩
  | group line line' _ _ => exact ⟨_, _, rfl, rfl⟩
  | call name line line' _ => exact ⟨_, _, rfl, rfl⟩
  | plain _ ih =>
    obtain ⟨found, c', rfl, hstarts⟩ := ih
    exact ⟨found, c', rfl, Bool.or_eq_true_iff.2 (.inl hstarts)⟩
  | minus line _ _ => exact ⟨_, _, rfl, rfl⟩
  | operand _ ih =>
    obtain ⟨found, c', rfl, hstarts⟩ := ih
    exact ⟨found, c', rfl, Tier.starts_joined .. ▸ hstarts⟩
  | operation line _ _ _ ih _ =>
    obtain ⟨found, c', rfl, hstarts⟩ := ih
    exact ⟨found, _, rfl, hstarts⟩

/-- What a statement begins with. None begins like the end of a block, and this is how a parser
knows where a block ends. -/
theorem IsStatement.head {rule : ReadRule} {c : List Lexeme} {s : Statement}
    (h : IsStatement rule c s) : ∃ found c', c = found :: c' ∧ startsStatement found.token := by
  cases h with
  | assign name line line' hkeyword _ _ =>
    rcases hkeyword with rfl | ⟨line'', rfl⟩
    · exact ⟨_, _, rfl, rfl⟩
    · exact ⟨_, _, rfl, rfl⟩
  | _ => exact ⟨_, _, rfl, rfl⟩

/-- A block begins with what its first statement begins with. -/
theorem Sequence.head {rule rule' : ReadRule} {item : List Lexeme → Statement → Prop}
    {c : List Lexeme} {block : Block} (hitem : ∀ c s, item c s → IsStatement rule' c s)
    (h : Sequence rule item c block) :
    ∃ found c', c = found :: c' ∧ startsStatement found.token := by
  cases h with
  | last hs _ =>
    obtain ⟨found, c', rfl, hstarts⟩ := (hitem _ _ hs).head
    exact ⟨found, _, rfl, hstarts⟩
  | cons hs _ _ _ =>
    obtain ⟨found, c', rfl, hstarts⟩ := (hitem _ _ hs).head
    exact ⟨found, _, rfl, hstarts⟩

end Grammar

end TinyProc
