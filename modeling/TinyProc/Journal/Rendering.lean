import TinyProc.Syntax.Basic

/-!
# Rendering values for the journal

The journal writes tokens and syntax trees in a form of their own: a constructor, with its fields
named between braces, or with its one value in parentheses; lists in brackets; what may be missing
as `Some(…)` or `None`. Names are letters and digits, so that a name in quotes needs no escapes.
-/

namespace TinyProc

namespace Rendering

/-- A constructor with named fields. -/
def fields (constructor : String) (entries : List (String × String)) : String :=
  constructor ++ " \x7b " ++
    ", ".intercalate (entries.map fun (name, value) ↦ name ++ ": " ++ value) ++ " \x7d"

/-- A constructor around one value. -/
def wrapped (constructor value : String) : String :=
  constructor ++ "(" ++ value ++ ")"

/-- A list. -/
def list (items : List String) : String :=
  "[" ++ ", ".intercalate items ++ "]"

/-- A name. -/
def quoted (n : String) : String :=
  "\"" ++ n ++ "\""

/-- A value that may be missing. -/
def optional : Option String → String
  | none => "None"
  | some value => wrapped "Some" value

/-- A block. It is written like a program, and has no procedures. -/
def block (statements : List String) : String :=
  fields "Program" [("procedures", list []), ("statements", list statements)]

end Rendering

open Rendering

/-- The name of a keyword's kind. -/
def Keyword.kind : Keyword → String
  | displayKw => "Display"
  | readKw => "Read"
  | assignKw => "Assign"
  | ifKw => "If"
  | thenKw => "Then"
  | elseKw => "Else"
  | whileKw => "While"
  | doKw => "Do"
  | endKw => "End"
  | procedureKw => "Procedure"
  | varKw => "Var"

/-- The name of a symbol's kind. -/
def Symbol.kind : Symbol → String
  | colonEquals => "ColonEquals"
  | lessEqual => "LessEqual"
  | greaterEqual => "GreaterEqual"
  | notEqual => "NotEqual"
  | less => "Less"
  | greater => "Greater"
  | equals => "Equals"
  | plus => "Plus"
  | minus => "Minus"
  | star => "Star"
  | slash => "Slash"
  | percent => "Percent"
  | leftParen => "LParen"
  | rightParen => "RParen"
  | semicolon => "Semicolon"
  | colon => "Colon"
  | comma => "Comma"
  | period => "Period"

/-- The name of a kind of layout. -/
def Layout.kind : Layout → String
  | comment => "Comment"
  | newLine => "NewLine"
  | space => "Ignored"

/-- The name of a token's kind. -/
def Token.kind : Token → String
  | integer _ => "Integer"
  | identifier _ => "Identifier"
  | keyword k => k.kind
  | symbol s => s.kind
  | layout l => l.kind
  | eof => "Eof"

/-- A token in the journal: its kind, and the value of a number or a name. -/
def Token.rendered : Token → String
  | integer value => wrapped "Integer" value.text
  | identifier n => wrapped "Identifier" (quoted n)
  | token => token.kind

/-- The name of an operator. -/
def Operator.name : Operator → String
  | add => "Add"
  | sub => "Sub"
  | mul => "Mul"
  | div => "Div"
  | equal => "Equal"
  | notEqual => "NotEqual"
  | less => "Less"
  | greater => "Greater"
  | lessEqual => "LessEqual"
  | greaterEqual => "GreaterEqual"

mutual

/-- An expression in the journal. -/
def Expr.rendered : Expr → String
  | .number value => wrapped "Number" value.text
  | .variable n line => fields "Variable" [("name", quoted n), ("line", Decimal.ofNat line)]
  | .binary op left right line =>
    fields "BinaryOp"
      [("left", left.rendered), ("op", op.name), ("right", right.rendered),
        ("line", Decimal.ofNat line)]
  | .call n arguments line =>
    fields "ProcedureCall"
      [("name", quoted n), ("arguments", list (renderedExprs arguments)),
        ("line", Decimal.ofNat line)]

/-- Expressions in the journal, one by one. -/
def renderedExprs : List Expr → List String
  | [] => []
  | e :: es => e.rendered :: renderedExprs es

end

/-- A read in the journal. -/
def ReadTarget.rendered (target : ReadTarget) : String :=
  fields "Read" [("name", quoted target.name), ("line", Decimal.ofNat target.line)]

mutual

/-- A statement in the journal. -/
def Statement.rendered : Statement → String
  | .assign n value line =>
    fields "Assign"
      [("name", quoted n), ("value", value.rendered), ("line", Decimal.ofNat line)]
  | .display value attached line =>
    fields "Display"
      [("value", value.rendered), ("read", optional (attached.map ReadTarget.rendered)),
        ("line", Decimal.ofNat line)]
  | .read target => wrapped "Read" target.rendered
  | .branch condition thenBlock elseBlock line =>
    fields "If"
      [("condition", condition.rendered), ("then_branch", block (renderedBlock thenBlock)),
        ("else_branch", optional (renderedElse elseBlock)), ("line", Decimal.ofNat line)]
  | .loop condition body line =>
    fields "While"
      [("condition", condition.rendered), ("body", block (renderedBlock body)),
        ("line", Decimal.ofNat line)]

/-- The statements of a block in the journal, one by one. -/
def renderedBlock : List Statement → List String
  | [] => []
  | s :: rest => s.rendered :: renderedBlock rest

/-- A block that may be missing in the journal. -/
def renderedElse : Option (List Statement) → Option String
  | none => none
  | some statements => some (block (renderedBlock statements))

end

end TinyProc
