import TinyProc.Operator

/-!
# Syntax trees

Programs as trees. Every node but a number carries the line that a fault in it is reported on: an
operation the line of its operator, a call and a variable that of the name, an assignment that of
the name assigned to, the other statements and the procedures that of their keyword.

Blocks are lists of statements. Procedures are declared only at the top of a program, so that no
tree has a procedure inside a block.
-/

namespace TinyProc

/-- An expression. -/
inductive Expr
  /-- A number. -/
  | number (value : Word)
  /-- The value of a variable. -/
  | variable (name : String) (line : Nat)
  /-- An operation on two operands. A minus sign in front of a value is a multiplication by
  minus one. -/
  | binary (op : Operator) (left right : Expr) (line : Nat)
  /-- The value that a procedure returns. -/
  | call (name : String) (arguments : List Expr) (line : Nat)

/-- The variable that a value is read into. -/
structure ReadTarget where
  /-- The variable. -/
  name : String
  /-- The line of the keyword `read`. -/
  line : Nat
deriving DecidableEq

/-- A statement. -/
inductive Statement
  /-- Stores a value in a variable. -/
  | assign (name : String) (value : Expr) (line : Nat)
  /-- Shows a value, then reads one if a read is attached. -/
  | display (value : Expr) (attached : Option ReadTarget) (line : Nat)
  /-- Reads a value. -/
  | read (target : ReadTarget)
  /-- Runs one of two blocks; the second may be missing. -/
  | branch (condition : Expr) (thenBlock : List Statement) (elseBlock : Option (List Statement))
    (line : Nat)
  /-- Runs a block while a condition holds. -/
  | loop (condition : Expr) (body : List Statement) (line : Nat)

/-- Statements that run one after the other. -/
abbrev Block := List Statement

/-- The line of a statement. -/
def Statement.line : Statement → Nat
  | assign _ _ line => line
  | display _ _ line => line
  | read target => target.line
  | branch _ _ _ line => line
  | loop _ _ line => line

/-- A declared procedure. Its name is also the variable that holds the value it returns. -/
structure Procedure where
  /-- The name. -/
  name : String
  /-- The parameters, in order. -/
  params : List String
  /-- The local variables, in order. -/
  locals : List String
  /-- The block that a call runs. -/
  body : Block
  /-- The line of the keyword `procedure`. -/
  line : Nat

/-- The names that a call binds in its scope: the return slot, the parameters and the locals. -/
def Procedure.boundNames (p : Procedure) : List String :=
  p.name :: (p.params ++ p.locals)

/-- A program: its procedures, then the statements to run. -/
structure Program where
  /-- The procedures, in order of declaration. -/
  procedures : List Procedure
  /-- The statements. -/
  statements : Block

end TinyProc
