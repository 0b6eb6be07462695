import Mathlib.Data.List.Forall2
import TinyProc.Syntax.Basic

/-!
# Trees with lines moved

Two trees that differ at most in the lines that are noted in them. Which line may stand in the place
of which is said by a relation `R`. With equality for `R` it is the same tree twice, and every
reflexive relation relates a tree to itself.
-/

namespace TinyProc

variable {R : Nat → Nat → Prop}

/-- The same expression, with its lines moved. -/
inductive Expr.Moved (R : Nat → Nat → Prop) : Expr → Expr → Prop
  | number (value : Word) : Moved R (.number value) (.number value)
  | variable (name : String) {line line' : Nat} :
    R line line' → Moved R (.variable name line) (.variable name line')
  | binary (op : Operator) {left left' right right' : Expr} {line line' : Nat} :
    Moved R left left' → Moved R right right' → R line line' →
      Moved R (.binary op left right line) (.binary op left' right' line')
  | call (name : String) {arguments arguments' : List Expr} {line line' : Nat} :
    List.Forall₂ (Moved R) arguments arguments' → R line line' →
      Moved R (.call name arguments line) (.call name arguments' line')

/-- The same variable to read into, with its line moved. -/
inductive ReadTarget.Moved (R : Nat → Nat → Prop) : ReadTarget → ReadTarget → Prop
  | intro (name : String) {line line' : Nat} : R line line' → Moved R ⟨name, line⟩ ⟨name, line'⟩

/-- The same statement, with its lines moved. -/
inductive Statement.Moved (R : Nat → Nat → Prop) : Statement → Statement → Prop
  | assign (name : String) {value value' : Expr} {line line' : Nat} :
    value.Moved R value' → R line line' →
      Moved R (.assign name value line) (.assign name value' line')
  | display {value value' : Expr} {attached attached' : Option ReadTarget} {line line' : Nat} :
    value.Moved R value' → Option.Rel (ReadTarget.Moved R) attached attached' → R line line' →
      Moved R (.display value attached line) (.display value' attached' line')
  | read {target target' : ReadTarget} :
    target.Moved R target' → Moved R (.read target) (.read target')
  | branch {condition condition' : Expr} {thenBlock thenBlock' : List Statement}
    {elseBlock elseBlock' : Option (List Statement)} {line line' : Nat} :
    condition.Moved R condition' → List.Forall₂ (Moved R) thenBlock thenBlock' →
      Option.Rel (List.Forall₂ (Moved R)) elseBlock elseBlock' → R line line' →
        Moved R (.branch condition thenBlock elseBlock line)
          (.branch condition' thenBlock' elseBlock' line')
  | loop {condition condition' : Expr} {body body' : List Statement} {line line' : Nat} :
    condition.Moved R condition' → List.Forall₂ (Moved R) body body' → R line line' →
      Moved R (.loop condition body line) (.loop condition' body' line')

/-- The same block, with its lines moved. -/
abbrev Block.Moved (R : Nat → Nat → Prop) : Block → Block → Prop :=
  List.Forall₂ (Statement.Moved R)

/-- The same procedure, with its lines moved. -/
inductive Procedure.Moved (R : Nat → Nat → Prop) : Procedure → Procedure → Prop
  | intro (name : String) (params locals : List String) {body body' : Block} {line line' : Nat} :
    Block.Moved R body body' → R line line' →
      Moved R ⟨name, params, locals, body, line⟩ ⟨name, params, locals, body', line'⟩

/-- The same program, with its lines moved. -/
structure Program.Moved (R : Nat → Nat → Prop) (p p' : Program) : Prop where
  /-- The same procedures. -/
  procedures : List.Forall₂ (Procedure.Moved R) p.procedures p'.procedures
  /-- The same statements. -/
  statements : Block.Moved R p.statements p'.statements

/-- The name of a procedure does not depend on lines. -/
theorem Procedure.Moved.name_eq {p p' : Procedure} (hp : p.Moved R p') : p'.name = p.name := by
  obtain ⟨name, params, locals, hbody, hline⟩ := hp
  rfl

/-- The line of a procedure is moved as all others are. -/
theorem Procedure.Moved.line {p p' : Procedure} (hp : p.Moved R p') : R p.line p'.line := by
  obtain ⟨name, params, locals, hbody, hline⟩ := hp
  exact hline

/-- With equality, the variable to read into is the same. -/
theorem ReadTarget.Moved.eq {target target' : ReadTarget} (h : target.Moved Eq target') :
    target = target' := by
  obtain ⟨name, hline⟩ := h
  rw [hline]

/-! ### Trees that stay -/

mutual

/-- An expression stays where its lines may stay. -/
theorem Expr.Moved.refl [Std.Refl R] : (e : Expr) → e.Moved R e
  | .number value => .number value
  | .variable name line => .variable name (Std.Refl.refl line)
  | .binary op left right line =>
    .binary op (Expr.Moved.refl left) (Expr.Moved.refl right) (Std.Refl.refl line)
  | .call name arguments line =>
    .call name (Expr.Moved.refl_all arguments) (Std.Refl.refl line)

/-- So do several expressions. -/
theorem Expr.Moved.refl_all [Std.Refl R] :
    (es : List Expr) → List.Forall₂ (Expr.Moved R) es es
  | [] => .nil
  | e :: rest => .cons (Expr.Moved.refl e) (Expr.Moved.refl_all rest)

end

/-- A variable to read into stays. -/
theorem ReadTarget.Moved.refl [Std.Refl R] (target : ReadTarget) : target.Moved R target :=
  .intro target.name (Std.Refl.refl target.line)

/-- A read that may be missing stays. -/
theorem ReadTarget.Moved.refl_attached [Std.Refl R] : (attached : Option ReadTarget) →
    Option.Rel (ReadTarget.Moved R) attached attached
  | none => .none
  | some target => .some (ReadTarget.Moved.refl target)

mutual

/-- A statement stays where its lines may stay. -/
theorem Statement.Moved.refl [Std.Refl R] : (t : Statement) → t.Moved R t
  | .assign name value line => .assign name (Expr.Moved.refl value) (Std.Refl.refl line)
  | .display value attached line =>
    .display (Expr.Moved.refl value) (ReadTarget.Moved.refl_attached attached)
      (Std.Refl.refl line)
  | .read target => .read (ReadTarget.Moved.refl target)
  | .branch condition thenBlock elseBlock line =>
    .branch (Expr.Moved.refl condition) (Block.Moved.refl thenBlock)
      (Block.Moved.refl_else elseBlock) (Std.Refl.refl line)
  | .loop condition body line =>
    .loop (Expr.Moved.refl condition) (Block.Moved.refl body) (Std.Refl.refl line)

/-- So does a block. -/
theorem Block.Moved.refl [Std.Refl R] : (block : List Statement) → Block.Moved R block block
  | [] => .nil
  | t :: rest => .cons (Statement.Moved.refl t) (Block.Moved.refl rest)

/-- So does a block that may be missing. -/
theorem Block.Moved.refl_else [Std.Refl R] : (block? : Option (List Statement)) →
    Option.Rel (Block.Moved R) block? block?
  | none => .none
  | some block => .some (Block.Moved.refl block)

end

/-- A procedure stays where its lines may stay. -/
theorem Procedure.Moved.refl [Std.Refl R] (p : Procedure) : p.Moved R p :=
  .intro p.name p.params p.locals (Block.Moved.refl p.body) (Std.Refl.refl p.line)

end TinyProc
