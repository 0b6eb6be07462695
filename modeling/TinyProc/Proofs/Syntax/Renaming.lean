import TinyProc.Syntax.Basic

/-!
# Variables and their names

Which variables a tree mentions, which of them it reads into, and what becomes of a tree when its
variables are given other names. The names of procedures that are called are not variables: they are
neither listed nor changed.
-/

namespace TinyProc

/-! ### Variables -/

mutual

/-- The variables whose values an expression asks for. -/
def Expr.variables : Expr → List String
  | .number _ => []
  | .variable name _ => [name]
  | .binary _ left right _ => left.variables ++ right.variables
  | .call _ arguments _ => Expr.variablesAll arguments

/-- The variables of several expressions. -/
def Expr.variablesAll : List Expr → List String
  | [] => []
  | e :: rest => e.variables ++ Expr.variablesAll rest

end

mutual

/-- The variables of a statement: those asked for, those assigned to and those read into. -/
def Statement.variables : Statement → List String
  | .assign name value _ => name :: value.variables
  | .display value attached _ => value.variables ++ attached.toList.map (·.name)
  | .read target => [target.name]
  | .branch condition thenBlock elseBlock _ =>
    condition.variables ++
      (Statement.variablesAll thenBlock ++ Statement.variablesElse elseBlock)
  | .loop condition body _ => condition.variables ++ Statement.variablesAll body

/-- The variables of a block. -/
def Statement.variablesAll : List Statement → List String
  | [] => []
  | s :: rest => s.variables ++ Statement.variablesAll rest

/-- The variables of a block that may be missing. -/
def Statement.variablesElse : Option (List Statement) → List String
  | none => []
  | some block => Statement.variablesAll block

end

/-! ### Reads -/

mutual

/-- The reads in a statement. -/
def Statement.reads : Statement → List ReadTarget
  | .assign .. => []
  | .display _ attached _ => attached.toList
  | .read target => [target]
  | .branch _ thenBlock elseBlock _ =>
    Statement.readsAll thenBlock ++ Statement.readsElse elseBlock
  | .loop _ body _ => Statement.readsAll body

/-- The reads in a block. -/
def Statement.readsAll : List Statement → List ReadTarget
  | [] => []
  | s :: rest => s.reads ++ Statement.readsAll rest

/-- The reads in a block that may be missing. -/
def Statement.readsElse : Option (List Statement) → List ReadTarget
  | none => []
  | some block => Statement.readsAll block

end

/-! ### Other names -/

section Rename

variable (f : String → String)

mutual

/-- The expression with other names for its variables. -/
def Expr.rename : Expr → Expr
  | .number value => .number value
  | .variable name line => .variable (f name) line
  | .binary op left right line => .binary op left.rename right.rename line
  | .call name arguments line => .call name (Expr.renameAll arguments) line

/-- Expressions with other names for their variables. -/
def Expr.renameAll : List Expr → List Expr
  | [] => []
  | e :: rest => e.rename :: Expr.renameAll rest

end

/-- The read with another name for its variable. -/
def ReadTarget.rename (target : ReadTarget) : ReadTarget where
  name := f target.name
  line := target.line

mutual

/-- The statement with other names for its variables. -/
def Statement.rename : Statement → Statement
  | .assign name value line => .assign (f name) (value.rename f) line
  | .display value attached line =>
    .display (value.rename f) (attached.map (ReadTarget.rename f)) line
  | .read target => .read (target.rename f)
  | .branch condition thenBlock elseBlock line =>
    .branch (condition.rename f) (Statement.renameAll thenBlock) (Statement.renameElse elseBlock)
      line
  | .loop condition body line => .loop (condition.rename f) (Statement.renameAll body) line

/-- The block with other names for its variables. -/
def Statement.renameAll : List Statement → List Statement
  | [] => []
  | s :: rest => s.rename :: Statement.renameAll rest

/-- The block, if there is one, with other names for its variables. -/
def Statement.renameElse : Option (List Statement) → Option (List Statement)
  | none => none
  | some block => some (Statement.renameAll block)

end

/-- The procedure with other names for its parameters, its local variables and the variables in its
body. The procedure itself keeps its name, and so has to be called as before. -/
def Procedure.rename (p : Procedure) : Procedure where
  name := p.name
  params := p.params.map f
  locals := p.locals.map f
  body := Statement.renameAll f p.body
  line := p.line

end Rename

/-- A call has as many arguments as before. -/
theorem Expr.length_renameAll (f : String → String) (es : List Expr) :
    (Expr.renameAll f es).length = es.length := by
  induction es with
  | nil => rfl
  | cons e es ih => exact congrArg Nat.succ ih

mutual

/-- An expression that keeps its names stays what it is. -/
theorem Expr.rename_id : (e : Expr) → e.rename id = e
  | .number _ => rfl
  | .variable _ _ => rfl
  | .binary _ left right _ => by rw [Expr.rename, left.rename_id, right.rename_id]
  | .call _ arguments _ => by rw [Expr.rename, Expr.renameAll_id arguments]

theorem Expr.renameAll_id : (es : List Expr) → Expr.renameAll id es = es
  | [] => rfl
  | e :: rest => by rw [Expr.renameAll, e.rename_id, Expr.renameAll_id rest]

end

/-- A read that keeps its name stays what it is. -/
theorem ReadTarget.rename_id : ReadTarget.rename id = id :=
  rfl

mutual

/-- A statement that keeps its names stays what it is. -/
theorem Statement.rename_id : (s : Statement) → s.rename id = s
  | .assign _ value _ => by rw [Statement.rename, value.rename_id, id]
  | .display value attached _ => by
    rw [Statement.rename, value.rename_id, ReadTarget.rename_id, Option.map_id, id]
  | .read _ => rfl
  | .branch condition thenBlock elseBlock _ => by
    rw [Statement.rename, condition.rename_id, Statement.renameAll_id thenBlock,
      Statement.renameElse_id elseBlock]
  | .loop condition body _ => by
    rw [Statement.rename, condition.rename_id, Statement.renameAll_id body]

theorem Statement.renameAll_id : (block : List Statement) → Statement.renameAll id block = block
  | [] => rfl
  | s :: rest => by rw [Statement.renameAll, s.rename_id, Statement.renameAll_id rest]

theorem Statement.renameElse_id :
    (block? : Option (List Statement)) → Statement.renameElse id block? = block?
  | none => rfl
  | some block => by rw [Statement.renameElse, Statement.renameAll_id block]

end

/-! ### Variables under other names -/

mutual

/-- The variables of a renamed expression are the old ones under their new names, in the same order.
-/
theorem Expr.variables_rename (f : String → String) :
    (e : Expr) → (e.rename f).variables = e.variables.map f
  | .number _ => rfl
  | .variable _ _ => rfl
  | .binary _ left right _ => by
    rw [Expr.rename, Expr.variables, Expr.variables, List.map_append, left.variables_rename,
      right.variables_rename]
  | .call _ arguments _ => Expr.variablesAll_renameAll f arguments

theorem Expr.variablesAll_renameAll (f : String → String) :
    (es : List Expr) → Expr.variablesAll (Expr.renameAll f es) = (Expr.variablesAll es).map f
  | [] => rfl
  | e :: rest => by
    rw [Expr.renameAll, Expr.variablesAll, Expr.variablesAll, List.map_append,
      e.variables_rename, Expr.variablesAll_renameAll f rest]

end

mutual

/-- The variables of a renamed statement are the old ones under their new names. That includes those
which it reads into. -/
theorem Statement.variables_rename (f : String → String) :
    (s : Statement) → (s.rename f).variables = s.variables.map f
  | .assign _ value _ => by
    rw [Statement.rename, Statement.variables, Statement.variables, List.map_cons,
      value.variables_rename]
  | .display value attached _ => by
    rw [Statement.rename, Statement.variables, Statement.variables, List.map_append,
      value.variables_rename]
    cases attached <;> rfl
  | .read _ => rfl
  | .branch condition thenBlock elseBlock _ => by
    rw [Statement.rename, Statement.variables, Statement.variables, List.map_append,
      List.map_append, condition.variables_rename, Statement.variablesAll_renameAll f thenBlock,
      Statement.variablesElse_renameElse f elseBlock]
  | .loop condition body _ => by
    rw [Statement.rename, Statement.variables, Statement.variables, List.map_append,
      condition.variables_rename, Statement.variablesAll_renameAll f body]

theorem Statement.variablesAll_renameAll (f : String → String) :
    (block : List Statement) →
      Statement.variablesAll (Statement.renameAll f block) = (Statement.variablesAll block).map f
  | [] => rfl
  | s :: rest => by
    rw [Statement.renameAll, Statement.variablesAll, Statement.variablesAll, List.map_append,
      s.variables_rename, Statement.variablesAll_renameAll f rest]

/-- The second block is there after the renaming if it has been there before, and so are its
variables. -/
theorem Statement.variablesElse_renameElse (f : String → String) :
    (block? : Option (List Statement)) →
      Statement.variablesElse (Statement.renameElse f block?) =
        (Statement.variablesElse block?).map f
  | none => rfl
  | some block => Statement.variablesAll_renameAll f block

end

/-! ### Other names twice -/

section Twice

variable {f g h : String → String}

mutual

/-- Two renamings after one another are a third, if they are on the variables of the expression. -/
theorem Expr.rename_rename :
    (e : Expr) → (∀ name ∈ e.variables, g (f name) = h name) → (e.rename f).rename g = e.rename h
  | .number _, _ => rfl
  | .variable name line, hnames =>
    congrArg (Expr.variable · line) (hnames name (List.mem_singleton_self _))
  | .binary _ left right _, hnames => by
    rw [Expr.variables, List.forall_mem_append] at hnames
    rw [Expr.rename, Expr.rename, Expr.rename, left.rename_rename hnames.1,
      right.rename_rename hnames.2]
  | .call _ arguments _, hnames => by
    rw [Expr.rename, Expr.rename, Expr.rename, Expr.renameAll_renameAll arguments hnames]

theorem Expr.renameAll_renameAll :
    (es : List Expr) → (∀ name ∈ Expr.variablesAll es, g (f name) = h name) →
      Expr.renameAll g (Expr.renameAll f es) = Expr.renameAll h es
  | [], _ => rfl
  | e :: rest, hnames => by
    rw [Expr.variablesAll, List.forall_mem_append] at hnames
    rw [Expr.renameAll, Expr.renameAll, Expr.renameAll, e.rename_rename hnames.1,
      Expr.renameAll_renameAll rest hnames.2]

end

/-- For a read, the two renamings need to agree with the third on one name only. -/
theorem ReadTarget.rename_rename {target : ReadTarget} (hname : g (f target.name) = h target.name) :
    (target.rename f).rename g = target.rename h :=
  congrArg (ReadTarget.mk · target.line) hname

mutual

/-- Two renamings of a statement are a third, if they are on its variables. Elsewhere the three may
do as they like, and so a renaming that merges names nobody uses can still be undone. -/
theorem Statement.rename_rename :
    (s : Statement) → (∀ name ∈ s.variables, g (f name) = h name) →
      (s.rename f).rename g = s.rename h
  | .assign name value line, hnames => by
    rw [Statement.variables, List.forall_mem_cons] at hnames
    rw [Statement.rename, Statement.rename, Statement.rename, hnames.1,
      value.rename_rename hnames.2]
  | .display value attached line, hnames => by
    rw [Statement.variables, List.forall_mem_append] at hnames
    rw [Statement.rename, Statement.rename, Statement.rename, value.rename_rename hnames.1]
    cases attached with
    | none => rfl
    | some target =>
      rw [Option.map_some, Option.map_some, Option.map_some,
        ReadTarget.rename_rename (hnames.2 target.name (List.mem_singleton_self _))]
  | .read target, hnames => by
    rw [Statement.rename, Statement.rename, Statement.rename,
      ReadTarget.rename_rename (hnames target.name (List.mem_singleton_self _))]
  | .branch condition thenBlock elseBlock line, hnames => by
    rw [Statement.variables, List.forall_mem_append, List.forall_mem_append] at hnames
    rw [Statement.rename, Statement.rename, Statement.rename, condition.rename_rename hnames.1,
      Statement.renameAll_renameAll thenBlock hnames.2.1,
      Statement.renameElse_renameElse elseBlock hnames.2.2]
  | .loop condition body line, hnames => by
    rw [Statement.variables, List.forall_mem_append] at hnames
    rw [Statement.rename, Statement.rename, Statement.rename, condition.rename_rename hnames.1,
      Statement.renameAll_renameAll body hnames.2]

theorem Statement.renameAll_renameAll :
    (block : List Statement) → (∀ name ∈ Statement.variablesAll block, g (f name) = h name) →
      Statement.renameAll g (Statement.renameAll f block) = Statement.renameAll h block
  | [], _ => rfl
  | s :: rest, hnames => by
    rw [Statement.variablesAll, List.forall_mem_append] at hnames
    rw [Statement.renameAll, Statement.renameAll, Statement.renameAll, s.rename_rename hnames.1,
      Statement.renameAll_renameAll rest hnames.2]

theorem Statement.renameElse_renameElse :
    (block? : Option (List Statement)) →
      (∀ name ∈ Statement.variablesElse block?, g (f name) = h name) →
        Statement.renameElse g (Statement.renameElse f block?) = Statement.renameElse h block?
  | none, _ => rfl
  | some block, hnames => congrArg some (Statement.renameAll_renameAll block hnames)

end

/-- A procedure under other names twice. Its own name plays no part. -/
theorem Procedure.rename_rename (p : Procedure)
    (hbound : ∀ name ∈ p.params ++ p.locals, g (f name) = h name)
    (hbody : ∀ name ∈ Statement.variablesAll p.body, g (f name) = h name) :
    (p.rename f).rename g = p.rename h := by
  rw [List.forall_mem_append] at hbound
  have hparams : p.params.map (g ∘ f) = p.params.map h := List.map_congr_left hbound.1
  have hlocals : p.locals.map (g ∘ f) = p.locals.map h := List.map_congr_left hbound.2
  simp only [Procedure.rename, List.map_map, hparams, hlocals,
    Statement.renameAll_renameAll p.body hbody]

end Twice

/-- A procedure that keeps its names stays what it is. -/
theorem Procedure.rename_id (p : Procedure) : p.rename id = p := by
  rw [Procedure.rename, Statement.renameAll_id, List.map_id, List.map_id]

end TinyProc
