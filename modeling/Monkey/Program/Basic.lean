import Monkey.Token.Basic

/-!
# Programs

A program is a list of statements. Every node of the tree carries a tag of a type
`α` of one's own choosing: the parser tags a node with the token it is anchored
at, a tree that is only run needs no tags and has `α = Unit`.

Parentheses leave no node, and the order of the two operands of an operator is
the order in which they are written.
-/

namespace Monkey

/-- The operators with one operand, which stands behind them. -/
inductive UnaryOp where
  | not
  | negate
deriving DecidableEq, Repr

/-- The operators with an operand on each side. -/
inductive BinaryOp where
  | add
  | subtract
  | multiply
  | divide
  | less
  | greater
  | equal
  | notEqual
deriving DecidableEq, Repr

namespace UnaryOp

/-- The mark of the operator. -/
def symbol : UnaryOp → String
  | not => "!"
  | negate => "-"

/-- The operator that a kind of token stands for before an operand. -/
def ofKind? : Kind → Option UnaryOp
  | .bang => some not
  | .minus => some negate
  | _ => none

end UnaryOp

namespace BinaryOp

/-- The mark of the operator. -/
def symbol : BinaryOp → String
  | add => "+"
  | subtract => "-"
  | multiply => "*"
  | divide => "/"
  | less => "<"
  | greater => ">"
  | equal => "=="
  | notEqual => "!="

/-- The operator that a kind of token stands for between two operands. -/
def ofKind? : Kind → Option BinaryOp
  | .plus => some add
  | .minus => some subtract
  | .asterisk => some multiply
  | .slash => some divide
  | .lt => some less
  | .gt => some greater
  | .eq => some equal
  | .notEq => some notEqual
  | _ => none

end BinaryOp

/-- A name where a program mentions it. -/
structure Ident (α : Type) where
  tag : α
  name : String
deriving DecidableEq, Repr

mutual

/-- What stands for a value. -/
inductive Expr (α : Type) where
  | ident (id : Ident α)
  | int (tag : α) (value : Int64)
  | bool (tag : α) (value : Bool)
  | unary (tag : α) (op : UnaryOp) (operand : Expr α)
  | binary (tag : α) (op : BinaryOp) (left right : Expr α)
  | cond (tag : α) (condition : Expr α) (consequence : Block α)
      (alternative : Option (Block α))
  | function (tag : α) (params : List (Ident α)) (body : Block α)
  | call (tag : α) (callee : Expr α) (args : List (Expr α))

/-- What is done for its effect, or ends a body. -/
inductive Stmt (α : Type) where
  | let_ (tag : α) (id : Ident α) (value : Expr α)
  | return_ (tag : α) (value : Expr α)
  | expr (tag : α) (value : Expr α)
  | block (body : Block α)

/-- Statements in braces. -/
inductive Block (α : Type) where
  | mk (tag : α) (statements : List (Stmt α))

end

/-- A whole text as statements. -/
structure Program (α : Type) where
  statements : List (Stmt α)

variable {α β : Type}

namespace Block

/-- The tag of the opening brace. -/
def tag : Block α → α
  | mk tag _ => tag

/-- What stands between the braces. -/
def statements : Block α → List (Stmt α)
  | mk _ statements => statements

end Block

/-- The tag of the node itself, not of its parts. -/
def Expr.tag : Expr α → α
  | .ident id => id.tag
  | .int tag _ | .bool tag _ | .unary tag _ _ | .binary tag _ _ _ | .cond tag _ _ _
  | .function tag _ _ | .call tag _ _ => tag

/-- The tag of the node itself, not of its parts. -/
def Stmt.tag : Stmt α → α
  | .let_ tag _ _ | .return_ tag _ | .expr tag _ => tag
  | .block body => body.tag

/-- The tag of the first statement. -/
def Program.tag? (p : Program α) : Option α :=
  p.statements.head?.map Stmt.tag

/-! ## Changing the tags -/

/-- The same name with its tag replaced. -/
def Ident.map (f : α → β) (id : Ident α) : Ident β :=
  ⟨f id.tag, id.name⟩

mutual

/-- The same expression with every tag replaced. -/
def Expr.map (f : α → β) : Expr α → Expr β
  | .ident id => .ident (id.map f)
  | .int tag value => .int (f tag) value
  | .bool tag value => .bool (f tag) value
  | .unary tag op operand => .unary (f tag) op (operand.map f)
  | .binary tag op left right => .binary (f tag) op (left.map f) (right.map f)
  | .cond tag condition consequence none =>
      .cond (f tag) (condition.map f) (consequence.map f) none
  | .cond tag condition consequence (some alternative) =>
      .cond (f tag) (condition.map f) (consequence.map f) (some (alternative.map f))
  | .function tag params body => .function (f tag) (params.map (·.map f)) (body.map f)
  | .call tag callee args => .call (f tag) (callee.map f) (Expr.mapAll f args)

/-- `Expr.map` on each of several expressions. -/
def Expr.mapAll (f : α → β) : List (Expr α) → List (Expr β)
  | [] => []
  | e :: es => e.map f :: Expr.mapAll f es

/-- The same statement with every tag replaced. -/
def Stmt.map (f : α → β) : Stmt α → Stmt β
  | .let_ tag id value => .let_ (f tag) (id.map f) (value.map f)
  | .return_ tag value => .return_ (f tag) (value.map f)
  | .expr tag value => .expr (f tag) (value.map f)
  | .block body => .block (body.map f)

/-- `Stmt.map` on each of several statements. -/
def Stmt.mapAll (f : α → β) : List (Stmt α) → List (Stmt β)
  | [] => []
  | s :: ss => s.map f :: Stmt.mapAll f ss

/-- The same block with every tag replaced. -/
def Block.map (f : α → β) : Block α → Block β
  | .mk tag statements => .mk (f tag) (Stmt.mapAll f statements)

end

/-- The same program with every tag replaced. -/
def Program.map (f : α → β) (p : Program α) : Program β :=
  ⟨Stmt.mapAll f p.statements⟩

/-- The program without its tags: what it says, not where. -/
def Program.erase (p : Program α) : Program Unit :=
  p.map fun _ => ()

@[simp] theorem Expr.mapAll_eq_map (f : α → β) (es : List (Expr α)) :
    Expr.mapAll f es = es.map (Expr.map f) := by
  induction es with
  | nil => rfl
  | cons e es ih => rw [Expr.mapAll, ih, List.map_cons]

@[simp] theorem Stmt.mapAll_eq_map (f : α → β) (ss : List (Stmt α)) :
    Stmt.mapAll f ss = ss.map (Stmt.map f) := by
  induction ss with
  | nil => rfl
  | cons s ss ih => rw [Stmt.mapAll, ih, List.map_cons]

end Monkey
