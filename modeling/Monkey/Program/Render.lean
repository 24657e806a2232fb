import Monkey.Program.Basic

/-!
# Programs as text

The text of a program puts every operator with its operands in parentheses, one
space between statements, and a semicolon behind an expression statement that is
followed by another statement: without it `a; (b)` would read as a call.

Tags do not show in the text.
-/

namespace Monkey

variable {α : Type}

/-- What stands behind a statement that another one follows: an expression statement
is ended by a semicolon. -/
def Stmt.separator : Stmt α → String
  | .expr _ _ => "; "
  | _ => " "

mutual

/-- The text of an expression. -/
def Expr.render : Expr α → String
  | .ident id => id.name
  | .int _ value => toString value.toInt
  | .bool _ value => if value then "true" else "false"
  | .unary _ op operand => "(" ++ op.symbol ++ operand.render ++ ")"
  | .binary _ op left right =>
      "(" ++ left.render ++ " " ++ op.symbol ++ " " ++ right.render ++ ")"
  | .cond _ condition consequence none =>
      "if (" ++ condition.render ++ ") " ++ consequence.render
  | .cond _ condition consequence (some alternative) =>
      "if (" ++ condition.render ++ ") " ++ consequence.render ++ " else " ++
        alternative.render
  | .function _ params body =>
      "fn(" ++ ", ".intercalate (params.map Ident.name) ++ ") " ++ body.render
  | .call _ callee args =>
      callee.render ++ "(" ++ ", ".intercalate (Expr.renderAll args) ++ ")"

/-- The texts of several expressions. -/
def Expr.renderAll : List (Expr α) → List String
  | [] => []
  | e :: es => e.render :: Expr.renderAll es

/-- The text of a statement. -/
def Stmt.render : Stmt α → String
  | .let_ _ id value => "let " ++ id.name ++ " = " ++ value.render ++ ";"
  | .return_ _ value => "return " ++ value.render ++ ";"
  | .expr _ value => value.render
  | .block body => body.render

/-- The text of statements in a row. -/
def Stmt.renderAll : List (Stmt α) → String
  | [] => ""
  | [s] => s.render
  | s :: ss => s.render ++ s.separator ++ Stmt.renderAll ss

/-- The text of a block. -/
def Block.render : Block α → String
  | .mk _ [] => "\x7b \x7d"
  | .mk _ statements => "\x7b " ++ Stmt.renderAll statements ++ " \x7d"

end

/-- The text of a program. -/
def Program.render (p : Program α) : String :=
  Stmt.renderAll p.statements

@[simp] theorem Expr.renderAll_eq_map (es : List (Expr α)) :
    Expr.renderAll es = es.map Expr.render := by
  induction es with
  | nil => rfl
  | cons e es ih => rw [Expr.renderAll, ih, List.map_cons]

end Monkey
