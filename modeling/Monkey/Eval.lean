import Monkey.Store

/-!
# Running programs

Expressions and statements are evaluated in a frame of the store. Errors are
values: every construct looks at the values of its parts from left to right, and
the first error is its own result. A `return` statement results in a wrapped
value, at which the blocks around it stop; a call and a whole program take one
wrapper off.

Evaluation goes by recursion on the program, calls apart: what a call does is a
parameter, and `apply` supplies it for calls nested up to a given depth. A run that
needs deeper calls has no answer.
-/

namespace Monkey

/-- A computation that may change the store, and has no answer if it makes calls that
are nested too deeply. -/
abbrev Eval (α : Type) : Type :=
  StateT Store Option α

namespace Eval

/-- No answer. -/
def unfinished {α : Type} : Eval α :=
  fun _ => none

/-- A number that no object was made under yet. -/
def freshId : Eval ObjectId :=
  fun s => some (s.nextObject, { s with nextObject := s.nextObject + 1 })

/-- A new integer object. -/
def newInt (n : Int64) : Eval Value :=
  return .int (← freshId) n

/-- A new error object. -/
def newError (fault : Fault) : Eval Value :=
  return .error (← freshId) fault

/-- A new wrapper around a value. -/
def newReturned (v : Value) : Eval Value :=
  return .returned (← freshId) v

/-- A new frame inside another one. -/
def enclose (outer : FrameId) : Eval FrameId :=
  fun s => some (s.newFrame (some outer))

/-- Bind a name in a frame. -/
def bindName (env : FrameId) (name : String) (v : Value) : Eval Unit :=
  fun s => some ((), s.set env name v)

/-- Bind names in a frame, from left to right. -/
def bindAll (env : FrameId) : List (String × Value) → Eval Unit
  | [] => pure ()
  | (name, v) :: bs => do
      bindName env name v
      bindAll env bs

/-- The value that a frame sees under a name. -/
def getName (env : FrameId) (name : String) : Eval Value :=
  fun s =>
    match s.get? env name with
    | some v => some (v, s)
    | none => newError (.unboundName name) s

/-- Go on with the value, unless it is an error: then it is the result. -/
def unlessError (x : Eval Value) (k : Value → Eval Value) : Eval Value := do
  let v ← x
  if v.isError then return v else k v

end Eval

open Eval

/-! ## Operators -/

/-- The value of an operator with one operand. -/
def evalUnary : UnaryOp → Value → Eval Value
  | .not, v => return .bool !v.isTruthy
  | .negate, .int _ n => newInt (-n)
  | .negate, v => newError (.notNegatable v.type)

/-- The value of an operator between two integers: arithmetic wraps around, division
drops the fraction. -/
def evalInts : BinaryOp → Int64 → Int64 → Eval Value
  | .add, m, n => newInt (m + n)
  | .subtract, m, n => newInt (m - n)
  | .multiply, m, n => newInt (m * n)
  | .divide, m, n => if n = 0 then newError .divisionByZero else newInt (m / n)
  | .less, m, n => return .bool (m < n)
  | .greater, m, n => return .bool (n < m)
  | .equal, m, n => return .bool (m = n)
  | .notEqual, m, n => return .bool (m ≠ n)

/-- The value of an operator between two values. Values that are not both integers can
only be compared, and are equal if they are the same object. -/
def evalBinary (op : BinaryOp) (left right : Value) : Eval Value :=
  match left, right with
  | .int _ m, .int _ n => evalInts op m n
  | left, right =>
      match op with
      | .equal => return .bool (left.same right)
      | .notEqual => return .bool !left.same right
      | op =>
          if left.type = right.type then newError (.unknownOperator op left.type)
          else newError (.typeMismatch op left.type right.type)

/-! ## Expressions and statements -/

section

variable (apply : Value → List Value → Eval Value) (env : FrameId)

mutual

/-- The value of an expression. -/
def evalExpr : Expr Unit → Eval Value
  | .ident id => getName env id.name
  | .int _ n => newInt n
  | .bool _ b => return .bool b
  | .unary _ op operand => (evalExpr operand).unlessError (evalUnary op)
  | .binary _ op left right =>
      (evalExpr left).unlessError fun l =>
      (evalExpr right).unlessError fun r =>
      evalBinary op l r
  | .cond _ condition consequence none =>
      (evalExpr condition).unlessError fun c =>
      if c.isTruthy then evalBlock consequence else return .null
  | .cond _ condition consequence (some alternative) =>
      (evalExpr condition).unlessError fun c =>
      if c.isTruthy then evalBlock consequence else evalBlock alternative
  | .function _ params body =>
      return .closure ⟨← freshId, params.map Ident.name, body, env⟩
  | .call _ callee args =>
      (evalExpr callee).unlessError fun f => do
      match ← evalArgs args with
      | .error e => return e
      | .ok vs => apply f vs

/-- The values of arguments from left to right, or the first error among them. -/
def evalArgs : List (Expr Unit) → Eval (Except Value (List Value))
  | [] => return .ok []
  | e :: es => do
      let v ← evalExpr e
      if v.isError then return .error v
      else return (← evalArgs es).map (v :: ·)

/-- What a statement results in. -/
def evalStmt : Stmt Unit → Eval Value
  | .let_ _ id value =>
      (evalExpr value).unlessError fun v => do
      bindName env id.name v
      return .null
  | .return_ _ value => (evalExpr value).unlessError newReturned
  | .expr _ value => evalExpr value
  | .block body => evalBlock body

/-- What statements in a row result in, if `last` is the result of the one before
them. -/
def evalStmts (last : Value) : List (Stmt Unit) → Eval Value
  | [] => return last
  | s :: ss => do
      let v ← evalStmt s
      if v.stops then return v else evalStmts v ss

/-- What a block results in; it has no frame of its own. -/
def evalBlock : Block Unit → Eval Value
  | .mk _ statements => evalStmts .null statements

end

end

/-! ## Calls and programs -/

/-- Apply a value to arguments. The body runs in a new frame, which lies inside the
frame that the function was made in. -/
def apply : Nat → Value → List Value → Eval Value
  | 0, _, _ => unfinished
  | depth + 1, .closure c, args =>
      if c.params.length = args.length then do
        let env ← enclose c.env
        bindAll env (c.params.zip args)
        return (← evalBlock (apply depth) env c.body).unwrap
      else newError (.wrongArgumentCount c.params.length args.length)
  | _ + 1, v, _ => newError (.notAFunction v.type)

/-- Run a program in a frame, with calls nested up to the given depth. -/
def evaluate (depth : Nat) (p : Program Unit) (env : FrameId) : Eval Value :=
  return (← evalStmts (apply depth) env .null p.statements).unwrap

end Monkey
