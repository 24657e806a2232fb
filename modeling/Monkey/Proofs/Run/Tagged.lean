import Monkey.Eval

/-!
# Running programs with their tags

Programs are run without tags. Here they are run with them: a function keeps the tags of its
parameters and of its body, and so do the frames that it is bound in. The rules are the same,
and none of them looks at a tag; that nothing a user can see depends on tags is a statement
about this evaluation.
-/

namespace Monkey.Tagged

variable {α : Type}

/-- A function with the frame that its free names are looked up in, tags included. -/
structure Closure (α : Type) where
  id : ObjectId
  params : List (Ident α)
  body : Block α
  env : FrameId

/-- What an expression or a statement results in, tags included. -/
inductive Value (α : Type) where
  | int (id : ObjectId) (value : Int64)
  | bool (value : Bool)
  | null
  | returned (id : ObjectId) (result : Value α)
  | error (id : ObjectId) (fault : Fault)
  | closure (closure : Closure α)

/-- The function as it is shown to a user. -/
def Closure.inspect (c : Closure α) : String :=
  "fn(" ++ ", ".intercalate (c.params.map Ident.name) ++ ") \x7b\n" ++
    "\n".intercalate (c.body.statements.map Stmt.render) ++ "\n\x7d"

namespace Value

/-- The type of the value. -/
def type : Value α → ValueType
  | int _ _ => .integer
  | bool _ => .boolean
  | null => .null
  | returned _ _ => .returnValue
  | error _ _ => .error
  | closure _ => .function

/-- The value is an error, not one that is wrapped. -/
def isError : Value α → Bool
  | error _ _ => true
  | _ => false

/-- The value ends the block it results in. -/
def stops : Value α → Bool
  | returned _ _ | error _ _ => true
  | _ => false

/-- Everything but `false` and `null` counts as true. -/
def isTruthy : Value α → Bool
  | bool value => value
  | null => false
  | _ => true

/-- The value without its outermost wrapper. -/
def unwrap : Value α → Value α
  | returned _ result => result
  | v => v

/-- The two are one object. -/
def same : Value α → Value α → Bool
  | bool a, bool b => a = b
  | null, null => true
  | int i _, int j _ => i = j
  | returned i _, returned j _ => i = j
  | error i _, error j _ => i = j
  | closure c, closure d => c.id = d.id
  | _, _ => false

/-- The value as it is shown to a user. -/
def inspect : Value α → String
  | int _ value => toString value.toInt
  | bool value => toString value
  | null => "null"
  | returned _ result => result.inspect
  | error _ fault => "ERROR: " ++ fault.message
  | closure c => c.inspect

/-- The value as it is built. -/
def debug : Value α → String
  | int _ value => "Integer(" ++ toString value.toInt ++ ")"
  | bool value => "Boolean(" ++ toString value ++ ")"
  | null => "Null"
  | returned _ result => "ReturnValue(" ++ result.debug ++ ")"
  | error _ fault => "Error(" ++ Text.quote fault.message ++ ")"
  | closure c => "Function(Function(" ++ ", ".intercalate (c.params.map Ident.name) ++ "))"

end Value

/-! ## Scopes -/

/-- The bindings of one scope, and the scope around it. -/
structure Frame (α : Type) where
  outer : Option FrameId
  bindings : List (String × Value α)

namespace Frame

/-- The value bound in this very frame. -/
def get? (f : Frame α) (name : String) : Option (Value α) :=
  f.bindings.lookup name

/-- Bind the name here, in place of an earlier value. -/
def set (f : Frame α) (name : String) (v : Value α) : Frame α :=
  { f with bindings := (name, v) :: f.bindings.filter fun b => b.1 ≠ name }

/-- The names bound in this very frame. -/
def names (f : Frame α) : List String :=
  f.bindings.map Prod.fst

end Frame

/-- All frames ever made, oldest first, and the number of the next object. -/
structure Store (α : Type) where
  frames : Array (Frame α)
  nextObject : ObjectId

namespace Store

/-- Bind the name in the given frame. -/
def set (s : Store α) (i : FrameId) (name : String) (v : Value α) : Store α :=
  { s with frames := s.frames.modify i (·.set name v) }

/-- The frame around the given one, if it is older. -/
def outer? (s : Store α) (i : FrameId) : Option { o : FrameId // o < i } :=
  match s.frames[i]?.bind Frame.outer with
  | some o => if h : o < i then some ⟨o, h⟩ else none
  | none => none

/-- The value that the frame sees under the name: its own, or what the outer frame sees. -/
def get? (s : Store α) (i : FrameId) (name : String) : Option (Value α) :=
  match s.frames[i]?.bind (·.get? name) with
  | some v => some v
  | none =>
      match s.outer? i with
      | some ⟨o, _⟩ => s.get? o name
      | none => none
termination_by i

/-- The names that the frame sees, its own first, shadowed ones repeated. -/
def visible (s : Store α) (i : FrameId) : List String :=
  (s.frames[i]?.elim [] Frame.names) ++
    match s.outer? i with
    | some ⟨o, _⟩ => s.visible o
    | none => []
termination_by i

/-- The names that the frame sees, each once, in the order of their characters. -/
def names (s : Store α) (i : FrameId) : List String :=
  (s.visible i).eraseDups.mergeSort fun a b => a ≤ b

end Store

/-! ## Evaluation -/

/-- A computation on stores with tags. -/
abbrev Eval (α β : Type) : Type :=
  StateT (Store α) Option β

namespace Eval

/-- A number that no object was made under yet. -/
def freshId : Eval α ObjectId :=
  fun s => some (s.nextObject, { s with nextObject := s.nextObject + 1 })

/-- A new integer object. -/
def newInt (n : Int64) : Eval α (Value α) :=
  return .int (← freshId) n

/-- A new error object. -/
def newError (fault : Fault) : Eval α (Value α) :=
  return .error (← freshId) fault

/-- A new wrapper around a value. -/
def newReturned (v : Value α) : Eval α (Value α) :=
  return .returned (← freshId) v

/-- A new frame inside another one. -/
def enclose (outer : FrameId) : Eval α FrameId :=
  fun s => some (s.frames.size, { s with frames := s.frames.push ⟨some outer, []⟩ })

/-- Bind a name in a frame. -/
def bindName (env : FrameId) (name : String) (v : Value α) : Eval α Unit :=
  fun s => some ((), s.set env name v)

/-- Bind parameters in a frame, from left to right. -/
def bindAll (env : FrameId) : List (Ident α × Value α) → Eval α Unit
  | [] => pure ()
  | (id, v) :: bs => do
      bindName env id.name v
      bindAll env bs

/-- The value that a frame sees under a name. -/
def getName (env : FrameId) (name : String) : Eval α (Value α) :=
  fun s =>
    match s.get? env name with
    | some v => some (v, s)
    | none => newError (.unboundName name) s

/-- Go on with the value, unless it is an error: then it is the result. -/
def unlessError (x : Eval α (Value α)) (k : Value α → Eval α (Value α)) : Eval α (Value α) := do
  let v ← x
  if v.isError then return v else k v

end Eval

open Tagged.Eval

/-- The value of an operator with one operand. -/
def evalUnary : UnaryOp → Value α → Eval α (Value α)
  | .not, v => return .bool !v.isTruthy
  | .negate, .int _ n => newInt (-n)
  | .negate, v => newError (.notNegatable v.type)

/-- The value of an operator between two integers. -/
def evalInts : BinaryOp → Int64 → Int64 → Eval α (Value α)
  | .add, m, n => newInt (m + n)
  | .subtract, m, n => newInt (m - n)
  | .multiply, m, n => newInt (m * n)
  | .divide, m, n => if n = 0 then newError .divisionByZero else newInt (m / n)
  | .less, m, n => return .bool (m < n)
  | .greater, m, n => return .bool (n < m)
  | .equal, m, n => return .bool (m = n)
  | .notEqual, m, n => return .bool (m ≠ n)

/-- The value of an operator between two values. -/
def evalBinary (op : BinaryOp) (left right : Value α) : Eval α (Value α) :=
  match left, right with
  | .int _ m, .int _ n => evalInts op m n
  | left, right =>
      match op with
      | .equal => return .bool (left.same right)
      | .notEqual => return .bool !left.same right
      | op =>
          if left.type = right.type then newError (.unknownOperator op left.type)
          else newError (.typeMismatch op left.type right.type)

section

variable (apply : Value α → List (Value α) → Eval α (Value α)) (env : FrameId)

mutual

/-- The value of an expression. -/
def evalExpr : Expr α → Eval α (Value α)
  | .ident id => getName env id.name
  | .int _ n => newInt n
  | .bool _ b => return .bool b
  | .unary _ op operand => (evalExpr operand).unlessError (evalUnary op)
  | .binary _ op left right =>
      (evalExpr left).unlessError fun l =>
      (evalExpr right).unlessError fun r =>
      evalBinary op l r
  | .cond _ condition consequence none =>
      (evalExpr condition).unlessError fun c =>
      if c.isTruthy then evalBlock consequence else return .null
  | .cond _ condition consequence (some alternative) =>
      (evalExpr condition).unlessError fun c =>
      if c.isTruthy then evalBlock consequence else evalBlock alternative
  | .function _ params body =>
      return .closure ⟨← freshId, params, body, env⟩
  | .call _ callee args =>
      (evalExpr callee).unlessError fun f => do
      match ← evalArgs args with
      | .error e => return e
      | .ok vs => apply f vs

/-- The values of arguments from left to right, or the first error among them. -/
def evalArgs : List (Expr α) → Eval α (Except (Value α) (List (Value α)))
  | [] => return .ok []
  | e :: es => do
      let v ← evalExpr e
      if v.isError then return .error v
      else return (← evalArgs es).map (v :: ·)

/-- What a statement results in. -/
def evalStmt : Stmt α → Eval α (Value α)
  | .let_ _ id value =>
      (evalExpr value).unlessError fun v => do
      bindName env id.name v
      return .null
  | .return_ _ value => (evalExpr value).unlessError newReturned
  | .expr _ value => evalExpr value
  | .block body => evalBlock body

/-- What statements in a row result in, if `last` is the result of the one before them. -/
def evalStmts (last : Value α) : List (Stmt α) → Eval α (Value α)
  | [] => return last
  | s :: ss => do
      let v ← evalStmt s
      if v.stops then return v else evalStmts v ss

/-- What a block results in; it has no frame of its own. -/
def evalBlock : Block α → Eval α (Value α)
  | .mk _ statements => evalStmts .null statements

end

end

/-- Apply a value to arguments: the body runs in a new frame, inside the frame that the
function was made in. -/
def apply : Nat → Value α → List (Value α) → Eval α (Value α)
  | 0, _, _ => fun _ => none
  | depth + 1, .closure c, args =>
      if c.params.length = args.length then do
        let env ← enclose c.env
        bindAll env (c.params.zip args)
        return (← evalBlock (apply depth) env c.body).unwrap
      else newError (.wrongArgumentCount c.params.length args.length)
  | _ + 1, v, _ => newError (.notAFunction v.type)

/-- Run a program in a frame, with calls nested up to the given depth. -/
def evaluate (depth : Nat) (p : Program α) (env : FrameId) : Eval α (Value α) :=
  return (← evalStmts (apply depth) env .null p.statements).unwrap

end Monkey.Tagged
