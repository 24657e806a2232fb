import Monkey.Eval

/-!
# Running programs on objects in memory

Values have no place of their own: `true`, `false` and `null` are just themselves, and other
values carry a number. Here programs are run on objects that lie in memory, and all that is
handed around are their addresses. There are three objects before anything is run. A truth
value is answered with the address of one of them, and so is nothing; whatever else is
answered is put in a new place. Values that are not both integers are equal if they have the
same address.

The rules are those of the evaluation of values, and what is compared by address here is
compared as values there: that is `Run.Sharing`.
-/

namespace Monkey.Memory

/-- The place of an object in memory. -/
abbrev Address := Nat

/-- An object as it lies in memory: it refers to another one by its address. -/
inductive Object where
  | int (value : Int64)
  | bool (value : Bool)
  | null
  | returned (result : Address)
  | error (fault : Fault)
  | function (params : List String) (body : Block Unit) (env : FrameId)

namespace Object

/-- The type of the object. -/
def type : Object → ValueType
  | int _ => .integer
  | bool _ => .boolean
  | null => .null
  | returned _ => .returnValue
  | error _ => .error
  | function _ _ _ => .function

/-- The object is an error, not one that is wrapped. -/
def isError : Object → Bool
  | error _ => true
  | _ => false

/-- The object ends the block that results in it. -/
def stops : Object → Bool
  | returned _ | error _ => true
  | _ => false

/-- Everything but `false` and `null` counts as true. -/
def isTruthy : Object → Bool
  | bool value => value
  | null => false
  | _ => true

end Object

/-- The bindings of one scope, and the scope around it. -/
structure Frame where
  outer : Option FrameId
  bindings : List (String × Address)

namespace Frame

/-- The address that is bound in this very frame. -/
def get? (f : Frame) (name : String) : Option Address :=
  f.bindings.lookup name

/-- Bind the name here, in place of an earlier address. -/
def set (f : Frame) (name : String) (a : Address) : Frame :=
  { f with bindings := (name, a) :: f.bindings.filter fun b => b.1 ≠ name }

end Frame

/-- All objects and all frames ever made, oldest first. -/
structure Heap where
  objects : Array Object
  frames : Array Frame

/-- The address of a truth value. -/
def truth (b : Bool) : Address :=
  if b then 0 else 1

/-- The address of `null`. -/
def nothing : Address :=
  2

namespace Heap

/-- Memory before anything is run: the objects that are shared, and a frame that binds
nothing. -/
def fresh : Heap :=
  ⟨#[.bool true, .bool false, .null], #[⟨none, []⟩]⟩

/-- Bind the name in the given frame. -/
def set (σ : Heap) (i : FrameId) (name : String) (a : Address) : Heap :=
  { σ with frames := σ.frames.modify i (·.set name a) }

/-- The frame around the given one, if it is older. -/
def outer? (σ : Heap) (i : FrameId) : Option { o : FrameId // o < i } :=
  match σ.frames[i]?.bind Frame.outer with
  | some o => if h : o < i then some ⟨o, h⟩ else none
  | none => none

/-- The address that the frame sees under the name: its own, or what the outer frame sees. -/
def get? (σ : Heap) (i : FrameId) (name : String) : Option Address :=
  match σ.frames[i]?.bind (·.get? name) with
  | some a => some a
  | none =>
      match σ.outer? i with
      | some ⟨o, _⟩ => σ.get? o name
      | none => none
termination_by i

end Heap

/-! ## Evaluation -/

/-- A computation on memory. -/
abbrev Eval (α : Type) : Type :=
  StateT Heap Option α

namespace Eval

/-- Put an object in a new place. -/
def alloc (o : Object) : Eval Address :=
  fun σ => some (σ.objects.size, { σ with objects := σ.objects.push o })

/-- The object at an address. -/
def load (a : Address) : Eval Object :=
  fun σ => σ.objects[a]?.map fun o => (o, σ)

/-- A new frame inside another one. -/
def enclose (outer : FrameId) : Eval FrameId :=
  fun σ => some (σ.frames.size, { σ with frames := σ.frames.push ⟨some outer, []⟩ })

/-- Bind a name in a frame. -/
def bindName (env : FrameId) (name : String) (a : Address) : Eval Unit :=
  fun σ => some ((), σ.set env name a)

/-- Bind names in a frame, from left to right. -/
def bindAll (env : FrameId) : List (String × Address) → Eval Unit
  | [] => pure ()
  | (name, a) :: bs => do
      bindName env name a
      bindAll env bs

/-- The address that a frame sees under a name. -/
def getName (env : FrameId) (name : String) : Eval Address :=
  fun σ =>
    match σ.get? env name with
    | some a => some (a, σ)
    | none => alloc (.error (.unboundName name)) σ

/-- Go on with the object, unless it is an error: then it is the result. -/
def unlessError (x : Eval Address) (k : Address → Eval Address) : Eval Address := do
  let a ← x
  if (← load a).isError then return a else k a

/-- The object without its outermost wrapper. -/
def unwrap (a : Address) : Eval Address := do
  match ← load a with
  | .returned result => return result
  | _ => return a

end Eval

open Memory.Eval

/-- The result of an operator with one operand. -/
def evalUnary (op : UnaryOp) (a : Address) : Eval Address := do
  match op, ← load a with
  | .not, o => return truth !o.isTruthy
  | .negate, .int n => alloc (.int (-n))
  | .negate, o => alloc (.error (.notNegatable o.type))

/-- The result of an operator between two integers. -/
def evalInts : BinaryOp → Int64 → Int64 → Eval Address
  | .add, m, n => alloc (.int (m + n))
  | .subtract, m, n => alloc (.int (m - n))
  | .multiply, m, n => alloc (.int (m * n))
  | .divide, m, n => if n = 0 then alloc (.error .divisionByZero) else alloc (.int (m / n))
  | .less, m, n => return truth (m < n)
  | .greater, m, n => return truth (n < m)
  | .equal, m, n => return truth (m = n)
  | .notEqual, m, n => return truth (m ≠ n)

/-- The result of an operator between two objects that lie at the addresses. Unless both are
integers, they are equal if they lie in the same place. -/
def evalObjects (op : BinaryOp) (a b : Address) : Object → Object → Eval Address
  | .int m, .int n => evalInts op m n
  | left, right =>
      match op with
      | .equal => return truth (a = b)
      | .notEqual => return truth (a ≠ b)
      | op =>
          if left.type = right.type then alloc (.error (.unknownOperator op left.type))
          else alloc (.error (.typeMismatch op left.type right.type))

/-- The result of an operator between what lies at two addresses. -/
def evalBinary (op : BinaryOp) (a b : Address) : Eval Address := do
  evalObjects op a b (← load a) (← load b)

section

variable (apply : Address → List Address → Eval Address) (env : FrameId)

mutual

/-- The result of an expression. -/
def evalExpr : Expr Unit → Eval Address
  | .ident id => getName env id.name
  | .int _ n => alloc (.int n)
  | .bool _ b => return truth b
  | .unary _ op operand => (evalExpr operand).unlessError (evalUnary op)
  | .binary _ op left right =>
      (evalExpr left).unlessError fun l =>
      (evalExpr right).unlessError fun r =>
      evalBinary op l r
  | .cond _ condition consequence none =>
      (evalExpr condition).unlessError fun c => do
      if (← load c).isTruthy then evalBlock consequence else return nothing
  | .cond _ condition consequence (some alternative) =>
      (evalExpr condition).unlessError fun c => do
      if (← load c).isTruthy then evalBlock consequence else evalBlock alternative
  | .function _ params body => alloc (.function (params.map Ident.name) body env)
  | .call _ callee args =>
      (evalExpr callee).unlessError fun f => do
      match ← evalArgs args with
      | .error e => return e
      | .ok as => apply f as

/-- The results of arguments from left to right, or the first error among them. -/
def evalArgs : List (Expr Unit) → Eval (Except Address (List Address))
  | [] => return .ok []
  | e :: es => do
      let a ← evalExpr e
      if (← load a).isError then return .error a
      else return (← evalArgs es).map (a :: ·)

/-- What a statement results in. -/
def evalStmt : Stmt Unit → Eval Address
  | .let_ _ id value =>
      (evalExpr value).unlessError fun a => do
      bindName env id.name a
      return nothing
  | .return_ _ value => (evalExpr value).unlessError fun a => alloc (.returned a)
  | .expr _ value => evalExpr value
  | .block body => evalBlock body

/-- What statements in a row result in, if `last` is the result of the one before them. -/
def evalStmts (last : Address) : List (Stmt Unit) → Eval Address
  | [] => return last
  | s :: ss => do
      let a ← evalStmt s
      if (← load a).stops then return a else evalStmts a ss

/-- What a block results in; it has no frame of its own. -/
def evalBlock : Block Unit → Eval Address
  | .mk _ statements => evalStmts nothing statements

end

end

/-- Apply an object to arguments: the body runs in a new frame, inside the frame that the
function was made in. -/
def apply : Nat → Address → List Address → Eval Address
  | 0, _, _ => fun _ => none
  | depth + 1, f, args => do
      match ← load f with
      | .function params body env =>
          if params.length = args.length then do
            let env ← enclose env
            bindAll env (params.zip args)
            unwrap (← evalBlock (apply depth) env body)
          else alloc (.error (.wrongArgumentCount params.length args.length))
      | o => alloc (.error (.notAFunction o.type))

/-- Run a program in a frame, with calls nested up to the given depth. -/
def evaluate (depth : Nat) (p : Program Unit) (env : FrameId) : Eval Address := do
  unwrap (← evalStmts (apply depth) env nothing p.statements)

end Monkey.Memory
