import Monkey.Program.Render
import Monkey.Text.Quoted

/-!
# Values

What a program computes with. Integers, wrapped results, errors and closures are
objects: each carries the number under which it was made, and two of them are the
same object only if these numbers agree (`Value.same`). There is one `true`, one
`false` and one `null`.

An error is a value as well: whoever meets one hands it on as its own result. The
result of a `return` statement is wrapped, so that the blocks around the statement
notice that they are at an end.
-/

namespace Monkey

/-- The number under which an object was made. -/
abbrev ObjectId := Nat

/-- The place of a frame in the store. -/
abbrev FrameId := Nat

/-- The types that a program can tell apart, by the errors they cause. -/
inductive ValueType where
  | integer
  | boolean
  | null
  | returnValue
  | error
  | function
deriving DecidableEq, Repr

/-- How runtime errors call the type. -/
def ValueType.name : ValueType → String
  | integer => "INTEGER"
  | boolean => "BOOLEAN"
  | null => "NULL"
  | returnValue => "RETURN_VALUE"
  | error => "ERROR"
  | function => "FUNCTION"

/-- What goes wrong while a program runs. -/
inductive Fault where
  | unboundName (name : String)
  | notNegatable (operand : ValueType)
  | typeMismatch (op : BinaryOp) (left right : ValueType)
  | unknownOperator (op : BinaryOp) (operands : ValueType)
  | divisionByZero
  | notAFunction (callee : ValueType)
  | wrongArgumentCount (expected given : Nat)
  /-- An error that was put into a scope from outside. -/
  | custom (text : String)
deriving DecidableEq, Repr

/-- The fault as one sentence. -/
def Fault.message : Fault → String
  | unboundName name => "identifier not found: " ++ name
  | notNegatable operand => "unknown operator: -" ++ operand.name
  | typeMismatch op left right =>
      "type mismatch: " ++ left.name ++ " " ++ op.symbol ++ " " ++ right.name
  | unknownOperator op operands =>
      "unknown operator: " ++ operands.name ++ " " ++ op.symbol ++ " " ++ operands.name
  | divisionByZero => "division by zero"
  | notAFunction callee => "not a function: " ++ callee.name
  | wrongArgumentCount expected given =>
      "wrong number of arguments: want=" ++ toString expected ++ ", got=" ++
        toString given
  | custom text => text

/-- A function with the frame that its free names are looked up in. -/
structure Closure where
  id : ObjectId
  params : List String
  body : Block Unit
  env : FrameId

namespace Closure

/-- The function as it is shown to a user, one statement on a line. -/
def inspect (c : Closure) : String :=
  "fn(" ++ ", ".intercalate c.params ++ ") \x7b\n" ++
    "\n".intercalate (c.body.statements.map Stmt.render) ++ "\n\x7d"

end Closure

/-- What an expression or a statement results in. -/
inductive Value where
  | int (id : ObjectId) (value : Int64)
  | bool (value : Bool)
  | null
  | returned (id : ObjectId) (result : Value)
  | error (id : ObjectId) (fault : Fault)
  | closure (closure : Closure)

namespace Value

/-- The type of the value. -/
def type : Value → ValueType
  | int _ _ => .integer
  | bool _ => .boolean
  | null => .null
  | returned _ _ => .returnValue
  | error _ _ => .error
  | closure _ => .function

/-- The value is an error, not one that is wrapped. -/
def isError : Value → Bool
  | error _ _ => true
  | _ => false

/-- The value ends the block it results in. -/
def stops : Value → Bool
  | returned _ _ | error _ _ => true
  | _ => false

/-- Everything but `false` and `null` counts as true, zero included. -/
def isTruthy : Value → Bool
  | bool value => value
  | null => false
  | _ => true

/-- The value without its outermost wrapper. -/
def unwrap : Value → Value
  | returned _ result => result
  | v => v

/-- The two are one object: booleans and `null` are the same whenever they are equal,
anything else only if it was made once. -/
def same : Value → Value → Bool
  | bool a, bool b => a = b
  | null, null => true
  | int i _, int j _ => i = j
  | returned i _, returned j _ => i = j
  | error i _, error j _ => i = j
  | closure c, closure d => c.id = d.id
  | _, _ => false

/-- The value as it is shown to a user. A wrapper does not show. -/
def inspect : Value → String
  | int _ value => toString value.toInt
  | bool value => toString value
  | null => "null"
  | returned _ result => result.inspect
  | error _ fault => "ERROR: " ++ fault.message
  | closure c => c.inspect

/-- The value as it is built. -/
def debug : Value → String
  | int _ value => "Integer(" ++ toString value.toInt ++ ")"
  | bool value => "Boolean(" ++ toString value ++ ")"
  | null => "Null"
  | returned _ result => "ReturnValue(" ++ result.debug ++ ")"
  | error _ fault => "Error(" ++ Text.quote fault.message ++ ")"
  | closure c => "Function(Function(" ++ ", ".intercalate c.params ++ "))"

end Value

end Monkey
