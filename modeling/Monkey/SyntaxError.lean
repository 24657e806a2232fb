import Monkey.Token.Basic

/-!
# Syntax errors

A syntax error is a cause together with the token the parser stood before when it
noticed. Errors do not end the reading of a program, they are listed beside it.
-/

namespace Monkey

/-- What can be wrong with a sequence of tokens. -/
inductive SyntaxError where
  /-- A construct goes on with one kind of token only, and another one is there. -/
  | unexpectedToken (expected : Kind) (found : Token)
  /-- An expression should begin, and the token begins none. -/
  | noExpression (found : Token)
  /-- The literal is above the greatest integer. -/
  | integerTooLarge (found : Token)
deriving DecidableEq, Repr

namespace SyntaxError

/-- The token that the error is about. -/
def found : SyntaxError → Token
  | unexpectedToken _ found | noExpression found | integerTooLarge found => found

/-- The kind that should have been there, where there is only one. -/
def expected? : SyntaxError → Option Kind
  | unexpectedToken expected _ => some expected
  | _ => none

/-- Where the error is. -/
def span (e : SyntaxError) : Span :=
  e.found.span

/-- The error as one sentence. -/
def message : SyntaxError → String
  | unexpectedToken expected found =>
      "expected next token to be " ++ expected.name ++ ", got " ++ found.kind.name ++
        " instead"
  | noExpression found => "no prefix parse function for " ++ found.kind.name ++ " found"
  | integerTooLarge found => "could not parse " ++ found.literal ++ " as integer"

/-- The remark that an excerpt puts beside the token. -/
def remark : SyntaxError → String
  | unexpectedToken expected _ => "expected " ++ expected.name ++ " here"
  | noExpression _ => "this cannot start an expression"
  | integerTooLarge _ => "does not fit in a 64-bit integer"

end SyntaxError

end Monkey
