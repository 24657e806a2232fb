import Monkey.Program.Parse

/-!
# A parser that moves a cursor

The functions that read a program, in the form of a machine: a cursor stands on one token and
sees the one behind it, and all functions share it and move it on. They call each other and
repeat what they do in loops, as deep and as often as it takes. Nothing in the definitions says
that they come to an end: a run is given a depth, and has no outcome where the depth does not
suffice.

A turn of a loop is a function of its own, which answers whether the loop is to go on.
-/

namespace Monkey

/-- A parser at work on a text of `size` bytes: the tokens from the one on that its cursor is on,
the errors so far, and for the record the tokens that statements were started at. -/
structure Parser (size : Nat) where
  tokens : List Token
  kind_ne_eof : ∀ t ∈ tokens, t.kind ≠ .eof
  errors : List SyntaxError
  started : List Token

/-- How strongly a token of this kind holds what stands before it. -/
def Kind.strength : Kind → Nat
  | .eq | .notEq => 1
  | .lt | .gt => 2
  | .plus | .minus => 3
  | .asterisk | .slash => 4
  | .lparen => 6
  | _ => 0

namespace Parser

variable {size : Nat} {σ β : Type}

/-- The token that the cursor is on. Behind the last token it is on the end of the input. -/
def current (w : Parser size) : Token :=
  w.tokens.headD (.eof size)

/-- The tokens behind the one that the cursor is on. -/
def behind (w : Parser size) : List Token :=
  w.tokens.tail

/-- The token behind the one that the cursor is on. -/
def next (w : Parser size) : Token :=
  w.behind.headD (.eof size)

/-- The cursor moved on by one token. On the end of the input it stays. -/
def advance (w : Parser size) : Parser size :=
  { w with
    tokens := w.tokens.tail
    kind_ne_eof := fun t ht => w.kind_ne_eof t (List.mem_of_mem_tail ht) }

/-- One more error. -/
def record (error : SyntaxError) (w : Parser size) : Parser size :=
  { w with errors := w.errors ++ [error] }

/-- No errors any more. -/
def forgetErrors (w : Parser size) : Parser size :=
  { w with errors := [] }

/-- A statement is started at the token that the cursor is on. -/
def start (w : Parser size) : Parser size :=
  { w with started := w.started ++ [w.current] }

end Parser

/-- What a function of the parser does. There is no outcome where it does not come to an end. -/
abbrev Parsing (size : Nat) (β : Type) : Type :=
  StateT (Parser size) Option β

/-- How a turn of a loop ends, with what the loop has so far. -/
inductive Turn (σ : Type) where
  | again (s : σ)
  | leave (s : σ)

namespace Parsing

variable {size : Nat} {σ β : Type}

def current : Parsing size Token := do
  return (← get).current

def next : Parsing size Token := do
  return (← get).next

def advance : Parsing size Unit :=
  modify Parser.advance

/-- Record an error, and give up. -/
def fail (error : SyntaxError) : Parsing size (Option β) := do
  modify (Parser.record error)
  return none

/-- Move on if the next token is of the given kind, and record an error otherwise. -/
def expectNext (kind : Kind) : Parsing size (Option Token) := do
  let next ← next
  if next.kind = kind then
    advance
    return some next
  else fail (.unexpectedToken kind next)

def skipSemicolon : Parsing size Unit := do
  if (← next).kind = .semicolon then advance else return

/-- Answer `b` behind a mark that has to follow. -/
def closeWith (kind : Kind) (b : β) : Parsing size (Option β) := do
  let some _ ← expectNext kind | return none
  return some b

/-- Repeat a turn for as long as it wants to go on, but not more than `turns` times. -/
def loop (turn : σ → Parsing size (Option (Turn σ))) (after : σ → Parsing size (Option β)) :
    Nat → σ → Parsing size (Option β)
  | 0, _ => fun _ => none
  | turns + 1, s => do
      match ← turn s with
      | none => return none
      | some (.leave s) => after s
      | some (.again s) => loop turn after turns s

end Parsing

/-- What the functions call for the parts of what they read, and how often they may repeat the
turn of a loop. -/
structure Calls (size : Nat) where
  turns : Nat
  statement : Parsing size (Option (Stmt Token))
  expression : Precedence → Parsing size (Option (Expr Token))

namespace Parsing

variable {size : Nat} (calls : Calls size)

/-! ## Parameters -/

def parameterTurn (parameters : List (Ident Token)) :
    Parsing size (Option (Turn (List (Ident Token)))) := do
  let some name ← expectNext .ident | return none
  let parameters := parameters ++ [⟨name, name.literal⟩]
  if (← next).kind = .comma then
    advance
    return some (.again parameters)
  else return some (.leave parameters)

def functionParameters : Parsing size (Option (List (Ident Token))) := do
  if (← next).kind = .rparen then
    advance
    return some []
  else loop parameterTurn (closeWith .rparen) calls.turns []

/-! ## Blocks -/

def blockTurn (statements : List (Stmt Token)) :
    Parsing size (Option (Turn (List (Stmt Token)))) := do
  let token ← current
  if token.kind = .rbrace then return some (.leave statements)
  else if token.kind = .eof then fail (.unexpectedToken .rbrace token)
  else
    match ← calls.statement with
    | some s =>
        advance
        return some (.again (statements ++ [s]))
    | none =>
        -- a statement that gave up on the closing brace must not step past it
        if (← current).kind = .rbrace then return some (.leave statements)
        else
          advance
          return some (.again statements)

def block : Parsing size (Option (Block Token)) := do
  let token ← current
  advance
  loop (blockTurn calls) (fun ss => return some (.mk token ss)) calls.turns []

/-! ## Expressions -/

def prefixExpression (op : UnaryOp) : Parsing size (Option (Expr Token)) := do
  let token ← current
  advance
  let some e ← calls.expression .unary | return none
  return some (.unary token op e)

def infixExpression (op : BinaryOp) (left : Expr Token) :
    Parsing size (Option (Expr Token)) := do
  let token ← current
  advance
  let some right ← calls.expression op.precedence | return none
  return some (.binary token op left right)

def groupedExpression : Parsing size (Option (Expr Token)) := do
  advance
  let some e ← calls.expression .lowest | return none
  closeWith .rparen e

def ifExpression : Parsing size (Option (Expr Token)) := do
  let token ← current
  let some _ ← expectNext .lparen | return none
  advance
  let some condition ← calls.expression .lowest | return none
  let some _ ← expectNext .rparen | return none
  let some _ ← expectNext .lbrace | return none
  let some consequence ← block calls | return none
  if (← next).kind = .keyword .else_ then
    advance
    let some _ ← expectNext .lbrace | return none
    let some alternative ← block calls | return none
    return some (.cond token condition consequence (some alternative))
  else return some (.cond token condition consequence none)

def functionLiteral : Parsing size (Option (Expr Token)) := do
  let token ← current
  let some _ ← expectNext .lparen | return none
  let some parameters ← functionParameters calls | return none
  let some _ ← expectNext .lbrace | return none
  let some body ← block calls | return none
  return some (.function token parameters body)

def argumentTurn (arguments : List (Expr Token)) :
    Parsing size (Option (Turn (List (Expr Token)))) := do
  if (← next).kind = .comma then
    advance
    advance
    let some e ← calls.expression .lowest | return none
    return some (.again (arguments ++ [e]))
  else return some (.leave arguments)

def callArguments : Parsing size (Option (List (Expr Token))) := do
  if (← next).kind = .rparen then
    advance
    return some []
  else
    advance
    let some first ← calls.expression .lowest | return none
    loop (argumentTurn calls) (closeWith .rparen) calls.turns [first]

def callExpression (callee : Expr Token) : Parsing size (Option (Expr Token)) := do
  let token ← current
  let some arguments ← callArguments calls | return none
  return some (.call token callee arguments)

def operand : Parsing size (Option (Expr Token)) := do
  let token ← current
  match token.kind with
  | .ident => return some (.ident ⟨token, token.literal⟩)
  | .int =>
      match token.integer? with
      | some n => return some (.int token n)
      | none => fail (.integerTooLarge token)
  | .keyword .true_ => return some (.bool token true)
  | .keyword .false_ => return some (.bool token false)
  | .bang => prefixExpression calls .not
  | .minus => prefixExpression calls .negate
  | .lparen => groupedExpression calls
  | .keyword .if_ => ifExpression calls
  | .keyword .function => functionLiteral calls
  | _ => fail (.noExpression token)

def operatorTurn (p : Precedence) (left : Expr Token) :
    Parsing size (Option (Turn (Expr Token))) := do
  let next ← next
  if next.kind ≠ .semicolon ∧ p.rank < next.kind.strength then
    if next.kind = .lparen then
      advance
      let some call ← callExpression calls left | return none
      return some (.again call)
    else
      match BinaryOp.ofKind? next.kind with
      | none => return some (.leave left)
      | some op =>
          advance
          let some e ← infixExpression calls op left | return none
          return some (.again e)
  else return some (.leave left)

def expression (p : Precedence) : Parsing size (Option (Expr Token)) := do
  let some left ← operand calls | return none
  loop (operatorTurn calls p) (fun e => return some e) calls.turns left

/-! ## Statements and programs -/

def letStatement : Parsing size (Option (Stmt Token)) := do
  let token ← current
  let some name ← expectNext .ident | return none
  let some _ ← expectNext .assign | return none
  advance
  let some value ← calls.expression .lowest | return none
  skipSemicolon
  return some (.let_ token ⟨name, name.literal⟩ value)

def returnStatement : Parsing size (Option (Stmt Token)) := do
  let token ← current
  advance
  let some value ← calls.expression .lowest | return none
  skipSemicolon
  return some (.return_ token value)

def expressionStatement : Parsing size (Option (Stmt Token)) := do
  let token ← current
  let some value ← expression calls .lowest | return none
  skipSemicolon
  return some (.expr token value)

def statement : Parsing size (Option (Stmt Token)) := do
  modify Parser.start
  match (← current).kind with
  | .keyword .let_ => letStatement calls
  | .keyword .return_ => returnStatement calls
  | .lbrace =>
      let some body ← block calls | return none
      return some (.block body)
  | _ => expressionStatement calls

def programTurn (statements : List (Stmt Token)) :
    Parsing size (Option (Turn (List (Stmt Token)))) := do
  if (← current).kind = .eof then return some (.leave statements)
  else
    let s? ← statement calls
    advance
    return some (.again (statements ++ s?.toList))

/-- Read statements up to the end of the input, and hand over the errors with them. -/
def program : Parsing size (Option Parsed) := do
  let some statements ← loop (programTurn calls) (fun ss => return some ss) calls.turns []
    | return none
  let errors := (← get).errors
  modify Parser.forgetErrors
  return some ⟨⟨statements⟩, errors⟩

end Parsing

/-- The functions nested in each other, as deep as `depth` at most. -/
def Calls.nested {size : Nat} : (depth : Nat) → Calls size
  | 0 => ⟨1, fun _ => none, fun _ _ => none⟩
  | depth + 1 =>
      ⟨depth + 2, Parsing.statement (nested depth), Parsing.expression (nested depth)⟩

end Monkey
