import Monkey.Program.Basic
import Monkey.SyntaxError
import Monkey.Token.Scanner

/-!
# Programs from tokens

Operators are read by precedence climbing: an operand is followed by operators for
as long as they hold tighter than what stands to the left of it. An opening
parenthesis behind an expression holds tightest of all and begins the arguments of
a call.

A syntax error is recorded, and the statement it is in gives up where it stands.
The reading goes on behind the token it stood on; a block whose statement gave up
on a closing brace takes this brace for its own end.

Every function here is given the tokens it may take, and answers with those it
left. That these are never more than it was given is part of the answer
(`Reply.Within`), and is what the recursion comes to an end by.
-/

namespace Monkey

/-- How tightly an operator holds what stands beside it, loosest first. -/
inductive Precedence where
  | lowest
  | equality
  | order
  | sum
  | product
  | unary
deriving DecidableEq, Repr

/-- The place of a precedence, counted from the loosest. -/
def Precedence.rank : Precedence → Nat
  | lowest => 0
  | equality => 1
  | order => 2
  | sum => 3
  | product => 4
  | unary => 5

/-- How tightly the operator holds its operands. -/
def BinaryOp.precedence : BinaryOp → Precedence
  | equal | notEqual => .equality
  | less | greater => .order
  | add | subtract => .sum
  | multiply | divide => .product

/-- The value of an integer token, unless it is above the greatest integer. -/
def Token.integer? (t : Token) : Option Int64 :=
  let n := Nat.ofDigitChars 10 t.literal.toList 0
  if n ≤ Int64.maxValue.toNatClampNeg then some (Int64.ofNat n) else none

/-! ## Answers -/

/-- What a parse function makes of the tokens before it: a result, unless it gave
up, the errors on the way, the last token it took and the tokens behind that one. -/
structure Reply (β : Type) where
  result? : Option β
  errors : List SyntaxError
  last : Token
  rest : List Token

namespace Reply

variable {β γ : Type} {m n : Nat}

/-- A result, and no errors. -/
def done (result : β) (last : Token) (rest : List Token) : Reply β :=
  ⟨some result, [], last, rest⟩

/-- No result because of one error. -/
def giveUp (error : SyntaxError) (last : Token) (rest : List Token) : Reply β :=
  ⟨none, [error], last, rest⟩

/-- Go on behind a result; giving up is final. -/
def andThen (r : Reply β) (f : β → Token → List Token → Reply γ) : Reply γ :=
  match r.result? with
  | none => ⟨none, r.errors, r.last, r.rest⟩
  | some b =>
      let s := f b r.last r.rest
      ⟨s.result?, r.errors ++ s.errors, s.last, s.rest⟩

/-- An answer that leaves at most `n` tokens. -/
abbrev Within (n : Nat) (β : Type) : Type :=
  { r : Reply β // r.rest.length ≤ n }

namespace Within

/-- A result, and no errors. -/
def done (result : β) (last : Token) (rest : List Token) : Within rest.length β :=
  ⟨.done result last rest, Nat.le_refl _⟩

/-- No result because of one error. -/
def giveUp (error : SyntaxError) (last : Token) (rest : List Token) :
    Within rest.length β :=
  ⟨.giveUp error last rest, Nat.le_refl _⟩

/-- A looser bound on the tokens that are left. -/
def weaken (r : Within m β) (h : m ≤ n) : Within n β :=
  ⟨r.1, Nat.le_trans r.2 h⟩

/-- Go on behind a result with the tokens that are left; giving up is final. -/
def andThen (r : Within n β)
    (f : β → Token → (rest : List Token) → rest.length ≤ n → Within rest.length γ) :
    Within n γ :=
  match r with
  | ⟨⟨none, errors, last, rest⟩, h⟩ => ⟨⟨none, errors, last, rest⟩, h⟩
  | ⟨⟨some b, errors, last, rest⟩, h⟩ =>
      let s := f b last rest h
      ⟨⟨s.1.result?, errors ++ s.1.errors, s.1.last, s.1.rest⟩, Nat.le_trans s.2 h⟩

theorem val_weaken (r : Within m β) (h : m ≤ n) : (r.weaken h).1 = r.1 := rfl

theorem val_andThen (r : Within n β)
    {f : β → Token → (rest : List Token) → rest.length ≤ n → Within rest.length γ}
    {g : β → Token → List Token → Reply γ}
    (h : ∀ b last rest hrest, (f b last rest hrest).1 = g b last rest) :
    (r.andThen f).1 = r.1.andThen g := by
  obtain ⟨⟨_ | b, errors, last, rest⟩, hrest⟩ := r
  · rfl
  · simp only [andThen, Reply.andThen, h]

end Within

end Reply

/-! ## Parts without expressions -/

namespace Parse

open Reply

variable (eof : Token)

/-- Take the next token if it is of the given kind. -/
def expect (kind : Kind) (last : Token) : (ts : List Token) → Within ts.length Token
  | [] => .giveUp (.unexpectedToken kind eof) last []
  | t :: ts =>
      if t.kind = kind then (Within.done t t ts).weaken (Nat.le_succ _)
      else .giveUp (.unexpectedToken kind t) last (t :: ts)

/-- Take the semicolon behind a statement, if there is one. -/
def finish (s : Stmt Token) (last : Token) :
    (ts : List Token) → Within ts.length (Stmt Token)
  | [] => .done s last []
  | t :: ts =>
      if t.kind = .semicolon then (Within.done s t ts).weaken (Nat.le_succ _)
      else .done s last (t :: ts)

mutual

/-- At least one parameter, and the closing parenthesis. -/
def someParams (last : Token) (ts : List Token) :
    Within ts.length (List (Ident Token)) :=
  (expect eof .ident last ts).andThen fun name last rest _ =>
  (moreParams last rest).andThen fun more last rest _ =>
  .done (⟨name, name.literal⟩ :: more) last rest
termination_by 2 * ts.length + 1

/-- The parameters behind the first one, and the closing parenthesis. -/
def moreParams (last : Token) :
    (ts : List Token) → Within ts.length (List (Ident Token))
  | [] => .giveUp (.unexpectedToken .rparen eof) last []
  | t :: ts =>
      if t.kind = .comma then (someParams t ts).weaken (Nat.le_succ _)
      else
        (expect eof .rparen last (t :: ts)).andThen fun _ last rest _ =>
        .done [] last rest
termination_by ts => 2 * ts.length

end

/-- The parameters behind an opening parenthesis, and the closing one. -/
def params (last : Token) : (ts : List Token) → Within ts.length (List (Ident Token))
  | [] => someParams eof last []
  | t :: ts =>
      if t.kind = .rparen then (Within.done [] t ts).weaken (Nat.le_succ _)
      else someParams eof last (t :: ts)

/-! ## Expressions and statements

The functions call each other on the tokens that are left. What makes them come to an
end is the number of these, and for as long as none is taken the order in which they
call each other.
-/

mutual

/-- An expression that begins with `t`, up to an operator that does not hold tighter
than `p`. -/
def expressionAt (p : Precedence) (t : Token) (ts : List Token) :
    Within ts.length (Expr Token) :=
  (operand t ts).andThen fun left last rest _ => operators p left last rest
termination_by 5 * (ts.length + 1) + 1

/-- An expression, where one has to follow. -/
def expression (p : Precedence) : (ts : List Token) → Within ts.length (Expr Token)
  | [] => .giveUp (.noExpression eof) eof []
  | t :: ts => (expressionAt p t ts).weaken (Nat.le_succ _)
termination_by ts => 5 * ts.length + 2

/-- An expression without operators behind it, that begins with `t`. -/
def operand (t : Token) (ts : List Token) : Within ts.length (Expr Token) :=
  match t.kind with
  | .ident => .done (.ident ⟨t, t.literal⟩) t ts
  | .int =>
      match t.integer? with
      | some n => .done (.int t n) t ts
      | none => .giveUp (.integerTooLarge t) t ts
  | .keyword .true_ => .done (.bool t true) t ts
  | .keyword .false_ => .done (.bool t false) t ts
  | .bang =>
      (expression .unary ts).andThen fun operand last rest _ =>
      .done (.unary t .not operand) last rest
  | .minus =>
      (expression .unary ts).andThen fun operand last rest _ =>
      .done (.unary t .negate operand) last rest
  | .lparen =>
      (expression .lowest ts).andThen fun inner last rest _ =>
      (expect eof .rparen last rest).andThen fun _ last rest _ =>
      .done inner last rest
  | .keyword .if_ =>
      (expect eof .lparen t ts).andThen fun _ _ rest _ =>
      (expression .lowest rest).andThen fun condition last rest _ =>
      (expect eof .rparen last rest).andThen fun _ last rest _ =>
      (expect eof .lbrace last rest).andThen fun brace _ rest _ =>
      (block brace rest).andThen fun consequence last rest _ =>
      (alternative last rest).andThen fun alternative last rest _ =>
      .done (.cond t condition consequence alternative) last rest
  | .keyword .function =>
      (expect eof .lparen t ts).andThen fun _ last rest _ =>
      (params eof last rest).andThen fun params last rest _ =>
      (expect eof .lbrace last rest).andThen fun brace _ rest _ =>
      (block brace rest).andThen fun body last rest _ =>
      .done (.function t params body) last rest
  | _ => .giveUp (.noExpression t) t ts
termination_by 5 * (ts.length + 1)

/-- The other branch of a condition, if there is one. -/
def alternative (last : Token) :
    (ts : List Token) → Within ts.length (Option (Block Token))
  | [] => .done none last []
  | t :: ts =>
      if t.kind = .keyword .else_ then
        ((expect eof .lbrace t ts).andThen fun brace _ rest _ =>
          (block brace rest).andThen fun body last rest _ =>
          .done (some body) last rest).weaken (Nat.le_succ _)
      else .done none last (t :: ts)
termination_by ts => 5 * ts.length

/-- The operators behind `left` that hold tighter than `p`, with what belongs to
them. -/
def operators (p : Precedence) (left : Expr Token) (last : Token) :
    (ts : List Token) → Within ts.length (Expr Token)
  | [] => .done left last []
  | t :: ts =>
      if t.kind = .lparen then
        ((args ts).andThen fun args last rest _ =>
          operators p (.call t left args) last rest).weaken (Nat.le_succ _)
      else
        match BinaryOp.ofKind? t.kind with
        | some op =>
            if p.rank < op.precedence.rank then
              ((expression op.precedence ts).andThen fun right last rest _ =>
                operators p (.binary t op left right) last rest).weaken (Nat.le_succ _)
            else .done left last (t :: ts)
        | none => .done left last (t :: ts)
termination_by ts => 5 * ts.length

/-- The arguments behind an opening parenthesis, and the closing one. -/
def args : (ts : List Token) → Within ts.length (List (Expr Token))
  | [] => .giveUp (.noExpression eof) eof []
  | t :: ts =>
      if t.kind = .rparen then (Within.done [] t ts).weaken (Nat.le_succ _)
      else
        ((expressionAt .lowest t ts).andThen fun first last rest _ =>
          (moreArgs last rest).andThen fun more last rest _ =>
          .done (first :: more) last rest).weaken (Nat.le_succ _)
termination_by ts => 5 * ts.length + 2

/-- The arguments behind the first one, and the closing parenthesis. -/
def moreArgs (last : Token) : (ts : List Token) → Within ts.length (List (Expr Token))
  | [] => .giveUp (.unexpectedToken .rparen eof) last []
  | t :: ts =>
      if t.kind = .comma then
        ((expression .lowest ts).andThen fun next last rest _ =>
          (moreArgs last rest).andThen fun more last rest _ =>
          .done (next :: more) last rest).weaken (Nat.le_succ _)
      else
        (expect eof .rparen last (t :: ts)).andThen fun _ last rest _ =>
          .done [] last rest
termination_by ts => 5 * ts.length

/-- A block whose opening brace is taken. -/
def block (brace : Token) (ts : List Token) : Within ts.length (Block Token) :=
  (blockStatements ts).andThen fun statements last rest _ =>
  .done (.mk brace statements) last rest
termination_by 5 * ts.length + 4

/-- The statements up to a closing brace, and the brace. A statement that gives up on
a closing brace ends them as well. -/
def blockStatements : (ts : List Token) → Within ts.length (List (Stmt Token))
  | [] => .giveUp (.unexpectedToken .rbrace eof) eof []
  | t :: ts =>
      if t.kind = .rbrace then (Within.done [] t ts).weaken (Nat.le_succ _)
      else
        match statement t ts with
        | ⟨r, hrest⟩ =>
            if r.result?.isNone ∧ r.last.kind = .rbrace then
              ⟨{ r with result? := some [] }, Nat.le_succ_of_le hrest⟩
            else
              let more := blockStatements r.rest
              ⟨⟨more.1.result?.map (r.result?.toList ++ ·), r.errors ++ more.1.errors,
                more.1.last, more.1.rest⟩, Nat.le_succ_of_le (Nat.le_trans more.2 hrest)⟩
termination_by ts => 5 * ts.length + 3

/-- A statement that begins with `t`. -/
def statement (t : Token) (ts : List Token) : Within ts.length (Stmt Token) :=
  match t.kind with
  | .keyword .let_ =>
      (expect eof .ident t ts).andThen fun name last rest _ =>
      (expect eof .assign last rest).andThen fun _ _ rest _ =>
      (expression .lowest rest).andThen fun value last rest _ =>
      finish (.let_ t ⟨name, name.literal⟩ value) last rest
  | .keyword .return_ =>
      (expression .lowest ts).andThen fun value last rest _ =>
      finish (.return_ t value) last rest
  | .lbrace =>
      (block t ts).andThen fun body last rest _ =>
      .done (.block body) last rest
  | _ =>
      (expressionAt .lowest t ts).andThen fun value last rest _ =>
      finish (.expr t value) last rest
termination_by 5 * (ts.length + 1) + 2

end

/-- All statements that can be read, and the errors met on the way. -/
def statements : List Token → List (Stmt Token) × List SyntaxError
  | [] => ([], [])
  | t :: ts =>
      match statement eof t ts with
      | ⟨r, hrest⟩ =>
          have : r.rest.length < (t :: ts).length := Nat.lt_succ_of_le hrest
          let more := statements r.rest
          (r.result?.toList ++ more.1, r.errors ++ more.2)
termination_by ts => ts.length
decreasing_by exact this

end Parse

/-! ## Whole programs -/

/-- What a text reads as: the statements that could be read, and every syntax error.
The program is the whole text if there are no errors, and a part of it otherwise. -/
structure Parsed where
  program : Program Token
  errors : List SyntaxError

/-- The tokens that have not been read yet, and the one that stands behind them. -/
structure TokenStream where
  tokens : List Token
  eof : Token
deriving DecidableEq, Repr

namespace TokenStream

/-- All tokens of a text. -/
def ofString (source : String) : TokenStream :=
  ⟨tokenize source, .eof source.utf8ByteSize⟩

/-- Read statements until no token is left. -/
def readProgram (s : TokenStream) : Parsed × TokenStream :=
  let (statements, errors) := Parse.statements s.eof s.tokens
  (⟨⟨statements⟩, errors⟩, { s with tokens := [] })

end TokenStream

/-- Read a text as a program. -/
def parse (source : String) : Parsed :=
  (TokenStream.ofString source).readProgram.1

/-- The program ends with a statement that binds a name. -/
def Program.endsWithLet {α : Type} (p : Program α) : Bool :=
  match p.statements.getLast? with
  | some (.let_ _ _ _) => true
  | _ => false

end Monkey
