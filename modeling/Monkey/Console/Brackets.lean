import Monkey.Token.Scanner

/-!
# Open brackets

Input goes on over several lines for as long as a parenthesis or a brace is open.
Brackets have to be closed in the order opposite to the one they were opened in; the
first one that does not match makes the input unfit, whatever follows.
-/

namespace Monkey.Console

/-- What the brackets of an input say about it. -/
inductive Verdict where
  /-- Every bracket is closed. -/
  | closed
  /-- Some are open still. -/
  | unfinished
  /-- The token closes what is not open, or not the last to be opened. -/
  | unmatched (t : Token)
deriving DecidableEq, Repr

/-- The bracket that a closing one belongs to. -/
def opening? : Kind → Option Kind
  | .rparen => some .lparen
  | .rbrace => some .lbrace
  | _ => none

/-- The verdict on tokens behind which the brackets `opened` have to be closed, the
last one first. -/
def judge (opened : List Kind) : List Token → Verdict
  | [] => if opened.isEmpty then .closed else .unfinished
  | t :: ts =>
      if t.kind = .lparen ∨ t.kind = .lbrace then judge (t.kind :: opened) ts
      else
        match opening? t.kind with
        | none => judge opened ts
        | some k =>
            match opened with
            | [] => .unmatched t
            | o :: opened => if o = k then judge opened ts else .unmatched t

/-- The verdict on a text. -/
def verdict (source : String) : Verdict :=
  judge [] (tokenize source)

/-- What is said about a bracket that does not match. -/
def unmatchedMessage (t : Token) : String :=
  "  - Unmatched '" ++ t.literal ++ "' at position " ++ toString t.span.start

end Monkey.Console
