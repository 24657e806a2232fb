import Monkey.Token.Scanner

/-!
# Colours

A line is coloured token by token: keywords, integers and illegal characters are put
between an escape sequence that sets a colour and one that resets it, and the rest of
the line is left as it is.
-/

namespace Monkey.Console

/-- The escape sequence with the given code. -/
def sequence (code : String) : String :=
  "\x1b[" ++ code ++ "m"

/-- The code of the colour for tokens of a kind: bold magenta, yellow or red. -/
def colour? : Kind → Option String
  | .keyword _ => some "1;35"
  | .int => some "33"
  | .illegal => some "31"
  | _ => none

/-- The text of a token with its colour. -/
def paint (t : Token) : String :=
  match colour? t.kind with
  | some code => sequence code ++ t.literal ++ sequence "0"
  | none => t.literal

/-- The text from the scanner on with its colours. -/
def paintRest (s : Scanner) : String :=
  match h : s.next? with
  | none => String.ofList s.rest
  | some (t, s') =>
      have := Scanner.length_lt_of_next? h
      String.ofList (s.rest.takeWhile isBlank) ++ paint t ++ paintRest s'
termination_by s.rest.length

/-- The line with its colours. -/
def highlight (line : String) : String :=
  paintRest (.ofString line)

end Monkey.Console
