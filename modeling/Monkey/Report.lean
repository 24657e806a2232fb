import Monkey.SyntaxError
import Monkey.Text.Lines
import Monkey.Text.Width

/-!
# Pointing at syntax errors

A report shows the line an error is in, underlines the token, and writes a remark
below it. The end of the input has no text of its own: the last character stands
for it.
-/

namespace Monkey

open Text

/-- What a report underlines: the widened span, cut at the end of the text, or the
last character if the span begins behind it. -/
def labelSpan (span : Span) (source : String) : Span :=
  let s := span.widen
  if s.start < source.utf8ByteSize then ⟨s.start, min s.stop source.utf8ByteSize⟩
  else
    let last := source.toList.getLast?.elim 0 Char.utf8Size
    ⟨source.utf8ByteSize - last, source.utf8ByteSize⟩

/-- An underlined stretch of one line of a text. -/
structure Excerpt where
  /-- The number of the line, counted from one. -/
  number : Nat
  /-- The line without the white space at its end. -/
  line : List Char
  /-- The columns that are underlined, counted in characters from zero. -/
  start : Nat
  stop : Nat

namespace Excerpt

/-- The line that a span begins in, with the characters that the span covers. -/
def ofSpan (span : Span) (source : String) : Excerpt :=
  match locate 1 (lines source.toList) span.start with
  | some (number, line, offset) =>
      ⟨number, trimEnd line, (takeBytes offset line).length,
        (takeBytes (offset + (span.stop - span.start)) line).length⟩
  | none => ⟨1, [], 0, 0⟩

/-- The column that the remark hangs on. -/
def middle (e : Excerpt) : Nat :=
  (e.start + e.stop) / 2

/-- How many cells each column takes on the screen, up to two columns behind the
underlined ones; behind the text it is one. -/
def widths (e : Excerpt) : List Nat :=
  (e.line.mapIdx widthAt ++ List.replicate (e.stop + 2) 1).take (e.stop + 2)

/-- The line as it is shown, white space as blanks. -/
def shownLine (e : Excerpt) : String :=
  String.join <| e.line.mapIdx fun col c =>
    if isSpace c then String.ofList (List.replicate (widthAt col c) ' ') else c.toString

/-- A row below the line: in each column a character, and another one in the further
cells of the column. -/
def row (e : Excerpt) (cell : Nat → Char × Char) : String :=
  String.ofList (e.widths.mapIdx fun col width =>
    match width with
    | 0 => []
    | more + 1 => (cell col).1 :: List.replicate more (cell col).2).flatten

/-- The row that underlines. -/
def underline (e : Excerpt) : String :=
  e.row fun col =>
    if col = e.middle then ('┬', '─')
    else if e.start ≤ col ∧ col < e.stop then ('─', '─')
    else (' ', ' ')

/-- The row that leads to the remark. -/
def pointer (e : Excerpt) : String :=
  e.row fun col =>
    if col < e.middle then (' ', ' ')
    else if col = e.middle then ('╰', '─')
    else ('─', '─')

end Excerpt

namespace SyntaxError

/-- The error with the line it is in, for a text in which it was found. -/
def report (error : SyntaxError) (source : String) : String :=
  let e := Excerpt.ofSpan (labelSpan error.span source) source
  let number := toString e.number
  let margin := String.ofList (List.replicate (number.length + 2) ' ')
  "Error: " ++ error.message ++ "\n" ++
    margin ++ "╭─[ REPL:" ++ number ++ ":" ++ toString (e.start + 1) ++ " ]\n" ++
    margin ++ "│\n" ++
    " " ++ number ++ " │ " ++ e.shownLine ++ "\n" ++
    margin ++ "│ " ++ e.underline ++ "\n" ++
    margin ++ "│ " ++ e.pointer ++ " " ++ error.remark ++ "\n" ++
    String.ofList (List.replicate (number.length + 2) '─') ++ "╯\n"

end SyntaxError

end Monkey
