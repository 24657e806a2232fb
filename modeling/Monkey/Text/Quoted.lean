import Monkey.Text.Printable

/-!
# Quoted text

A text in quotation marks, on one line: a quotation mark and a backslash in it are
put behind a backslash, and what is not printable is written as an escape, by a letter
or by its code point.
-/

namespace Monkey.Text

/-- A character by its code point. -/
def escapeCodePoint (c : Char) : String :=
  "\\u\x7b" ++ String.ofList (Nat.toDigits 16 c.toNat) ++ "\x7d"

/-- The character as it is written between quotation marks. -/
def escape (c : Char) : String :=
  if c = '"' then "\\\""
  else if c = '\\' then "\\\\"
  else if c = '\n' then "\\n"
  else if c = '\t' then "\\t"
  else if c = '\r' then "\\r"
  else if c.toNat = 0 then "\\0"
  else if isPrintable c then c.toString
  else escapeCodePoint c

/-- The text between quotation marks. -/
def quote (s : String) : String :=
  "\"" ++ String.join (s.toList.map escape) ++ "\""

end Monkey.Text
