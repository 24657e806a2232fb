import Monkey.Token.Scanner

/-!
# Lines of a text

A line is ended by a line feed, a carriage return, both in this order, or one of
the other characters that Unicode asks to start a new line at. What ends a line
belongs to it, so the lines put together are the text.

Offsets into a text are counted in bytes.
-/

namespace Monkey.Text

/-- The character ends a line. -/
def isLineEnd (c : Char) : Bool :=
  let n := c.toNat
  (10 ≤ n && n ≤ 13) || n = 0x85 || n = 0x2028 || n = 0x2029

/-- Put a character before the first line. -/
def consLine (c : Char) : List (List Char) → List (List Char)
  | [] => [[c]]
  | l :: ls => (c :: l) :: ls

/-- The lines of a text, each with what ends it. -/
def lines : List Char → List (List Char)
  | [] => []
  | '\r' :: '\n' :: cs => ['\r', '\n'] :: lines cs
  | c :: cs => if isLineEnd c then [c] :: lines cs else consLine c (lines cs)

theorem flatten_consLine (c : Char) (ls : List (List Char)) :
    (consLine c ls).flatten = c :: ls.flatten := by
  cases ls <;> rfl

/-- No character is lost, and none is added. -/
theorem flatten_lines (cs : List Char) : (lines cs).flatten = cs := by
  fun_induction lines cs with
  | case1 => rfl
  | case2 cs ih => simp [ih]
  | case3 c cs _ h ih => simp [ih]
  | case4 c cs _ h ih => rw [flatten_consLine, ih]

/-- The characters that lie within the first `n` bytes. -/
def takeBytes (n : Nat) : List Char → List Char
  | [] => []
  | c :: cs => if c.utf8Size ≤ n then c :: takeBytes (n - c.utf8Size) cs else []

/-- A line of a text, its number counted from `number`, and the offset in it, for an
offset in the text that the lines make up. -/
def locate (number : Nat) : List (List Char) → Nat → Option (Nat × List Char × Nat)
  | [], _ => none
  | l :: ls, offset =>
      if offset < byteCount l then some (number, l, offset)
      else locate (number + 1) ls (offset - byteCount l)

end Monkey.Text
