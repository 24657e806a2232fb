/-!
# White space

The characters with the property White_Space of Unicode. A program has blanks of
its own, and fewer of them; these are what a line is trimmed of.
-/

namespace Monkey.Text

/-- The character is white space in the sense of Unicode. -/
def isSpace (c : Char) : Bool :=
  let n := c.toNat
  (9 ≤ n && n ≤ 13) || n = 0x20 || n = 0x85 || n = 0xA0 || n = 0x1680 ||
    (0x2000 ≤ n && n ≤ 0x200A) || n = 0x2028 || n = 0x2029 || n = 0x202F ||
    n = 0x205F || n = 0x3000

/-- The characters up to the last one that is not white space. -/
def trimEnd (cs : List Char) : List Char :=
  (cs.reverse.dropWhile isSpace).reverse

/-- The characters from the first to the last one that is not white space. -/
def trim (cs : List Char) : List Char :=
  trimEnd (cs.dropWhile isSpace)

end Monkey.Text
