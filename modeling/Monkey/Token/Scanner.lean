import Monkey.Token.Basic

/-!
# From text to tokens

A scanner stands somewhere in a text and cuts one token at a time: always the
longest one that begins at the next character that is not blank. A character that
begins no token is an illegal token by itself, so scanning never fails.

Each step leaves less text than before (`Scanner.length_lt_of_next?`), which is
why `Scanner.tokens` comes to an end.
-/

namespace Monkey

/-- Space, tab, line feed and carriage return separate tokens. -/
def isBlank (c : Char) : Bool :=
  c = ' ' || c = '\t' || c = '\n' || c = '\r'

/-- Words are made of ASCII letters and the underscore. -/
def isWordChar (c : Char) : Bool :=
  ('a' ≤ c && c ≤ 'z') || ('A' ≤ c && c ≤ 'Z') || c = '_'

/-- Integers are made of the ASCII digits. -/
def isDigit (c : Char) : Bool :=
  '0' ≤ c && c ≤ '9'

/-- The kind of the longest token that begins with `c` and goes on in `cs`, and the
characters of `cs` that belong to it. -/
def lexeme (c : Char) (cs : List Char) : Kind × List Char :=
  if isWordChar c then
    let more := cs.takeWhile isWordChar
    (Kind.ofWord (String.ofList (c :: more)), more)
  else if isDigit c then
    (.int, cs.takeWhile isDigit)
  else
    match c, cs with
    | '=', '=' :: _ => (.eq, ['='])
    | '!', '=' :: _ => (.notEq, ['='])
    | c, _ => (Kind.ofMark c, [])

/-- The number of bytes that the characters take in UTF-8. -/
def byteCount (cs : List Char) : Nat :=
  cs.foldr (fun c n => c.utf8Size + n) 0

theorem byteCount_nil : byteCount [] = 0 := rfl

theorem byteCount_cons (c : Char) (cs : List Char) :
    byteCount (c :: cs) = c.utf8Size + byteCount cs := rfl

theorem byteCount_append (cs ds : List Char) :
    byteCount (cs ++ ds) = byteCount cs + byteCount ds := by
  induction cs with
  | nil => rw [List.nil_append, byteCount_nil, Nat.zero_add]
  | cons c cs ih => rw [List.cons_append, byteCount_cons, byteCount_cons, ih, Nat.add_assoc]

theorem byteCount_eq_utf8ByteSize (cs : List Char) :
    byteCount cs = (String.ofList cs).utf8ByteSize := by
  induction cs with
  | nil => rfl
  | cons c cs ih =>
      have hsplit : String.ofList (c :: cs) = String.ofList [c] ++ String.ofList cs := by
        rw [← String.ofList_append, List.singleton_append]
      rw [byteCount_cons, ih, hsplit, String.utf8ByteSize_append,
        ← String.singleton_eq_ofList, String.utf8ByteSize_singleton]

/-- A place in a text: the characters that are left, and how many bytes lie before
them. -/
structure Scanner where
  rest : List Char
  offset : Nat
deriving DecidableEq, Repr

namespace Scanner

/-- The scanner at the beginning of a text. -/
def ofString (source : String) : Scanner :=
  ⟨source.toList, 0⟩

/-- The scanner behind the blanks it stands before. -/
def skipBlanks (s : Scanner) : Scanner :=
  ⟨s.rest.dropWhile isBlank, s.offset + byteCount (s.rest.takeWhile isBlank)⟩

/-- The next token and the scanner behind it, if only blanks do not remain. -/
def next? (s : Scanner) : Option (Token × Scanner) :=
  match s.skipBlanks with
  | ⟨[], _⟩ => none
  | ⟨c :: cs, offset⟩ =>
      let (kind, more) := lexeme c cs
      let stop := offset + byteCount (c :: more)
      some (⟨kind, String.ofList (c :: more), ⟨offset, stop⟩⟩,
        ⟨cs.drop more.length, stop⟩)

/-- The next token and the scanner behind it. A scanner with nothing left but blanks
gives the end of the input, however often it is asked. -/
def next (s : Scanner) : Token × Scanner :=
  s.next?.getD (Token.eof s.skipBlanks.offset, s.skipBlanks)

theorem length_skipBlanks_le (s : Scanner) :
    s.skipBlanks.rest.length ≤ s.rest.length :=
  (List.dropWhile_sublist isBlank).length_le

/-- A token takes at least one character away. -/
theorem length_lt_of_next? {s s' : Scanner} {t : Token} (h : s.next? = some (t, s')) :
    s'.rest.length < s.rest.length := by
  have hle := length_skipBlanks_le s
  unfold next? at h
  split at h
  · cases h
  · next c cs offset hskip =>
    rw [hskip] at hle
    simp only [Option.some.injEq, Prod.mk.injEq] at h
    rw [← h.2]
    simp only [List.length_drop]
    simp only [List.length_cons] at hle
    omega

/-- All tokens from here on, the end of the input left out. -/
def tokens (s : Scanner) : List Token :=
  match h : s.next? with
  | none => []
  | some (t, s') =>
      have := length_lt_of_next? h
      t :: s'.tokens
termination_by s.rest.length

/-- The answers of `count` calls of `next`, one after another. -/
def take : Nat → Scanner → List Token
  | 0, _ => []
  | count + 1, s => s.next.1 :: take count s.next.2

end Scanner

/-- The tokens of a text, the end of the input left out. -/
def tokenize (source : String) : List Token :=
  (Scanner.ofString source).tokens

end Monkey
