import Monkey.Token.Scanner

/-!
# Completing words

The word before the cursor can be completed to any name that is bound and to any
keyword, if these go on behind it. A name that is spelled like a keyword is offered
twice.
-/

namespace Monkey.Console

/-- The characters before an offset in bytes, unless it lies within a character or
behind the text. -/
def front? : Nat → List Char → Option (List Char)
  | 0, _ => some []
  | _ + 1, [] => none
  | n + 1, c :: cs =>
      if c.utf8Size ≤ n + 1 then (front? (n + 1 - c.utf8Size) cs).map (c :: ·) else none
termination_by _ cs => cs.length

/-- What lies before an offset is the beginning of the text that takes so many bytes. -/
theorem front?_eq_some_iff {n : Nat} {cs front : List Char} :
    front? n cs = some front ↔ ∃ back, cs = front ++ back ∧ byteCount front = n := by
  fun_induction front? n cs generalizing front with
  | case1 cs =>
      constructor
      · intro h
        obtain rfl := Option.some.inj h
        exact ⟨cs, rfl, rfl⟩
      · rintro ⟨back, -, hsize⟩
        cases front with
        | nil => rfl
        | cons c front =>
            have hpos := c.utf8Size_pos
            rw [byteCount_cons] at hsize
            omega
  | case2 n =>
      refine ⟨nofun, ?_⟩
      rintro ⟨back, hnil, hsize⟩
      obtain ⟨rfl, -⟩ := List.append_eq_nil_iff.mp hnil.symm
      cases hsize
  | case3 n c cs hle ih =>
      rw [Option.map_eq_some_iff]
      constructor
      · rintro ⟨front, hfront, rfl⟩
        obtain ⟨back, rfl, hsize⟩ := ih.mp hfront
        exact ⟨back, rfl, by rw [byteCount_cons]; omega⟩
      · rintro ⟨back, heq, hsize⟩
        cases front with
        | nil => cases hsize
        | cons d front =>
            obtain ⟨rfl, rfl⟩ := List.cons.inj heq
            rw [byteCount_cons] at hsize
            exact ⟨front, ih.mpr ⟨back, rfl, by omega⟩, rfl⟩
  | case4 n c cs hle =>
      refine ⟨nofun, ?_⟩
      rintro ⟨back, heq, hsize⟩
      cases front with
      | nil => cases hsize
      | cons d front =>
          obtain ⟨rfl, rfl⟩ := List.cons.inj heq
          rw [byteCount_cons] at hsize
          omega

/-- The word that is being typed: the last token, if it is a name or a keyword and the
text ends with it. -/
def wordBefore? (front : String) : Option String :=
  match (tokenize front).getLast? with
  | some t =>
      if t.span.stop = front.utf8ByteSize ∧ (t.kind = .ident ∨ t.kind.isKeyword) then
        some t.literal
      else none
  | none => none

/-- How a name goes on behind a word, if it does. -/
def continuation? (word name : String) : Option String :=
  match word.toList.isPrefixOf? name.toList with
  | some (c :: cs) => some (String.ofList (c :: cs))
  | _ => none

/-- What may be typed behind a word, given the names that are bound, in the order of
the characters. -/
def continuations (names : List String) (word : String) : List String :=
  ((names ++ Keyword.all.map Keyword.spelling).filterMap (continuation? word)).mergeSort
    fun a b => a ≤ b

/-- What may be typed behind a text. -/
def complete (names : List String) (front : String) : List String :=
  (wordBefore? front).elim [] (continuations names)

/-- The word that is being typed in a line, if the cursor stands at the offset in bytes. The
cursor stands between two characters or at an end of the line. -/
def wordAt? (line : String) (pos : Nat) : Option (Option String) :=
  (front? pos line.toList).map fun front => wordBefore? (String.ofList front)

/-- What may be typed at the cursor. -/
def completeAt? (names : List String) (line : String) (pos : Nat) : Option (List String) :=
  (front? pos line.toList).map fun front => complete names (String.ofList front)

end Monkey.Console
