import Monkey.Console.Completion
import Monkey.Console.Highlight
import Monkey.Proofs.Token.Segmentation

/-!
# Coloured lines

The colours of a line can be taken off again, and they are those of its tokens
(`highlight_is_lossless`). A line may have escape characters of its own, and what follows them
may look like the rest of a sequence. But each of them is an illegal token by itself, so in the
coloured line it is followed by the sequence that resets its colour, and begins none.
-/

namespace Monkey.Console

/-! ## Reading colours -/

/-- The colours that a line is given. -/
inductive Colour where
  | magenta
  | yellow
  | red
deriving DecidableEq, Repr

/-- The colour of the tokens of a kind. -/
def Colour.ofKind? : Kind → Option Colour
  | .keyword _ => some .magenta
  | .int => some .yellow
  | .illegal => some .red
  | _ => none

/-- A sequence that sets a colour, the one that resets it, or a character of the text. -/
inductive Part where
  | start (colour : Colour)
  | reset
  | char (c : Char)
deriving DecidableEq, Repr

/-- The parts of a coloured text from left to right. -/
def parts : List Char → List Part
  | '\x1b' :: '[' :: '1' :: ';' :: '3' :: '5' :: 'm' :: cs => .start .magenta :: parts cs
  | '\x1b' :: '[' :: '3' :: '3' :: 'm' :: cs => .start .yellow :: parts cs
  | '\x1b' :: '[' :: '3' :: '1' :: 'm' :: cs => .start .red :: parts cs
  | '\x1b' :: '[' :: '0' :: 'm' :: cs => .reset :: parts cs
  | c :: cs => .char c :: parts cs
  | [] => []

/-- The character, if the part is one. -/
def Part.char? : Part → Option Char
  | .char c => some c
  | _ => none

/-- The text without the sequences. -/
def uncoloured (text : String) : String :=
  String.ofList ((parts text.toList).filterMap Part.char?)

/-- A stretch of text in one colour, and its place in the text without the sequences. -/
structure Stretch where
  colour : Colour
  text : String
  span : Span
deriving DecidableEq, Repr

/-- The stretches from a sequence that sets a colour to the one that resets it. A stretch may
have `begun` already, and `offset` bytes of text lie before the parts. -/
def stretchesFrom : Option (Colour × List Char) → Nat → List Part → List Stretch
  | _, _, [] => []
  | begun, offset, .char c :: ps =>
      stretchesFrom (begun.map fun b => (b.1, b.2 ++ [c])) (offset + c.utf8Size) ps
  | _, offset, .start colour :: ps => stretchesFrom (some (colour, [])) offset ps
  | none, offset, .reset :: ps => stretchesFrom none offset ps
  | some (colour, cs), offset, .reset :: ps =>
      ⟨colour, String.ofList cs, ⟨offset - byteCount cs, offset⟩⟩ :: stretchesFrom none offset ps

/-- The stretches of a text that are in colour. -/
def stretches (text : String) : List Stretch :=
  stretchesFrom none 0 (parts text.toList)

/-- The stretch that a token should be, if it has a colour. -/
def stretch? (t : Token) : Option Stretch :=
  (Colour.ofKind? t.kind).map fun colour => ⟨colour, t.literal, t.span⟩

/-! ## Slices -/

/-- The characters between two offsets in bytes, unless an offset lies within a character or
behind the text, or the second one before the first. -/
def slice? (start stop : Nat) (cs : List Char) : Option (List Char) :=
  if start ≤ stop then
    (front? start cs).bind fun before => front? (stop - start) (cs.drop before.length)
  else none

/-- The line from the offset `last` on with its colours, put together from slices at the spans
of the tokens. -/
def paintSlices (line : List Char) : Nat → List Token → Option String
  | last, [] => (slice? last (byteCount line) line).map String.ofList
  | last, t :: ts => do
      let gap ← slice? last t.span.start line
      let text ← slice? t.span.start t.span.stop line
      let more ← paintSlices line t.span.stop ts
      return String.ofList gap ++ paint { t with literal := String.ofList text } ++ more

variable {c : Char} {cs ds before mid after : List Char} {t : Token} {ps : List Part}
  {begun : Option (Colour × List Char)} {offset start stop : Nat} {s s' : Scanner}

theorem slice?_eq_some_iff :
    slice? start stop cs = some mid ↔ ∃ before after, cs = before ++ mid ++ after ∧
      byteCount before = start ∧ byteCount (before ++ mid) = stop := by
  constructor
  · intro h
    unfold slice? at h
    split at h
    next hle =>
      obtain ⟨before, hbefore, hmid⟩ := Option.bind_eq_some_iff.mp h
      obtain ⟨back, rfl, hstart⟩ := front?_eq_some_iff.mp hbefore
      rw [List.drop_left] at hmid
      obtain ⟨after, rfl, hstop⟩ := front?_eq_some_iff.mp hmid
      refine ⟨before, after, (List.append_assoc _ _ _).symm, hstart, ?_⟩
      rw [byteCount_append]
      omega
    next => cases h
  · rintro ⟨before, after, rfl, rfl, rfl⟩
    have hlen := byteCount_append before mid
    rw [slice?, if_pos (by omega), Option.bind_eq_some_iff]
    refine ⟨before, front?_eq_some_iff.mpr ⟨mid ++ after, List.append_assoc _ _ _, rfl⟩, ?_⟩
    exact front?_eq_some_iff.mpr ⟨after, by simp, by omega⟩

/-! ## Escape characters -/

/-- An escape character is an illegal token by itself. -/
theorem escape_of_mem_scan (ht : t ∈ scan offset cs) (hesc : '\x1b' ∈ t.literal.toList) :
    t.kind = .illegal ∧ t.literal.toList = ['\x1b'] := by
  obtain ⟨c, ds, hkind, hliteral⟩ := exists_lexeme_of_mem_scan ht
  rw [hliteral, String.toList_ofList] at hesc ⊢
  rw [hkind]
  have hall : ∀ p : Char → Bool, p c → p '\x1b' = false → '\x1b' ∉ c :: ds.takeWhile p := by
    intro p hc hp hmem
    have hrun : ∀ d ∈ c :: ds.takeWhile p, p d :=
      List.forall_mem_cons.mpr ⟨hc, List.all_eq_true.mp List.all_takeWhile⟩
    rw [hrun _ hmem] at hp
    cases hp
  by_cases hword : isWordChar c
  · rw [lexeme_word hword] at hesc
    exact absurd hesc (hall _ hword (by decide))
  by_cases hdigit : isDigit c
  · rw [lexeme_digit hword hdigit] at hesc
    exact absurd hesc (hall _ hdigit (by decide))
  rw [lexeme_mark hword hdigit] at hesc ⊢
  split at hesc
  next h =>
    rw [h.1] at hesc
    exact absurd hesc (by decide)
  split at hesc
  next h =>
    rw [h.1] at hesc
    exact absurd hesc (by decide)
  obtain rfl : '\x1b' = c := List.mem_singleton.mp hesc
  exact ⟨rfl, rfl⟩

/-! ## The parts of coloured text -/

theorem parts_cons (h : '\x1b' ≠ c) : parts (c :: cs) = .char c :: parts cs := by
  rw [parts] <;> (intros; simp_all)

theorem parts_text (h : '\x1b' ∉ cs) : parts (cs ++ ds) = cs.map .char ++ parts ds := by
  induction cs with
  | nil => rfl
  | cons c cs ih =>
      have hc : '\x1b' ≠ c := List.ne_of_not_mem_cons h
      rw [List.cons_append, parts_cons hc, ih (List.not_mem_of_not_mem_cons h)]
      rfl

/-- What the sequence for a colour of a token is read as. -/
theorem parts_sequence {code : String} {kind : Kind} (h : colour? kind = some code) :
    ∃ colour, Colour.ofKind? kind = some colour ∧
      ∀ ds, parts ((sequence code).toList ++ ds) = .start colour :: parts ds := by
  cases kind with
  | keyword w =>
    obtain rfl : "1;35" = code := Option.some.inj h
    exact ⟨.magenta, rfl, fun ds => rfl⟩
  | int =>
    obtain rfl : "33" = code := Option.some.inj h
    exact ⟨.yellow, rfl, fun ds => rfl⟩
  | illegal =>
    obtain rfl : "31" = code := Option.some.inj h
    exact ⟨.red, rfl, fun ds => rfl⟩
  | _ => cases h

theorem ofKind?_of_colour?_none {kind : Kind} (h : colour? kind = none) :
    Colour.ofKind? kind = none := by
  cases kind <;> first | rfl | cases h

theorem parts_reset : parts ((sequence "0").toList ++ ds) = .reset :: parts ds :=
  rfl

/-- The parts that are made of a token. -/
def partsOf (t : Token) : List Part :=
  match Colour.ofKind? t.kind with
  | some colour => .start colour :: (t.literal.toList.map .char ++ [.reset])
  | none => t.literal.toList.map .char

theorem parts_paint (ht : t ∈ scan offset cs) :
    parts ((paint t).toList ++ ds) = partsOf t ++ parts ds := by
  unfold paint
  split
  next code hcode =>
    obtain ⟨colour, hcolour, hsequence⟩ := parts_sequence hcode
    have hliteral : parts (t.literal.toList ++ ((sequence "0").toList ++ ds)) =
        t.literal.toList.map .char ++ .reset :: parts ds := by
      by_cases hesc : '\x1b' ∈ t.literal.toList
      · -- what follows the escape character is the one of the reset
        rw [(escape_of_mem_scan ht hesc).2]
        rfl
      · rw [parts_text hesc, parts_reset]
    simp only [partsOf, hcolour, String.toList_append, List.append_assoc, hsequence, hliteral]
    simp
  next hnone =>
    have hesc : '\x1b' ∉ t.literal.toList := by
      intro hesc
      rw [(escape_of_mem_scan ht hesc).1] at hnone
      cases hnone
    rw [parts_text hesc, partsOf, ofKind?_of_colour?_none hnone]

/-! ## The parts of a coloured line -/

theorem paintRest_of_none (h : s.next? = none) : paintRest s = String.ofList s.rest := by
  rw [paintRest]
  split <;> simp_all

theorem paintRest_of_some (h : s.next? = some (t, s')) :
    paintRest s = String.ofList (s.rest.takeWhile isBlank) ++ paint t ++ paintRest s' := by
  rw [paintRest]
  split <;> simp_all

theorem escape_notMem_of_blank (h : ∀ b ∈ cs, isBlank b) : '\x1b' ∉ cs :=
  fun hesc => absurd (h _ hesc) (by decide)

theorem parts_of_none (h : s.next? = none) : parts (paintRest s).toList = s.rest.map .char := by
  have hblank : ∀ b ∈ s.rest, isBlank b := by
    obtain ⟨hdrop, -⟩ := Scanner.mk.inj (Scanner.skipBlanks_of_none h)
    have hall := s.rest.takeWhile_append_dropWhile (p := isBlank)
    rw [hdrop, List.append_nil] at hall
    rw [← hall]
    exact List.all_eq_true.mp List.all_takeWhile
  have hparts : parts (s.rest ++ []) = s.rest.map .char ++ parts [] :=
    parts_text (escape_notMem_of_blank hblank)
  rw [List.append_nil, parts, List.append_nil] at hparts
  rw [paintRest_of_none h, String.toList_ofList, hparts]

theorem parts_of_some (h : s.next? = some (t, s')) :
    parts (paintRest s).toList =
      (s.rest.takeWhile isBlank).map .char ++ (partsOf t ++ parts (paintRest s').toList) := by
  have hblank : ∀ b ∈ s.rest.takeWhile isBlank, isBlank b :=
    List.all_eq_true.mp List.all_takeWhile
  have hmem : t ∈ scan s.offset s.rest := by
    change t ∈ s.tokens
    rw [Scanner.tokens_of_some h]
    exact List.mem_cons_self
  rw [paintRest_of_some h, String.toList_append, String.toList_append, String.toList_ofList,
    List.append_assoc, parts_text (escape_notMem_of_blank hblank), parts_paint hmem]

/-! ## What is read of it -/

theorem filterMap_char?_map : (cs.map Part.char).filterMap Part.char? = cs := by
  rw [List.filterMap_map]
  exact List.filterMap_some

theorem filterMap_char?_partsOf : (partsOf t).filterMap Part.char? = t.literal.toList := by
  unfold partsOf
  split
  next colour =>
    rw [List.filterMap_cons_none rfl, List.filterMap_append, filterMap_char?_map]
    exact List.append_nil _
  next => exact filterMap_char?_map

/-- The characters of the coloured line are those of the line. -/
theorem filterMap_char?_paintRest (s : Scanner) :
    (parts (paintRest s).toList).filterMap Part.char? = s.rest := by
  cases h : s.next? with
  | none => rw [parts_of_none h, filterMap_char?_map]
  | some r =>
      obtain ⟨t, s'⟩ := r
      have hlt := Scanner.length_lt_of_next? h
      rw [parts_of_some h, List.filterMap_append, List.filterMap_append, filterMap_char?_map,
        filterMap_char?_partsOf, filterMap_char?_paintRest s', ← List.append_assoc,
        ← (Scanner.cut_of_some h).1]
termination_by s.rest.length

theorem stretchesFrom_map_char :
    stretchesFrom begun offset (cs.map .char ++ ps) =
      stretchesFrom (begun.map fun b => (b.1, b.2 ++ cs)) (offset + byteCount cs) ps := by
  induction cs generalizing begun offset with
  | nil => cases begun <;> simp [byteCount_nil]
  | cons c cs ih =>
      rw [List.map_cons, List.cons_append, stretchesFrom, ih, byteCount_cons, Nat.add_assoc,
        Option.map_map]
      congr 2
      funext b
      simp

/-- A token is one stretch, if it has a colour. -/
theorem stretchesFrom_partsOf (hspan : t.span = ⟨offset, offset + byteCount t.literal.toList⟩) :
    stretchesFrom none offset (partsOf t ++ ps) =
      (stretch? t).toList ++ stretchesFrom none t.span.stop ps := by
  unfold partsOf stretch?
  rw [hspan]
  cases Colour.ofKind? t.kind with
  | none => exact stretchesFrom_map_char
  | some colour =>
      dsimp only
      rw [List.cons_append, List.append_assoc, stretchesFrom, stretchesFrom_map_char,
        List.singleton_append, Option.map_some, stretchesFrom]
      simp

theorem stretchesFrom_paintRest (s : Scanner) :
    stretchesFrom none s.offset (parts (paintRest s).toList) = s.tokens.filterMap stretch? := by
  cases h : s.next? with
  | none =>
      have htext : stretchesFrom none s.offset (s.rest.map .char ++ []) = [] :=
        stretchesFrom_map_char
      rw [List.append_nil] at htext
      rw [parts_of_none h, htext, Scanner.tokens_of_none h]
      rfl
  | some r =>
      obtain ⟨t, s'⟩ := r
      obtain ⟨-, hstart, hstop, hoffset⟩ := Scanner.cut_of_some h
      have hlt := Scanner.length_lt_of_next? h
      have hspan : t.span = ⟨s.offset + byteCount (s.rest.takeWhile isBlank),
          s.offset + byteCount (s.rest.takeWhile isBlank) + byteCount t.literal.toList⟩ := by
        rw [← hstart, ← hstop]
      rw [parts_of_some h, stretchesFrom_map_char, Option.map_none, stretchesFrom_partsOf hspan,
        ← hoffset, stretchesFrom_paintRest s', Scanner.tokens_of_some h, List.filterMap_cons]
      cases stretch? t <;> rfl
termination_by s.rest.length

/-- No slice that is taken is out of range or ends within a character. -/
theorem paintSlices_eq (before : List Char) (s : Scanner) (h : s.offset = byteCount before) :
    paintSlices (before ++ s.rest) s.offset s.tokens = some (paintRest s) := by
  cases hnext : s.next? with
  | none =>
      have hslice : slice? s.offset (byteCount (before ++ s.rest)) (before ++ s.rest) =
          some s.rest :=
        slice?_eq_some_iff.mpr ⟨before, [], by simp, h.symm, rfl⟩
      rw [Scanner.tokens_of_none hnext, paintSlices, hslice, paintRest_of_none hnext]
      rfl
  | some r =>
      obtain ⟨t, s'⟩ := r
      obtain ⟨hrest, hstart, hstop, hoffset⟩ := Scanner.cut_of_some hnext
      have hlt := Scanner.length_lt_of_next? hnext
      generalize hblanks : s.rest.takeWhile isBlank = blanks at hrest hstart
      rw [h, ← byteCount_append] at hstart
      rw [hstart, ← byteCount_append] at hstop
      have hgap : slice? s.offset t.span.start (before ++ s.rest) = some blanks :=
        slice?_eq_some_iff.mpr
          ⟨before, t.literal.toList ++ s'.rest, by simp [hrest], h.symm, hstart.symm⟩
      have htext : slice? t.span.start t.span.stop (before ++ s.rest) = some t.literal.toList :=
        slice?_eq_some_iff.mpr
          ⟨before ++ blanks, s'.rest, by simp [hrest], hstart.symm, hstop.symm⟩
      have hmore : paintSlices (before ++ s.rest) t.span.stop s'.tokens = some (paintRest s') := by
        have hih := paintSlices_eq (before ++ blanks ++ t.literal.toList) s' (hoffset.trans hstop)
        rw [hoffset] at hih
        rw [← hih, hrest]
        simp
      rw [Scanner.tokens_of_some hnext, paintSlices, hgap, htext, hmore, paintRest_of_some hnext,
        hblanks]
      simp
termination_by s.rest.length

/-- Without the sequences the coloured line is the line again, and its stretches in colour are
the keywords, integers and illegal characters of the line, each at its place. The line can be
put together from slices, since there is one for the span of every token and for what lies
between two of them. -/
theorem highlight_is_lossless (line : String) :
    uncoloured (highlight line) = line ∧
    stretches (highlight line) = (tokenize line).filterMap stretch? ∧
    paintSlices line.toList 0 (tokenize line) = some (highlight line) := by
  refine ⟨?_, stretchesFrom_paintRest (.ofString line), paintSlices_eq [] (.ofString line) rfl⟩
  rw [uncoloured, highlight, filterMap_char?_paintRest]
  exact String.ofList_toList

/-- The sequence in the line is not one of the coloured line. -/
example : highlight "\x1b[33m" =
    "\x1b[31m\x1b\x1b[0m" ++ "\x1b[31m[\x1b[0m" ++ "\x1b[33m33\x1b[0m" ++ "m" := by
  decide +kernel

end Monkey.Console
