import Monkey.Token.Scanner

/-!
# Tokens of texts put together

A token ends where the text does, or before a character that it cannot take in. So if
the last character of one text and the first character of the next do not belong to one
token, then the tokens of both together are those of the first and then those of the
second (`scan_append`). In particular the first token of a text can be read off by
itself, if what follows does not prolong it (`scan_mark`, `scan_word`, `scan_digits`).
-/

namespace Monkey

/-- The tokens of the characters, if `offset` bytes lie before them. -/
def scan (offset : Nat) (cs : List Char) : List Token :=
  (Scanner.mk cs offset).tokens

/-- The two characters can stand side by side in one token. -/
def Joins (c d : Char) : Prop :=
  (isWordChar c ∧ isWordChar d) ∨ (isDigit c ∧ isDigit d) ∨ ((c = '=' ∨ c = '!') ∧ d = '=')

/-- No token reaches from the end of one text into the next. -/
def Apart (cs ds : List Char) : Prop :=
  ∀ c ∈ cs.getLast?, ∀ d ∈ ds.head?, ¬Joins c d

variable {c d : Char} {cs ds more : List Char} {offset : Nat} {kind : Kind}

theorem apart_nil_left : Apart [] ds := by
  simp [Apart]

/-- No token before a character like this one takes it in. -/
theorem apart_cons (hword : ¬isWordChar d) (hdigit : ¬isDigit d) (heq : d ≠ '=') :
    Apart cs (d :: ds) := by
  intro c _ d' hd'
  obtain rfl : d = d' := Option.some.inj hd'
  rintro (⟨-, hd⟩ | ⟨-, hd⟩ | ⟨-, hd⟩)
  · exact hword hd
  · exact hdigit hd
  · exact heq hd

theorem Apart.of_suffix (h : Apart cs ds) (hmore : more <:+ cs) : Apart more ds := by
  obtain ⟨front, rfl⟩ := hmore
  cases more with
  | nil => exact apart_nil_left
  | cons c more =>
      intro b hb
      exact h b (by simpa [List.getLast?_append] using hb)

theorem byteCount_toList (source : String) : byteCount source.toList = source.utf8ByteSize := by
  rw [byteCount_eq_utf8ByteSize, String.ofList_toList]

/-! ## Sorts of characters -/

theorem not_isBlank_of_isWordChar (h : isWordChar c) : ¬isBlank c := by
  intro hblank
  simp only [isBlank, Bool.or_eq_true, decide_eq_true_eq] at hblank
  obtain ((rfl | rfl) | rfl) | rfl := hblank <;> revert h <;> decide

theorem not_isBlank_of_isDigit (h : isDigit c) : ¬isBlank c := by
  intro hblank
  simp only [isBlank, Bool.or_eq_true, decide_eq_true_eq] at hblank
  obtain ((rfl | rfl) | rfl) | rfl := hblank <;> revert h <;> decide

theorem not_isWordChar_of_isDigit (h : isDigit c) : ¬isWordChar c := by
  simp only [isDigit, isWordChar, Bool.and_eq_true, Bool.or_eq_true, decide_eq_true_eq,
    Char.le_def] at h ⊢
  rintro ((⟨hlow, -⟩ | ⟨hlow, -⟩) | rfl)
  · exact absurd (UInt32.le_trans hlow h.2) (by decide)
  · exact absurd (UInt32.le_trans hlow h.2) (by decide)
  · revert h
    decide

/-- No token goes on over a blank. -/
theorem not_joins_of_isBlank (h : isBlank c) : ¬Joins c d := by
  rintro (⟨hword, -⟩ | ⟨hdigit, -⟩ | ⟨hsign, -⟩)
  · exact not_isBlank_of_isWordChar hword h
  · exact not_isBlank_of_isDigit hdigit h
  · rcases hsign with rfl | rfl <;> cases h

/-! ## Words -/

theorem Keyword.ofSpelling?_eq_none_iff {word : String} :
    Keyword.ofSpelling? word = none ↔ ∀ w : Keyword, word ≠ w.spelling := by
  constructor
  · rintro h w rfl
    rw [Keyword.ofSpelling?_spelling] at h
    cases h
  · intro h
    cases hw : Keyword.ofSpelling? word with
    | none => rfl
    | some w => exact absurd (Keyword.spelling_of_ofSpelling? hw).symm (h w)

theorem Keyword.letters (w : Keyword) : ∀ c ∈ w.spelling.toList, isWordChar c :=
  List.all_eq_true.mp (by cases w <;> decide)

theorem Kind.ofWord_eq_ident_iff {word : String} :
    Kind.ofWord word = .ident ↔ ∀ w : Keyword, word ≠ w.spelling := by
  rw [← Keyword.ofSpelling?_eq_none_iff]
  unfold Kind.ofWord
  split <;> simp [*]

/-! ## One token -/

theorem takeWhile_append_of_head {p : Char → Bool} (h : ∀ d ∈ ds.head?, (∀ c ∈ cs, p c) → ¬p d) :
    (cs ++ ds).takeWhile p = cs.takeWhile p := by
  rw [List.takeWhile_append]
  split
  next hall =>
    have heq := (List.takeWhile_prefix p).eq_of_length hall
    have hcs : ∀ c ∈ cs, p c := by
      rw [← heq]
      exact List.all_eq_true.mp List.all_takeWhile
    rw [heq]
    cases ds with
    | nil => exact List.append_nil cs
    | cons d ds => rw [List.takeWhile_cons_of_neg (h d rfl hcs), List.append_nil]
  next => rfl

theorem takeWhile_append_eq_left {p : Char → Bool} (hcs : ∀ c ∈ cs, p c)
    (hnext : ∀ d ∈ ds.head?, ¬p d) : (cs ++ ds).takeWhile p = cs := by
  rw [List.takeWhile_append_of_pos hcs]
  cases ds with
  | nil => exact List.append_nil cs
  | cons d ds => rw [List.takeWhile_cons_of_neg (hnext d rfl), List.append_nil]

theorem lexeme_word (h : isWordChar c) :
    lexeme c cs =
      (Kind.ofWord (String.ofList (c :: cs.takeWhile isWordChar)), cs.takeWhile isWordChar) := by
  unfold lexeme
  exact if_pos h

theorem lexeme_digit (hword : ¬isWordChar c) (hdigit : isDigit c) :
    lexeme c cs = (.int, cs.takeWhile isDigit) := by
  unfold lexeme
  rw [if_neg hword, if_pos hdigit]

/-- Marks are single characters, except where an equals sign follows another one or an
exclamation mark. -/
theorem lexeme_mark (hword : ¬isWordChar c) (hdigit : ¬isDigit c) :
    lexeme c cs =
      if c = '=' ∧ cs.head? = some '=' then (.eq, ['='])
      else if c = '!' ∧ cs.head? = some '=' then (.notEq, ['='])
      else (Kind.ofMark c, []) := by
  unfold lexeme
  rw [if_neg hword, if_neg hdigit]
  split
  · rfl
  · rfl
  next h₁ h₂ =>
    cases cs with
    | nil => simp
    | cons d cs =>
        rw [if_neg, if_neg]
        · rintro ⟨rfl, hd⟩
          exact h₂ cs rfl (by rw [List.head?_cons, Option.some.injEq] at hd; rw [hd])
        · rintro ⟨rfl, hd⟩
          exact h₁ cs rfl (by rw [List.head?_cons, Option.some.injEq] at hd; rw [hd])

/-- What is appended apart from a text leaves its first token as it is. -/
theorem lexeme_append (h : Apart (c :: cs) ds) : lexeme c (cs ++ ds) = lexeme c cs := by
  have hrun : ∀ p : Char → Bool, p c → (∀ b d, p b → p d → Joins b d) →
      (cs ++ ds).takeWhile p = cs.takeWhile p := by
    intro p hc hjoins
    refine takeWhile_append_of_head fun d hd hcs hpd => ?_
    obtain ⟨b, hb⟩ : ∃ b, b ∈ (c :: cs).getLast? := by
      simp [List.getLast?_eq_some_getLast]
    have hpb : p b := by
      obtain rfl | hmem := List.mem_cons.mp (List.mem_of_mem_getLast? hb)
      · exact hc
      · exact hcs b hmem
    exact h b hb d hd (hjoins b d hpb hpd)
  by_cases hword : isWordChar c
  · rw [lexeme_word hword, lexeme_word hword,
      hrun isWordChar hword fun b d hb hd => .inl ⟨hb, hd⟩]
  by_cases hdigit : isDigit c
  · rw [lexeme_digit hword hdigit, lexeme_digit hword hdigit,
      hrun isDigit hdigit fun b d hb hd => .inr (.inl ⟨hb, hd⟩)]
  rw [lexeme_mark hword hdigit, lexeme_mark hword hdigit]
  cases cs with
  | cons b cs => rfl
  | nil =>
      have hnone : ∀ d ∈ ds.head?, ¬((c = '=' ∨ c = '!') ∧ d = '=') :=
        fun d hd hmark => h c rfl d hd (.inr (.inr hmark))
      have heq : ¬(c = '=' ∧ ds.head? = some '=') := fun hc => hnone '=' hc.2 ⟨.inl hc.1, rfl⟩
      have hbang : ¬(c = '!' ∧ ds.head? = some '=') := fun hc => hnone '=' hc.2 ⟨.inr hc.1, rfl⟩
      simp [heq, hbang]

/-- The characters that belong to the first token come first. -/
theorem lexeme_append_drop : (lexeme c cs).2 ++ cs.drop (lexeme c cs).2.length = cs := by
  suffices h : (lexeme c cs).2 <+: cs by
    obtain ⟨rest, hrest⟩ := h
    generalize (lexeme c cs).2 = more at hrest ⊢
    rw [← hrest, List.drop_left]
  unfold lexeme
  split
  · exact List.takeWhile_prefix _
  split
  · exact List.takeWhile_prefix _
  split <;> simp

/-! ## All tokens -/

theorem scan_nil : scan offset [] = [] := by
  rw [scan, Scanner.tokens]
  rfl

theorem scan_blank (h : isBlank c) : scan offset (c :: cs) = scan (offset + c.utf8Size) cs := by
  have hskip : (Scanner.mk (c :: cs) offset).skipBlanks =
      (Scanner.mk cs (offset + c.utf8Size)).skipBlanks := by
    simp only [Scanner.skipBlanks, List.dropWhile_cons_of_pos h, List.takeWhile_cons_of_pos h,
      byteCount_cons, Nat.add_assoc]
  have hnext : (Scanner.mk (c :: cs) offset).next? =
      (Scanner.mk cs (offset + c.utf8Size)).next? := by
    unfold Scanner.next?
    rw [hskip]
  rw [scan, scan, Scanner.tokens, Scanner.tokens]
  split <;> split <;> simp_all

theorem scan_cons (h : ¬isBlank c) :
    scan offset (c :: cs) =
      ⟨(lexeme c cs).1, String.ofList (c :: (lexeme c cs).2),
        ⟨offset, offset + byteCount (c :: (lexeme c cs).2)⟩⟩ ::
      scan (offset + byteCount (c :: (lexeme c cs).2)) (cs.drop (lexeme c cs).2.length) := by
  have hnext : (Scanner.mk (c :: cs) offset).next? =
      some (⟨(lexeme c cs).1, String.ofList (c :: (lexeme c cs).2),
        ⟨offset, offset + byteCount (c :: (lexeme c cs).2)⟩⟩,
        ⟨cs.drop (lexeme c cs).2.length, offset + byteCount (c :: (lexeme c cs).2)⟩) := by
    simp only [Scanner.next?, Scanner.skipBlanks, List.dropWhile_cons_of_neg h,
      List.takeWhile_cons_of_neg h]
    rfl
  rw [scan, Scanner.tokens]
  split <;> simp_all [scan]

/-- The tokens of two texts that no token joins are those of the one and then those of
the other. -/
theorem scan_append {offset : Nat} {cs ds : List Char} (h : Apart cs ds) :
    scan offset (cs ++ ds) = scan offset cs ++ scan (offset + byteCount cs) ds := by
  match cs, h with
  | [], _ => simp [scan_nil, byteCount_nil]
  | c :: cs, h =>
      by_cases hblank : isBlank c
      · rw [List.cons_append, scan_blank hblank, scan_blank hblank,
          scan_append (h.of_suffix (List.suffix_cons c cs)), byteCount_cons, Nat.add_assoc]
      · have hlexeme := lexeme_append h
        have hdrop : (lexeme c cs).2 ++ cs.drop (lexeme c cs).2.length = cs :=
          lexeme_append_drop
        rw [List.cons_append, scan_cons hblank, scan_cons hblank, hlexeme]
        generalize lexeme c cs = word at hdrop ⊢
        have hle : word.2.length ≤ cs.length := by
          rw [← hdrop]
          simp
        have hsuffix : cs.drop word.2.length <:+ c :: cs :=
          (List.drop_suffix _ _).trans (List.suffix_cons c cs)
        rw [List.drop_append_of_le_length hle, scan_append (h.of_suffix hsuffix),
          List.cons_append, Nat.add_assoc, ← byteCount_append, List.cons_append, hdrop]
termination_by cs.length

/-- The same token when `n` bytes are put before the text. -/
def Token.shift (n : Nat) (t : Token) : Token :=
  { t with span := t.span.shift n }

theorem scan_eq_nil_of_blanks {offset : Nat} {ds : List Char} (h : ∀ d ∈ ds, isBlank d) :
    scan offset ds = [] := by
  induction ds generalizing offset with
  | nil => exact scan_nil
  | cons d ds ih =>
      rw [scan_blank (h d List.mem_cons_self)]
      exact ih fun b hb => h b (List.mem_cons_of_mem d hb)

/-- Blanks at the end of a text are not part of a token. -/
theorem scan_append_blanks (h : ∀ d ∈ ds, isBlank d) :
    scan offset (cs ++ ds) = scan offset cs := by
  have hapart : Apart cs ds := by
    cases ds with
    | nil => exact fun _ _ _ hd => absurd hd (by simp)
    | cons d ds =>
        have hd := h d List.mem_cons_self
        refine apart_cons (fun hword => not_isBlank_of_isWordChar hword hd)
          (fun hdigit => not_isBlank_of_isDigit hdigit hd) ?_
        rintro rfl
        cases hd
  rw [scan_append hapart, scan_eq_nil_of_blanks h, List.append_nil]

/-- The tokens of a text are the same wherever it stands, but for their places. -/
theorem scan_shift {n offset : Nat} {cs : List Char} :
    scan (offset + n) cs = (scan offset cs).map (Token.shift n) := by
  match cs with
  | [] => rw [scan_nil, scan_nil, List.map_nil]
  | c :: cs =>
      by_cases hblank : isBlank c
      · rw [scan_blank hblank, scan_blank hblank, Nat.add_right_comm, scan_shift]
      · have hlen := List.length_drop (i := (lexeme c cs).2.length) (l := cs)
        rw [scan_cons hblank, scan_cons hblank, Nat.add_right_comm, scan_shift, List.map_cons]
        rfl
termination_by cs.length

theorem scan_eq_map (n : Nat) (source : String) :
    scan n source.toList = (tokenize source).map (Token.shift n) := by
  rw [← Nat.zero_add n, scan_shift, Nat.zero_add]
  rfl

/-! ## The first of several tokens -/

/-- The token of this kind that is cut from the characters. -/
def Token.cut (kind : Kind) (cs : List Char) (offset : Nat) : Token :=
  ⟨kind, String.ofList cs, ⟨offset, offset + byteCount cs⟩⟩

/-- Every token is the longest one at the place where it begins. -/
theorem exists_lexeme_of_mem_scan {t : Token} {offset : Nat} {cs : List Char}
    (ht : t ∈ scan offset cs) :
    ∃ c ds, t.kind = (lexeme c ds).1 ∧ t.literal = String.ofList (c :: (lexeme c ds).2) := by
  match cs with
  | [] => simp [scan_nil] at ht
  | c :: cs =>
      by_cases hblank : isBlank c
      · rw [scan_blank hblank] at ht
        exact exists_lexeme_of_mem_scan ht
      · rw [scan_cons hblank] at ht
        obtain rfl | ht := List.mem_cons.mp ht
        · exact ⟨c, cs, rfl, rfl⟩
        · have hlen := List.length_drop (i := (lexeme c cs).2.length) (l := cs)
          exact exists_lexeme_of_mem_scan ht
termination_by cs.length

theorem le_start_of_mem_scan {t : Token} {offset : Nat} {cs : List Char}
    (ht : t ∈ scan offset cs) : offset ≤ t.span.start := by
  match cs with
  | [] => simp [scan_nil] at ht
  | c :: cs =>
      by_cases hblank : isBlank c
      · rw [scan_blank hblank] at ht
        exact Nat.le_of_add_right_le (le_start_of_mem_scan ht)
      · rw [scan_cons hblank] at ht
        obtain rfl | ht := List.mem_cons.mp ht
        · exact Nat.le_refl offset
        · have hlen := List.length_drop (i := (lexeme c cs).2.length) (l := cs)
          exact Nat.le_of_add_right_le (le_start_of_mem_scan ht)
termination_by cs.length

/-- No two tokens of a text are the same, since they begin at different places. -/
theorem nodup_scan {offset : Nat} {cs : List Char} : (scan offset cs).Nodup := by
  match cs with
  | [] =>
      rw [scan_nil]
      exact List.nodup_nil
  | c :: cs =>
      by_cases hblank : isBlank c
      · rw [scan_blank hblank]
        exact nodup_scan
      · have hlen := List.length_drop (i := (lexeme c cs).2.length) (l := cs)
        rw [scan_cons hblank]
        refine List.nodup_cons.mpr ⟨fun hmem => ?_, nodup_scan⟩
        have hle := le_start_of_mem_scan hmem
        have hpos := c.utf8Size_pos
        rw [byteCount_cons] at hle
        dsimp only at hle
        omega
termination_by cs.length

/-- A token that reaches exactly to the end of `more` is cut off what follows. -/
theorem scan_cut (hblank : ¬isBlank c) (h : lexeme c (more ++ ds) = (kind, more)) :
    scan offset (c :: (more ++ ds)) =
      Token.cut kind (c :: more) offset :: scan (offset + byteCount (c :: more)) ds := by
  rw [scan_cons hblank, h]
  simp only [List.drop_left]
  rfl

theorem scan_single {kind : Kind} (hblank : ¬isBlank c) (h : lexeme c cs = (kind, cs)) :
    scan offset (c :: cs) = [Token.cut kind (c :: cs) offset] := by
  have hcut : lexeme c (cs ++ []) = (kind, cs) := by rw [List.append_nil, h]
  have hscan : scan offset (c :: (cs ++ [])) = _ := scan_cut hblank hcut
  rwa [List.append_nil, scan_nil] at hscan

/-- A character that is a token by itself, whatever follows. -/
def IsMark (c : Char) : Prop :=
  ¬isBlank c ∧ ¬isWordChar c ∧ ¬isDigit c ∧ c ≠ '=' ∧ c ≠ '!'

instance : Decidable (IsMark c) :=
  inferInstanceAs (Decidable (_ ∧ _))

theorem scan_mark (h : IsMark c) :
    scan offset (c :: cs) =
      Token.cut (Kind.ofMark c) [c] offset :: scan (offset + byteCount [c]) cs := by
  obtain ⟨hblank, hword, hdigit, heq, hbang⟩ := h
  have hcut : lexeme c ([] ++ cs) = (Kind.ofMark c, []) := by
    rw [lexeme_mark hword hdigit, if_neg (fun hc => heq hc.1), if_neg (fun hc => hbang hc.1)]
  exact scan_cut hblank hcut

/-- An equals sign or an exclamation mark is a token by itself if no equals sign
follows. -/
theorem scan_sign (h : c = '=' ∨ c = '!') (hnext : cs.head? ≠ some '=') :
    scan offset (c :: cs) =
      Token.cut (Kind.ofMark c) [c] offset :: scan (offset + byteCount [c]) cs := by
  have hother : ¬isBlank c ∧ ¬isWordChar c ∧ ¬isDigit c := by
    obtain rfl | rfl := h <;> decide
  have hcut : lexeme c ([] ++ cs) = (Kind.ofMark c, []) := by
    rw [lexeme_mark hother.2.1 hother.2.2, if_neg (fun hc => hnext hc.2),
      if_neg (fun hc => hnext hc.2)]
  exact scan_cut hother.1 hcut

/-- A word is one token if no character of a word follows. -/
theorem scan_word (hne : cs ≠ []) (hcs : ∀ c ∈ cs, isWordChar c)
    (hnext : ∀ d ∈ ds.head?, ¬isWordChar d) :
    scan offset (cs ++ ds) =
      Token.cut (Kind.ofWord (String.ofList cs)) cs offset :: scan (offset + byteCount cs) ds := by
  obtain ⟨c, cs, rfl⟩ := List.exists_cons_of_ne_nil hne
  obtain ⟨hc, hcs⟩ := List.forall_mem_cons.mp hcs
  refine scan_cut (not_isBlank_of_isWordChar hc) ?_
  rw [lexeme_word hc, takeWhile_append_eq_left hcs hnext]

/-- The token of a text that is a word. -/
theorem scan_of_word {word : String} (hne : word ≠ "") (hword : ∀ c ∈ word.toList, isWordChar c) :
    scan offset word.toList = [Token.cut (Kind.ofWord word) word.toList offset] := by
  have hnil : word.toList ≠ [] := by simpa using hne
  have hscan : scan offset (word.toList ++ []) = _ := scan_word hnil hword (by simp)
  rwa [List.append_nil, scan_nil, String.ofList_toList] at hscan

/-- Digits are one token if no digit follows. -/
theorem scan_digits (hne : cs ≠ []) (hcs : ∀ c ∈ cs, isDigit c)
    (hnext : ∀ d ∈ ds.head?, ¬isDigit d) :
    scan offset (cs ++ ds) = Token.cut .int cs offset :: scan (offset + byteCount cs) ds := by
  obtain ⟨c, cs, rfl⟩ := List.exists_cons_of_ne_nil hne
  obtain ⟨hc, hcs⟩ := List.forall_mem_cons.mp hcs
  refine scan_cut (not_isBlank_of_isDigit hc) ?_
  rw [lexeme_digit (not_isWordChar_of_isDigit hc) hc, takeWhile_append_eq_left hcs hnext]

end Monkey
