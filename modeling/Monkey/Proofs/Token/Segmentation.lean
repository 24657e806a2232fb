import Monkey.Proofs.Token.LongestMatch

/-!
# Tokens as a segmentation

The tokens of a text are cut from it without a gap: what lies between them is blank, and each of
them is the longest match at the place where it begins. These conditions leave no choice: only
one sequence of tokens satisfies them (`tokenize_segments_iff`).
-/

namespace Monkey

/-- The tokens are cut from the characters `cs`, which stand behind `before`. -/
structure Segments (before cs : List Char) (ts : List Token) : Prop where
  /-- Every token is the text at its span, and the longest match there. -/
  slices : ∀ t ∈ ts, ∃ gap after, cs = gap ++ t.literal.toList ++ after ∧
    t.span = ⟨byteCount (before ++ gap), byteCount (before ++ gap ++ t.literal.toList)⟩ ∧
    StandsBetween (before ++ gap) after t.kind t.literal.toList ∧
    LongestMatch t.kind t.literal.toList (t.literal.toList ++ after)
  nonempty : ∀ t ∈ ts, t.span.start < t.span.stop
  ordered : ts.Pairwise fun t u => t.span.stop ≤ u.span.start
  /-- Only blanks lie outside of all tokens. -/
  blanks : ∀ gap c after, cs = gap ++ c :: after → isBlank c ∨
    ∃ t ∈ ts, t.span.start ≤ byteCount (before ++ gap) ∧ byteCount (before ++ gap) < t.span.stop

variable {k : Kind} {c : Char} {before after cs gap more run : List Char} {t : Token}
  {ts : List Token} {offset n : Nat}

/-! ## The tokens are a segmentation -/

theorem eq_nil_of_byteCount_eq_zero (h : byteCount cs = 0) : cs = [] := by
  cases cs with
  | nil => rfl
  | cons c cs =>
      have hpos := c.utf8Size_pos
      rw [byteCount_cons] at h
      omega

theorem byteCount_pos (h : cs ≠ []) : 0 < byteCount cs :=
  Nat.pos_of_ne_zero fun hzero => h (eq_nil_of_byteCount_eq_zero hzero)

/-- Of two beginnings of a text the shorter one is the beginning of the other. -/
theorem exists_append_of_byteCount_le {behind : List Char} (heq : run ++ after = gap ++ behind)
    (hle : byteCount run ≤ byteCount gap) : ∃ more, gap = run ++ more := by
  rcases List.append_eq_append_iff.mp heq with ⟨more, hgap, -⟩ | ⟨more, rfl, -⟩
  · exact ⟨more, hgap⟩
  · rw [byteCount_append] at hle
    obtain rfl : more = [] := eq_nil_of_byteCount_eq_zero (by omega)
    exact ⟨[], by simp⟩

theorem Parted.blank (h : isBlank c) : Parted (before ++ [c]) cs := by
  intro b hb d _
  obtain rfl : c = b := by simpa using hb
  exact ⟨fun hc => not_isBlank_of_isWordChar hc.1 h, fun hc => not_isBlank_of_isDigit hc.1 h⟩

/-- Behind a token that was cut the text is not in the middle of a word or a number. -/
theorem StandsBetween.parted (h : StandsBetween before after k run) :
    Parted (before ++ run) after := by
  intro b hb d hd
  have hlast : b ∈ run.getLast? := by
    rw [List.getLast?_append, List.getLast?_eq_some_getLast h.ne_nil, Option.some_or] at hb
    rwa [List.getLast?_eq_some_getLast h.ne_nil]
  have hrun : b ∈ run := List.mem_of_mem_getLast? hlast
  cases h with
  | name hmax | keyword hmax =>
      exact ⟨fun hc => hmax.after d hd hc.2,
        fun hc => not_isWordChar_of_isDigit hc.1 (hmax.all b hrun)⟩
  | int hmax =>
      exact ⟨fun hc => not_isWordChar_of_isDigit (hmax.all b hrun) hc.1,
        fun hc => hmax.after d hd hc.2⟩
  | equal | notEqual =>
      obtain rfl : '=' = b := Option.some.inj hlast
      exact ⟨fun hc => absurd hc.1 (by decide), fun hc => absurd hc.1 (by decide)⟩
  | mark hname =>
      obtain rfl : _ = b := Option.some.inj hlast
      obtain ⟨-, -, -, hword, hdigit⟩ := Kind.mark_of_name hname
      exact ⟨fun hc => hword hc.1, fun hc => hdigit hc.1⟩
  | illegal _ hword hdigit =>
      obtain rfl : _ = b := Option.some.inj hlast
      exact ⟨fun hc => hword hc.1, fun hc => hdigit hc.1⟩

namespace Segments

theorem nil : Segments before [] [] :=
  ⟨by simp, by simp, .nil, by simp⟩

theorem skip (hblank : isBlank c) (h : Segments (before ++ [c]) cs ts) :
    Segments before (c :: cs) ts := by
  refine ⟨fun t ht => ?_, h.nonempty, h.ordered, fun gap d after heq => ?_⟩
  · obtain ⟨gap, after, rfl, hspan, hstands, hlongest⟩ := h.slices t ht
    refine ⟨c :: gap, after, rfl, ?_, ?_, hlongest⟩
    · simpa using hspan
    · simpa using hstands
  · cases gap with
    | nil =>
        obtain ⟨rfl, -⟩ := List.cons.inj heq
        exact .inl hblank
    | cons _ gap =>
        obtain ⟨rfl, rfl⟩ := List.cons.inj heq
        simpa using h.blanks gap d after rfl

theorem cons (hstands : StandsBetween before after k run)
    (h : Segments (before ++ run) after ts) :
    Segments before (run ++ after) (Token.cut k run (byteCount before) :: ts) := by
  have hpos := byteCount_pos hstands.ne_nil
  refine ⟨?_, ?_, ?_, ?_⟩
  · refine List.forall_mem_cons.mpr ⟨⟨[], after, ?_, ?_, ?_, ?_⟩, fun t ht => ?_⟩
    · simp [Token.cut]
    · simp [Token.cut, byteCount_append]
    · simpa [Token.cut] using hstands
    · simpa [Token.cut] using hstands.longestMatch
    · obtain ⟨gap, after, rfl, hspan, hstands, hlongest⟩ := h.slices t ht
      exact ⟨run ++ gap, after, by simp, by simpa using hspan, by simpa using hstands, hlongest⟩
  · refine List.forall_mem_cons.mpr ⟨?_, h.nonempty⟩
    exact Nat.lt_add_of_pos_right hpos
  · refine List.pairwise_cons.mpr ⟨fun t ht => ?_, h.ordered⟩
    obtain ⟨gap, after, -, hspan, -⟩ := h.slices t ht
    rw [hspan, byteCount_append, byteCount_append]
    exact Nat.le_add_right _ _
  · intro gap d behind heq
    have hlater : ∀ more, gap = run ++ more → after = more ++ d :: behind → isBlank d ∨
        ∃ t ∈ Token.cut k run (byteCount before) :: ts,
          t.span.start ≤ byteCount (before ++ gap) ∧ byteCount (before ++ gap) < t.span.stop := by
      rintro more rfl hafter
      obtain hblank | ⟨t, ht, hcovers⟩ := h.blanks more d behind hafter
      · exact .inl hblank
      · exact .inr ⟨t, List.mem_cons_of_mem _ ht, by simpa using hcovers⟩
    rcases List.append_eq_append_iff.mp heq with ⟨more, hgap, hafter⟩ | ⟨more, hrun, hbehind⟩
    · exact hlater more hgap hafter
    cases more with
    | nil =>
        rw [List.append_nil] at hrun
        exact hlater [] (by rw [hrun, List.append_nil]) hbehind.symm
    | cons e more =>
        refine .inr ⟨_, List.mem_cons_self, ?_, ?_⟩
        · rw [byteCount_append]
          exact Nat.le_add_right _ _
        · have hmore := byteCount_pos (List.cons_ne_nil e more)
          simp only [Token.cut, hrun, byteCount_append]
          omega

/-- The tokens that are cut from a text are a segmentation of it. -/
theorem scan {before cs : List Char} (h : Parted before cs) :
    Segments before cs (scan (byteCount before) cs) := by
  match cs, h with
  | [], _ =>
      rw [scan_nil]
      exact nil
  | c :: cs, h =>
      by_cases hblank : isBlank c
      · have hparted : Parted (before ++ [c]) cs := .blank hblank
        have hmore := scan hparted
        rw [byteCount_append] at hmore
        rw [scan_blank hblank]
        exact hmore.skip hblank
      · have hlen := List.length_drop (i := (lexeme c cs).2.length) (l := cs)
        have hstands := standsBetween_lexeme hblank h lexeme_append_drop
        have hmore := scan hstands.parted
        rw [byteCount_append] at hmore
        have hcons := cons hstands hmore
        rw [List.cons_append, lexeme_append_drop] at hcons
        rw [scan_cons hblank]
        exact hcons
termination_by cs.length

/-! ## There is no other segmentation -/

theorem eq_nil (h : Segments before [] ts) : ts = [] := by
  refine List.eq_nil_iff_forall_not_mem.mpr fun t ht => ?_
  obtain ⟨gap, after, heq, -, hstands, -⟩ := h.slices t ht
  obtain ⟨hgap, -⟩ := List.append_eq_nil_iff.mp heq.symm
  exact hstands.ne_nil (List.append_eq_nil_iff.mp hgap).2

theorem of_skip (hblank : isBlank c) (h : Segments before (c :: cs) ts) :
    Segments (before ++ [c]) cs ts := by
  refine ⟨fun t ht => ?_, h.nonempty, h.ordered, fun gap d after heq => ?_⟩
  · obtain ⟨gap, after, heq, hspan, hstands, hlongest⟩ := h.slices t ht
    cases gap with
    | nil =>
        -- a token does not begin with a blank
        obtain ⟨d, more, hd⟩ := List.exists_cons_of_ne_nil hstands.ne_nil
        rw [hd] at hstands heq
        obtain ⟨rfl, -⟩ := List.cons.inj heq
        exact absurd hblank hstands.lexeme_eq.1
    | cons e gap =>
        obtain ⟨rfl, hcs⟩ := List.cons.inj heq
        exact ⟨gap, after, hcs, by simpa using hspan, by simpa using hstands, hlongest⟩
  · simpa using h.blanks (c :: gap) d after (by rw [heq, List.cons_append])

/-- Where the text is not blank, the first token begins. -/
theorem exists_cons (hblank : ¬isBlank c) (h : Segments before (c :: cs) ts) :
    ∃ k more after us, cs = more ++ after ∧ lexeme c (more ++ after) = (k, more) ∧
      ts = Token.cut k (c :: more) (byteCount before) :: us := by
  obtain hc | ⟨t, ht, hstart, hstop⟩ := h.blanks [] c cs rfl
  · exact absurd hc hblank
  rw [List.append_nil] at hstart hstop
  obtain ⟨gap, after, heq, hspan, hstands, -⟩ := h.slices t ht
  -- a token that covers the first character does not begin behind it
  obtain rfl : gap = [] := by
    rw [hspan, byteCount_append] at hstart
    exact eq_nil_of_byteCount_eq_zero (by dsimp only at hstart; omega)
  rw [List.append_nil] at hspan hstands
  obtain ⟨d, more, hliteral⟩ := List.exists_cons_of_ne_nil hstands.ne_nil
  rw [hliteral] at heq hspan hstands
  obtain ⟨rfl, hcs⟩ := List.cons.inj heq
  obtain ⟨-, hlexeme⟩ := hstands.lexeme_eq
  have hcut : t = Token.cut t.kind (c :: more) (byteCount before) := by
    rw [Token.cut, ← hliteral, String.ofList_toList, hliteral, ← byteCount_append, ← hspan]
  -- nor does any other token begin before it
  cases ts with
  | nil => cases ht
  | cons u us =>
      obtain rfl | hmem := List.mem_cons.mp ht
      · exact ⟨t.kind, more, after, us, hcs, hlexeme, congrArg (· :: us) hcut⟩
      · have hbefore := (List.pairwise_cons.mp h.ordered).1 t hmem
        have hpos := h.nonempty u List.mem_cons_self
        obtain ⟨gap, _, -, hspan', -⟩ := h.slices u List.mem_cons_self
        rw [hspan', byteCount_append] at hpos
        rw [hspan', hspan] at hbefore
        dsimp only at hpos hbefore
        omega

theorem of_cons (h : Segments before (run ++ after) (Token.cut k run (byteCount before) :: ts)) :
    Segments (before ++ run) after ts := by
  obtain ⟨hfirst, hordered⟩ := List.pairwise_cons.mp h.ordered
  refine ⟨fun t ht => ?_, fun t ht => h.nonempty t (List.mem_cons_of_mem _ ht), hordered, ?_⟩
  · obtain ⟨gap, behind, heq, hspan, hstands, hlongest⟩ := h.slices t (List.mem_cons_of_mem _ ht)
    have hle := hfirst t ht
    simp only [hspan, Token.cut, byteCount_append] at hle
    rw [List.append_assoc] at heq
    obtain ⟨more, rfl⟩ := exists_append_of_byteCount_le heq (by omega)
    refine ⟨more, behind, ?_, by simpa using hspan, by simpa using hstands, hlongest⟩
    simpa using heq
  · intro gap d behind heq
    obtain hblank | ⟨t, ht, hcovers⟩ :=
      h.blanks (run ++ gap) d behind (by rw [heq, List.append_assoc])
    · exact .inl hblank
    rw [← List.append_assoc] at hcovers
    obtain rfl | ht := List.mem_cons.mp ht
    · have hlt := hcovers.2
      simp only [Token.cut, byteCount_append] at hlt
      omega
    · exact .inr ⟨t, ht, hcovers⟩

theorem eq_scan {before cs : List Char} {ts : List Token} (h : Segments before cs ts) :
    ts = Monkey.scan (byteCount before) cs := by
  match cs, h with
  | [], h => rw [scan_nil, h.eq_nil]
  | c :: cs, h =>
      by_cases hblank : isBlank c
      · rw [(h.of_skip hblank).eq_scan, byteCount_append, scan_blank hblank]
        rfl
      · obtain ⟨k, more, after, us, rfl, hlexeme, rfl⟩ := h.exists_cons hblank
        have hlen : (more ++ after).length = more.length + after.length := List.length_append
        have hrest : Segments (before ++ c :: more) after us := of_cons h
        rw [hrest.eq_scan, scan_cut hblank hlexeme, byteCount_append]
termination_by cs.length

end Segments

/-! ## Token by token -/

namespace Scanner

theorem tokens_of_none {s : Scanner} (h : s.next? = none) : s.tokens = [] := by
  rw [tokens]
  split <;> simp_all

theorem tokens_of_some {s s' : Scanner} (h : s.next? = some (t, s')) :
    s.tokens = t :: s'.tokens := by
  rw [tokens]
  split <;> simp_all

/-- What is cut off is the next token, behind the blanks the scanner stands before. -/
theorem cut_of_some {s s' : Scanner} (h : s.next? = some (t, s')) :
    s.rest = s.rest.takeWhile isBlank ++ t.literal.toList ++ s'.rest ∧
      t.span.start = s.offset + byteCount (s.rest.takeWhile isBlank) ∧
      t.span.stop = t.span.start + byteCount t.literal.toList ∧ s'.offset = t.span.stop := by
  unfold next? at h
  split at h
  · cases h
  next c cs offset hskip =>
    obtain ⟨hrest, hoffset⟩ := Scanner.mk.inj hskip
    have hword : (lexeme c cs).2 ++ cs.drop (lexeme c cs).2.length = cs := lexeme_append_drop
    generalize lexeme c cs = word at h hword
    obtain ⟨rfl, rfl⟩ := Prod.mk.inj (Option.some.inj h)
    refine ⟨?_, hoffset.symm, by rw [String.toList_ofList], rfl⟩
    rw [String.toList_ofList, List.append_assoc, List.cons_append, hword, ← hrest,
      List.takeWhile_append_dropWhile]

/-- Where the text of the scanner ends. -/
def stop (s : Scanner) : Nat :=
  s.offset + byteCount s.rest

theorem stop_skipBlanks (s : Scanner) : s.skipBlanks.stop = s.stop := by
  rw [stop, skipBlanks, Nat.add_assoc, ← byteCount_append, List.takeWhile_append_dropWhile, stop]

theorem stop_of_some {s s' : Scanner} (h : s.next? = some (t, s')) : s'.stop = s.stop := by
  unfold next? at h
  split at h
  · cases h
  next c cs offset hskip =>
    rw [Option.some.injEq, Prod.mk.injEq] at h
    rw [← stop_skipBlanks s, ← h.2, hskip]
    simp only [stop, Nat.add_assoc, ← byteCount_append, List.cons_append, lexeme_append_drop]

theorem skipBlanks_of_none {s : Scanner} (h : s.next? = none) : s.skipBlanks = ⟨[], s.stop⟩ := by
  unfold next? at h
  split at h
  next offset hskip =>
    rw [← stop_skipBlanks s, hskip]
    rfl
  · cases h

/-- A scanner gives its first token, or the end of the text, and goes on with the others. -/
theorem next_spec (s : Scanner) :
    s.next.1 = s.tokens[0]?.getD (.eof s.stop) ∧ s.next.2.tokens = s.tokens.tail ∧
      s.next.2.stop = s.stop := by
  cases h : s.next? with
  | none =>
      have hskip := skipBlanks_of_none h
      have hnext : s.next = (.eof s.stop, ⟨[], s.stop⟩) := by
        rw [next, h, hskip]
        rfl
      rw [hnext, tokens_of_none h]
      exact ⟨rfl, scan_nil, rfl⟩
  | some r =>
      obtain ⟨t, s'⟩ := r
      rw [next, h, tokens_of_some h]
      exact ⟨rfl, rfl, stop_of_some h⟩

theorem take_eq (n : Nat) (s : Scanner) :
    take n s = (List.range n).map fun i => s.tokens[i]?.getD (.eof s.stop) := by
  induction n generalizing s with
  | zero => rfl
  | succ n ih =>
      obtain ⟨hfirst, hmore, hstop⟩ := s.next_spec
      rw [take, ih, hfirst, hmore, hstop, List.range_succ_eq_map, List.map_cons, List.map_map]
      simp [Function.comp_def]

end Scanner

theorem segments_tokenize (source : String) : Segments [] source.toList (tokenize source) :=
  Segments.scan (by simp [Parted])

/-- The tokens of a text begin and end one behind the other. -/
theorem pairwise_tokenize (source : String) :
    (tokenize source).Pairwise fun t u =>
      t.span.start < u.span.start ∧ t.span.stop ≤ u.span.start := by
  have hseg := segments_tokenize source
  refine hseg.ordered.imp_of_mem fun ht _ hle => ⟨?_, hle⟩
  exact Nat.lt_of_lt_of_le (hseg.nonempty _ ht) hle

theorem StandsBetween.kind_ne_eof (h : StandsBetween before after k run) : k ≠ .eof := by
  rintro rfl
  cases h with
  | mark hname =>
      obtain ⟨-, hmem, -⟩ := Kind.mark_of_name hname
      exact absurd hmem (by decide)

theorem kind_ne_eof_of_mem_tokenize {source : String} (ht : t ∈ tokenize source) :
    t.kind ≠ .eof := by
  obtain ⟨_, _, -, -, hstands, -⟩ := (segments_tokenize source).slices t ht
  exact hstands.kind_ne_eof

/-- The tokens of a text are its one segmentation into longest matches, and the scanner gives
them one after another, and then the end of the text again and again. -/
theorem tokenize_segments_iff (source : String) :
    (∀ ts, Segments [] source.toList ts ↔ ts = tokenize source) ∧
    ∀ n, Scanner.take n (.ofString source) =
      (List.range n).map fun i => (tokenize source)[i]?.getD (.eof source.utf8ByteSize) := by
  refine ⟨fun ts => ⟨fun h => h.eq_scan, ?_⟩, fun n => ?_⟩
  · rintro rfl
    exact segments_tokenize source
  · rw [Scanner.take_eq, ← byteCount_toList, ← Nat.zero_add (byteCount source.toList)]
    rfl

end Monkey
