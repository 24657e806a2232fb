import Monkey.Proofs.Token.Seam

/-!
# Longest matches

Words and numbers are maximal runs, a mark of two characters is taken wherever both stand side
by side, and any other character that is not blank is a token by itself (`StandsBetween`). What
the scanner cuts off is a token in this sense, and such a token is the longest match at the
place where it begins (`StandsBetween.longestMatch`).
-/

namespace Monkey

/-! ## What a token can be -/

namespace Kind

/-- The kinds that are written in one way only, which is what errors call them. -/
def marks : List Kind :=
  [assign, plus, minus, bang, asterisk, slash, lt, gt, eq, notEq, comma, semicolon, lparen, rparen,
    lbrace, rbrace]

/-- A token of the kind can be written with these characters. An illegal token is none that
can be written, and the end of the input is not written at all. -/
inductive Matches : Kind → List Char → Prop where
  | name {run : List Char} : run ≠ [] → (∀ c ∈ run, isWordChar c) →
      (∀ w : Keyword, String.ofList run ≠ w.spelling) → Matches ident run
  | keyword {w : Keyword} : Matches (keyword w) w.spelling.toList
  | int {run : List Char} : run ≠ [] → (∀ c ∈ run, isDigit c) → Matches int run
  | mark {k : Kind} : k ∈ marks → Matches k k.name.toList

end Kind

/-- No token that begins where `rest` does is longer than the characters `run` of this kind.
If the kind is illegal, then no token begins there at all. -/
structure LongestMatch (k : Kind) (run rest : List Char) : Prop where
  isMatch : k.Matches run ∨ k = .illegal ∧ run.length = 1
  longest : ∀ k' run', Kind.Matches k' run' → run' <+: rest →
    k ≠ .illegal ∧ run'.length ≤ run.length

/-- The characters are all of a sort, and neither the one before them nor the one behind them
is of this sort. -/
structure MaximalRun (sort : Char → Bool) (before run after : List Char) : Prop where
  ne_nil : run ≠ []
  all : ∀ c ∈ run, sort c
  before : ∀ c ∈ before.getLast?, ¬sort c
  after : ∀ c ∈ after.head?, ¬sort c

/-- What the characters of a token are, by its kind, if these characters stand before and
behind it. -/
inductive StandsBetween (before after : List Char) : Kind → List Char → Prop where
  | name {run : List Char} : MaximalRun isWordChar before run after →
      (∀ w : Keyword, String.ofList run ≠ w.spelling) → StandsBetween before after .ident run
  | keyword {w : Keyword} : MaximalRun isWordChar before w.spelling.toList after →
      StandsBetween before after (.keyword w) w.spelling.toList
  | int {run : List Char} : MaximalRun isDigit before run after →
      StandsBetween before after .int run
  | equal : StandsBetween before after .eq ['=', '=']
  | notEqual : StandsBetween before after .notEq ['!', '=']
  | mark {k : Kind} {c : Char} : k.name.toList = [c] →
      ¬((c = '=' ∨ c = '!') ∧ after.head? = some '=') → StandsBetween before after k [c]
  | illegal {c : Char} : ¬isBlank c → ¬isWordChar c → ¬isDigit c →
      (∀ k : Kind, k.name.toList ≠ [c]) → StandsBetween before after .illegal [c]

variable {k : Kind} {c : Char} {before after cs more run : List Char}

/-! ## Marks -/

namespace Kind

/-- A kind called by one character is that of this character, which is neither blank nor of a
word or a number. -/
theorem mark_of_name (h : k.name.toList = [c]) :
    ofMark c = k ∧ k ∈ marks ∧ ¬isBlank c ∧ ¬isWordChar c ∧ ¬isDigit c := by
  cases k with
  | keyword w => cases w <;> simp [name, Keyword.name] at h
  | illegal | eof | ident | int | eq | notEq => simp [name] at h
  | _ =>
      obtain rfl : _ = c := List.singleton_inj.mp h
      decide

theorem name_ofMark (h : ofMark c ≠ illegal) : (ofMark c).name.toList = [c] := by
  unfold ofMark at h ⊢
  split at h
  all_goals first | rfl | exact absurd rfl h

theorem length_name_of_mem_marks : ∀ k ∈ marks, k.name.toList.length = 1 ∨ k = eq ∨ k = notEq := by
  decide

/-- A token is written as a word, as a number, or as a mark of one or two characters. -/
theorem Matches.exists_cons (h : k.Matches run) :
    ∃ c more, run = c :: more ∧
      ((∀ d ∈ run, isWordChar d) ∨ (∀ d ∈ run, isDigit d) ∨ (¬isWordChar c ∧ ¬isDigit c) ∧
        (more = [] ∧ k.name.toList = [c] ∨ (c = '=' ∨ c = '!') ∧ more = ['='])) := by
  cases h with
  | name hne hword =>
      obtain ⟨c, more, rfl⟩ := List.exists_cons_of_ne_nil hne
      exact ⟨c, more, rfl, .inl hword⟩
  | @keyword w =>
      have hne : w.spelling.toList ≠ [] := by cases w <;> decide
      obtain ⟨c, more, heq⟩ := List.exists_cons_of_ne_nil hne
      exact ⟨c, more, heq, .inl w.letters⟩
  | int hne hdigit =>
      obtain ⟨c, more, rfl⟩ := List.exists_cons_of_ne_nil hne
      exact ⟨c, more, rfl, .inr (.inl hdigit)⟩
  | mark hk =>
      obtain hlen | rfl | rfl := length_name_of_mem_marks k hk
      · obtain ⟨c, hc⟩ := List.length_eq_one_iff.mp hlen
        obtain ⟨-, -, -, hsort⟩ := mark_of_name hc
        exact ⟨c, [], hc, .inr (.inr ⟨hsort, .inl ⟨rfl, hc⟩⟩)⟩
      · exact ⟨'=', ['='], rfl, .inr (.inr ⟨by decide, .inr ⟨.inl rfl, rfl⟩⟩)⟩
      · exact ⟨'!', ['='], rfl, .inr (.inr ⟨by decide, .inr ⟨.inr rfl, rfl⟩⟩)⟩

end Kind

/-! ## One token -/

theorem StandsBetween.ne_nil (h : StandsBetween before after k run) : run ≠ [] := by
  cases h with
  | name hrun | keyword hrun | int hrun => exact hrun.ne_nil
  | _ => exact List.cons_ne_nil _ _

theorem MaximalRun.takeWhile {sort : Char → Bool} (h : MaximalRun sort before (c :: more) after) :
    sort c ∧ (more ++ after).takeWhile sort = more := by
  obtain ⟨hc, hmore⟩ := List.forall_mem_cons.mp h.all
  exact ⟨hc, takeWhile_append_eq_left hmore h.after⟩

/-- What a token is, is settled by what stands behind the place where it begins. -/
theorem StandsBetween.lexeme_eq (h : StandsBetween before after k (c :: more)) :
    ¬isBlank c ∧ lexeme c (more ++ after) = (k, more) := by
  generalize hrun : c :: more = run at h
  cases h with
  | name hmax hname =>
      subst hrun
      obtain ⟨hc, htake⟩ := hmax.takeWhile
      refine ⟨not_isBlank_of_isWordChar hc, ?_⟩
      rw [lexeme_word hc, htake, Kind.ofWord_eq_ident_iff.mpr hname]
  | @keyword w hmax =>
      rw [← hrun] at hmax
      obtain ⟨hc, htake⟩ := hmax.takeWhile
      refine ⟨not_isBlank_of_isWordChar hc, ?_⟩
      rw [lexeme_word hc, htake, hrun, String.ofList_toList, Kind.ofWord,
        Keyword.ofSpelling?_spelling]
  | int hmax =>
      subst hrun
      obtain ⟨hc, htake⟩ := hmax.takeWhile
      refine ⟨not_isBlank_of_isDigit hc, ?_⟩
      rw [lexeme_digit (not_isWordChar_of_isDigit hc) hc, htake]
  | equal | notEqual =>
      obtain ⟨rfl, rfl⟩ := List.cons.inj hrun
      exact ⟨by decide, rfl⟩
  | mark hname hnext =>
      obtain ⟨rfl, rfl⟩ := List.cons.inj hrun
      obtain ⟨hmark, -, hblank, hword, hdigit⟩ := Kind.mark_of_name hname
      refine ⟨hblank, ?_⟩
      rw [lexeme_mark hword hdigit, if_neg (fun h => hnext ⟨.inl h.1, h.2⟩),
        if_neg (fun h => hnext ⟨.inr h.1, h.2⟩), hmark]
  | illegal hblank hword hdigit hnone =>
      obtain ⟨rfl, rfl⟩ := List.cons.inj hrun
      refine ⟨hblank, ?_⟩
      have hmark : Kind.ofMark c = .illegal :=
        Decidable.byContradiction fun hne => hnone _ (Kind.name_ofMark hne)
      rw [lexeme_mark hword hdigit, if_neg, if_neg, hmark]
      · rintro ⟨rfl, -⟩
        exact hnone .bang rfl
      · rintro ⟨rfl, -⟩
        exact hnone .assign rfl

/-- A word and a number do not go on behind `before`. -/
def Parted (before cs : List Char) : Prop :=
  ∀ b ∈ before.getLast?, ∀ c ∈ cs.head?, ¬(isWordChar b ∧ isWordChar c) ∧ ¬(isDigit b ∧ isDigit c)

theorem MaximalRun.of_takeWhile {sort : Char → Bool} (hc : sort c)
    (hbefore : ∀ b ∈ before.getLast?, ¬sort b) (hcs : cs.takeWhile sort ++ after = cs) :
    MaximalRun sort before (c :: cs.takeWhile sort) after := by
  refine ⟨List.cons_ne_nil _ _, ?_, hbefore, ?_⟩
  · exact List.forall_mem_cons.mpr ⟨hc, List.all_eq_true.mp List.all_takeWhile⟩
  · have hdrop : after = cs.dropWhile sort := by
      apply List.append_cancel_left
      rw [hcs, List.takeWhile_append_dropWhile]
    intro d hd
    rw [hdrop] at hd
    have hhead := List.head?_dropWhile_not sort cs
    rw [hd] at hhead
    simpa using hhead

/-- The longest token at a place that is not in the middle of a word or a number. -/
theorem standsBetween_lexeme (hblank : ¬isBlank c) (hparted : Parted before (c :: cs))
    (hcs : (lexeme c cs).2 ++ after = cs) :
    StandsBetween before after (lexeme c cs).1 (c :: (lexeme c cs).2) := by
  by_cases hword : isWordChar c
  · rw [lexeme_word hword] at hcs ⊢
    have hmax : MaximalRun isWordChar before _ after :=
      .of_takeWhile hword (fun b hb hc => (hparted b hb c rfl).1 ⟨hc, hword⟩) hcs
    dsimp only
    rw [Kind.ofWord]
    split
    next w hw =>
      rw [← String.toList_ofList (l := c :: _), ← Keyword.spelling_of_ofSpelling? hw] at hmax ⊢
      exact .keyword hmax
    next hnone => exact .name hmax (Keyword.ofSpelling?_eq_none_iff.mp hnone)
  by_cases hdigit : isDigit c
  · rw [lexeme_digit hword hdigit] at hcs ⊢
    exact .int (.of_takeWhile hdigit (fun b hb hc => (hparted b hb c rfl).2 ⟨hc, hdigit⟩) hcs)
  rw [lexeme_mark hword hdigit] at hcs ⊢
  by_cases heq : c = '=' ∧ cs.head? = some '='
  · rw [if_pos heq, heq.1]
    exact .equal
  by_cases hbang : c = '!' ∧ cs.head? = some '='
  · rw [if_neg heq, if_pos hbang, hbang.1]
    exact .notEqual
  rw [if_neg heq, if_neg hbang] at hcs ⊢
  obtain rfl : after = cs := hcs
  by_cases hmark : Kind.ofMark c = .illegal
  · dsimp only
    rw [hmark]
    exact .illegal hblank hword hdigit fun k hk => by
      obtain ⟨hofMark, hmem, -⟩ := Kind.mark_of_name hk
      rw [← hofMark, hmark] at hmem
      revert hmem
      decide
  · exact .mark (Kind.name_ofMark hmark) fun ⟨hc, hnext⟩ =>
      hc.elim (fun hc => heq ⟨hc, hnext⟩) fun hc => hbang ⟨hc, hnext⟩

/-! ## Longest matches -/

theorem MaximalRun.length_le {sort : Char → Bool} (h : MaximalRun sort before run after)
    {run' : List Char} (hbegins : run' <+: run ++ after) (hall : ∀ d ∈ run', sort d) :
    run'.length ≤ run.length := by
  obtain ⟨more, heq⟩ := hbegins
  have htake := takeWhile_append_eq_left h.all h.after
  rw [← heq, List.takeWhile_append_of_pos hall] at htake
  rw [← htake, List.length_append]
  exact Nat.le_add_right _ _

/-- No match at the place of a mark is longer than one character, unless it is one of the
two marks of two characters. -/
theorem Kind.Matches.eq_mark (h : k.Matches run) (hbegins : run <+: c :: after)
    (hword : ¬isWordChar c) (hdigit : ¬isDigit c) :
    run = [c] ∧ k.name.toList = [c] ∨
      (c = '=' ∨ c = '!') ∧ after.head? = some '=' ∧ run = [c, '='] := by
  obtain ⟨d, more, rfl, hsort⟩ := h.exists_cons
  obtain ⟨rfl, hmore⟩ := List.cons_prefix_cons.mp hbegins
  obtain hall | hall | ⟨-, ⟨rfl, hname⟩ | ⟨hd, rfl⟩⟩ := hsort
  · exact absurd (hall d List.mem_cons_self) hword
  · exact absurd (hall d List.mem_cons_self) hdigit
  · exact .inl ⟨rfl, hname⟩
  · obtain ⟨rest, rfl⟩ := hmore
    exact .inr ⟨hd, rfl, rfl⟩

/-- Every match at the place of a word is of characters of a word. -/
theorem Kind.Matches.all_word (h : k.Matches run) (hbegins : run <+: cs)
    (hcs : ∀ c ∈ cs.head?, isWordChar c) : ∀ d ∈ run, isWordChar d := by
  obtain ⟨d, more, rfl, hsort⟩ := h.exists_cons
  obtain ⟨rest, rfl⟩ := hbegins
  have hd : isWordChar d := hcs d rfl
  obtain hall | hall | ⟨⟨hword, -⟩, -⟩ := hsort
  · exact hall
  · exact absurd hd (not_isWordChar_of_isDigit (hall d List.mem_cons_self))
  · exact absurd hd hword

/-- Every match at the place of a number is of digits. -/
theorem Kind.Matches.all_digit (h : k.Matches run) (hbegins : run <+: cs)
    (hcs : ∀ c ∈ cs.head?, isDigit c) : ∀ d ∈ run, isDigit d := by
  obtain ⟨d, more, rfl, hsort⟩ := h.exists_cons
  obtain ⟨rest, rfl⟩ := hbegins
  have hd : isDigit d := hcs d rfl
  obtain hall | hall | ⟨⟨-, hdigit⟩, -⟩ := hsort
  · exact absurd (hall d List.mem_cons_self) (not_isWordChar_of_isDigit hd)
  · exact hall
  · exact absurd hd hdigit

theorem MaximalRun.head {sort : Char → Bool} (h : MaximalRun sort before run after) :
    ∀ c ∈ (run ++ after).head?, sort c := by
  obtain ⟨c, more, rfl⟩ := List.exists_cons_of_ne_nil h.ne_nil
  intro d hd
  obtain rfl : c = d := Option.some.inj hd
  exact h.all c List.mem_cons_self

/-- A token that stands between what is before and behind it is the longest match. -/
theorem StandsBetween.longestMatch (h : StandsBetween before after k run) :
    LongestMatch k run (run ++ after) := by
  cases h with
  | name hmax hname =>
      refine ⟨.inl (.name hmax.ne_nil hmax.all hname), fun k' run' hmatch hbegins => ?_⟩
      exact ⟨Kind.noConfusion, hmax.length_le hbegins (hmatch.all_word hbegins hmax.head)⟩
  | keyword hmax =>
      refine ⟨.inl .keyword, fun k' run' hmatch hbegins => ?_⟩
      exact ⟨Kind.noConfusion, hmax.length_le hbegins (hmatch.all_word hbegins hmax.head)⟩
  | int hmax =>
      refine ⟨.inl (.int hmax.ne_nil hmax.all), fun k' run' hmatch hbegins => ?_⟩
      exact ⟨Kind.noConfusion, hmax.length_le hbegins (hmatch.all_digit hbegins hmax.head)⟩
  | equal =>
      refine ⟨.inl (.mark (k := .eq) (by decide)), fun k' run' hmatch hbegins => ?_⟩
      refine ⟨Kind.noConfusion, ?_⟩
      obtain ⟨rfl, -⟩ | ⟨-, -, rfl⟩ := hmatch.eq_mark hbegins (by decide) (by decide)
      · exact Nat.le_succ 1
      · exact Nat.le_refl 2
  | notEqual =>
      refine ⟨.inl (.mark (k := .notEq) (by decide)), fun k' run' hmatch hbegins => ?_⟩
      refine ⟨Kind.noConfusion, ?_⟩
      obtain ⟨rfl, -⟩ | ⟨-, -, rfl⟩ := hmatch.eq_mark hbegins (by decide) (by decide)
      · exact Nat.le_succ 1
      · exact Nat.le_refl 2
  | mark hname hnext =>
      obtain ⟨-, hmem, -, hword, hdigit⟩ := Kind.mark_of_name hname
      refine ⟨.inl (hname ▸ .mark hmem), fun k' run' hmatch hbegins => ⟨?_, ?_⟩⟩
      · rintro rfl
        revert hmem
        decide
      · obtain ⟨rfl, -⟩ | ⟨hc, heq, -⟩ := hmatch.eq_mark hbegins hword hdigit
        · exact Nat.le_refl 1
        · exact absurd ⟨hc, heq⟩ hnext
  | illegal _ hword hdigit hnone =>
      refine ⟨.inr ⟨rfl, rfl⟩, fun k' run' hmatch hbegins => ?_⟩
      obtain ⟨-, hname⟩ | ⟨rfl | rfl, -⟩ := hmatch.eq_mark hbegins hword hdigit
      · exact absurd hname (hnone k')
      · exact absurd rfl (hnone .assign)
      · exact absurd rfl (hnone .bang)

end Monkey
