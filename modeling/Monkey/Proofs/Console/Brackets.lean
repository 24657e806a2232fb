import Mathlib.Logic.Basic
import Monkey.Console.Brackets
import Monkey.Proofs.Grammar.Completeness
import Monkey.Proofs.Token.Seam

/-!
# Brackets of programs

The tokens of every phrase of the grammar are properly nested (`nested_of_derives`): each bracket
is closed within the phrase it was opened in. So a text that is read without errors leaves no
bracket open and closes none too many. A bracket that does not match is final, since nothing
that is appended changes the tokens up to it (`judge_append_of_unmatched`).
-/

namespace Monkey.Console

open Grammar

/-- A parenthesis or a brace. -/
def IsBracket (k : Kind) : Prop :=
  k ∈ [Kind.lparen, .rparen, .lbrace, .rbrace]

instance : DecidablePred IsBracket := fun _ =>
  inferInstanceAs (Decidable (_ ∈ _))

/-- Brackets among the tokens are closed by brackets of the same sort, the one that was opened
last first. -/
inductive Nested : List Token → Prop where
  | nil : Nested []
  | cons {t : Token} {ts : List Token} : ¬IsBracket t.kind → Nested ts → Nested (t :: ts)
  | enclose {t u : Token} {us vs : List Token} : opening? u.kind = some t.kind → Nested us →
      Nested vs → Nested (t :: us ++ u :: vs)

variable {opened : List Kind} {k : Kind} {t u : Token} {us vs ts rest : List Token}

/-! ## Verdicts -/

theorem opening?_eq_some_iff {k o : Kind} :
    opening? k = some o ↔ k = .rparen ∧ o = .lparen ∨ k = .rbrace ∧ o = .lbrace := by
  unfold opening?
  split <;> simp_all [eq_comm]

/-- The bracket has to be closed. -/
def IsOpening (k : Kind) : Prop :=
  k = .lparen ∨ k = .lbrace

theorem isOpening_of_opening? {k o : Kind} (h : opening? k = some o) : IsOpening o := by
  obtain ⟨-, rfl⟩ | ⟨-, rfl⟩ := opening?_eq_some_iff.mp h
  · exact .inl rfl
  · exact .inr rfl

theorem not_isOpening_of_opening? {k o : Kind} (h : opening? k = some o) : ¬IsOpening k := by
  obtain ⟨rfl, -⟩ | ⟨rfl, -⟩ := opening?_eq_some_iff.mp h <;> simp [IsOpening]

/-- A token opens a bracket, closes one, or is none. -/
theorem sort_of_token (t : Token) :
    IsOpening t.kind ∨ (∃ k, opening? t.kind = some k) ∨ ¬IsBracket t.kind := by
  by_cases hopen : IsOpening t.kind
  · exact .inl hopen
  refine .inr (or_iff_not_imp_right.mpr fun hbracket => ?_)
  simp only [IsBracket, List.mem_cons, List.not_mem_nil, or_false, not_not] at hbracket
  obtain h | h | h | h := hbracket
  · exact absurd (.inl h) hopen
  · exact ⟨.lparen, by rw [h]; rfl⟩
  · exact absurd (.inr h) hopen
  · exact ⟨.lbrace, by rw [h]; rfl⟩

theorem judge_of_opening (h : IsOpening t.kind) :
    judge opened (t :: ts) = judge (t.kind :: opened) ts := by
  rw [judge]
  exact if_pos h

theorem judge_of_close (h : opening? u.kind = some k) :
    judge (k :: opened) (u :: ts) = judge opened ts := by
  rw [judge, h]
  exact (if_neg (not_isOpening_of_opening? h)).trans (if_pos rfl)

theorem judge_of_mismatch (h : opening? t.kind = some k) (hopened : opened.head? ≠ some k) :
    judge opened (t :: ts) = .unmatched t := by
  rw [judge, h]
  refine (if_neg (not_isOpening_of_opening? h)).trans ?_
  cases opened with
  | nil => rfl
  | cons o opened => exact if_neg fun ho => hopened (congrArg some ho)

theorem judge_of_other (h : ¬IsBracket t.kind) : judge opened (t :: ts) = judge opened ts := by
  simp only [IsBracket, List.mem_cons, List.not_mem_nil, or_false, not_or] at h
  have hclose : opening? t.kind = none := by
    unfold opening?
    split <;> simp_all
  rw [judge, if_neg (by simp [h]), hclose]

/-- What a token does: it changes which brackets are open, or it is a closing bracket that does
not match, whatever follows. -/
theorem judge_step (opened : List Kind) (t : Token) :
    (∃ opened', ((∀ k ∈ opened, IsOpening k) → ∀ k ∈ opened', IsOpening k) ∧
      ∀ ts, judge opened (t :: ts) = judge opened' ts) ∨
    (∃ k, opening? t.kind = some k) ∧ ∀ ts, judge opened (t :: ts) = .unmatched t := by
  obtain hopen | ⟨k, hclose⟩ | hother := sort_of_token t
  · refine .inl ⟨t.kind :: opened, fun h => ?_, fun ts => judge_of_opening hopen⟩
    exact List.forall_mem_cons.mpr ⟨hopen, h⟩
  · by_cases hhead : opened.head? = some k
    · obtain ⟨opened, rfl⟩ := List.head?_eq_some_iff.mp hhead
      refine .inl ⟨opened, fun h => ?_, fun ts => judge_of_close hclose⟩
      exact (List.forall_mem_cons.mp h).2
    · exact .inr ⟨⟨k, hclose⟩, fun ts => judge_of_mismatch hclose hhead⟩
  · exact .inl ⟨opened, id, fun ts => judge_of_other hother⟩

/-- The verdict on what is behind properly nested tokens is the verdict on all. -/
theorem Nested.judge_append (h : Nested us) : judge opened (us ++ rest) = judge opened rest := by
  induction h generalizing opened rest with
  | nil => rfl
  | cons hother _ ih => rw [List.cons_append, judge_of_other hother, ih]
  | enclose hclose _ _ ihs ihv =>
      rw [List.append_assoc, List.cons_append, judge_of_opening (isOpening_of_opening? hclose),
        ihs, List.cons_append, judge_of_close hclose, ihv]

/-! ## Phrases are properly nested -/

theorem not_isBracket_of_unary {op : UnaryOp} (h : UnaryOp.ofKind? t.kind = some op) :
    ¬IsBracket t.kind := by
  unfold UnaryOp.ofKind? at h
  split at h <;> simp_all [IsBracket]

theorem not_isBracket_of_binary {op : BinaryOp} (h : BinaryOp.ofKind? t.kind = some op) :
    ¬IsBracket t.kind := by
  unfold BinaryOp.ofKind? at h
  split at h <;> simp_all [IsBracket]

namespace Nested

theorem append (hus : Nested us) (hvs : Nested vs) : Nested (us ++ vs) := by
  induction hus with
  | nil => exact hvs
  | cons hother _ ih => exact .cons hother ih
  | enclose hclose hus _ _ ih => simpa using Nested.enclose hclose hus ih

theorem single (h : ¬IsBracket t.kind) : Nested [t] :=
  .cons h .nil

/-- Tokens in a pair of brackets. -/
theorem inside (hclose : opening? u.kind = some t.kind) (h : Nested us) :
    Nested (t :: us ++ [u]) :=
  .enclose hclose h .nil

end Nested

/-- The tokens of a phrase are properly nested. -/
theorem nested_of_derives {longest : Bool} {φ : Phrase} (h : Derives longest φ us) :
    Nested us := by
  induction h with
  | done => exact .nil
  | next _ _ _ ih ihs => exact ih.append ihs
  | unclosed _ ih | expr _ ih | block _ ih | looser _ ih | called _ ih | primary _ ih
  | lastExpr _ ih => exact ih
  | closed _ ht ih => exact ih.append (.single (by rw [ht]; decide))
  | let_ ht hname heq _ ih =>
      refine .cons (by rw [ht]; decide) (.cons (by rw [hname]; decide) ?_)
      exact .cons (by rw [heq]; decide) ih
  | return_ ht _ ih => exact .cons (by rw [ht]; decide) ih
  | braces ht _ hu ih => exact ih.inside (by rw [ht, hu]; rfl)
  | binary _ hop _ ihl ihr => exact ihl.append (.cons (not_isBracket_of_binary hop) ihr)
  | unary hop _ ih => exact .cons (not_isBracket_of_unary hop) ih
  | call _ _ ih ihs => exact ih.append ihs
  | ident ht | int ht | true_ ht | false_ ht | lastName ht => exact .single (by rw [ht]; decide)
  | group ht _ hu ih => exact ih.inside (by rw [ht, hu]; rfl)
  | if_ ht hl _ hr _ ihc ihb =>
      exact .cons (by rw [ht]; decide) (.enclose (by rw [hl, hr]; rfl) ihc ihb)
  | ifElse ht hl _ hr _ ho _ ihc ihb iha =>
      refine .append (.cons (by rw [ht]; decide) (.enclose (by rw [hl, hr]; rfl) ihc ihb)) ?_
      exact .cons (by rw [ho]; decide) iha
  | function ht _ _ ihids ihb => exact .cons (by rw [ht]; decide) (ihids.append ihb)
  | noArgs ht hu | noParams ht hu => exact Nested.nil.inside (by rw [ht, hu]; rfl)
  | someArgs ht _ hu ih | someParams ht _ hu ih => exact ih.inside (by rw [ht, hu]; rfl)
  | moreExprs _ ht _ ih ihs => exact ih.append (.cons (by rw [ht]; decide) ihs)
  | moreNames ht hc _ ih => exact .cons (by rw [ht]; decide) (.cons (by rw [hc]; decide) ih)

/-! ## Texts that go on -/

/-- Brackets are tokens by themselves, whatever follows. -/
theorem isMark_of_isBracket {c : Char} {cs : List Char} (h : IsBracket (lexeme c cs).1) :
    IsMark c := by
  by_cases hword : isWordChar c
  · rw [lexeme_word hword, Kind.ofWord] at h
    split at h <;> simp [IsBracket] at h
  by_cases hdigit : isDigit c
  · rw [lexeme_digit hword hdigit] at h
    simp [IsBracket] at h
  rw [lexeme_mark hword hdigit] at h
  split at h
  · simp [IsBracket] at h
  split at h
  · simp [IsBracket] at h
  · revert h
    unfold Kind.ofMark
    split <;> first | (intro h; decide) | (intro h; simp [IsBracket] at h)

/-- What is appended changes the first token only if this one takes in all of the text. -/
theorem lexeme_append_of_lt {c : Char} {cs ds : List Char}
    (h : (lexeme c cs).2.length < cs.length) : lexeme c (cs ++ ds) = lexeme c cs := by
  have hrun : ∀ p : Char → Bool, (cs.takeWhile p).length < cs.length →
      (cs ++ ds).takeWhile p = cs.takeWhile p := by
    intro p hp
    rw [List.takeWhile_append, if_neg (Nat.ne_of_lt hp)]
  by_cases hword : isWordChar c
  · rw [lexeme_word hword] at h
    rw [lexeme_word hword, lexeme_word hword, hrun _ h]
  by_cases hdigit : isDigit c
  · rw [lexeme_digit hword hdigit] at h
    rw [lexeme_digit hword hdigit, lexeme_digit hword hdigit, hrun _ h]
  · rw [lexeme_mark hword hdigit, lexeme_mark hword hdigit]
    cases cs with
    | nil => cases h
    | cons d cs => rfl

theorem not_unmatched_of_nil {opened : List Kind} : judge opened [] ≠ .unmatched t := by
  rw [judge]
  split <;> exact Verdict.noConfusion

theorem judge_cons_of_unmatched
    (hrest : ∀ opened, judge opened ts = .unmatched t → judge opened us = .unmatched t)
    (h : judge opened (u :: ts) = .unmatched t) : judge opened (u :: us) = .unmatched t := by
  obtain ⟨opened', -, hstep⟩ | ⟨-, hstep⟩ := judge_step opened u
  · rw [hstep] at h ⊢
    exact hrest _ h
  · rw [hstep] at h ⊢
    exact h

/-- A bracket that does not match is reported again whatever follows. -/
theorem judge_append_of_unmatched {opened : List Kind} {offset : Nat} {cs ds : List Char}
    (h : judge opened (scan offset cs) = .unmatched t) :
    judge opened (scan offset (cs ++ ds)) = .unmatched t := by
  match cs with
  | [] =>
      rw [scan_nil] at h
      exact absurd h not_unmatched_of_nil
  | c :: cs =>
      by_cases hblank : isBlank c
      · rw [scan_blank hblank] at h
        rw [List.cons_append, scan_blank hblank]
        exact judge_append_of_unmatched h
      by_cases hbracket : IsBracket (lexeme c cs).1
      · have hmark := isMark_of_isBracket hbracket
        rw [scan_mark hmark] at h
        rw [List.cons_append, scan_mark hmark]
        exact judge_cons_of_unmatched (fun _ h => judge_append_of_unmatched h) h
      · rw [scan_cons hblank, judge_of_other hbracket] at h
        -- a token that is followed by another one stays as it is
        have hlt : (lexeme c cs).2.length < cs.length := by
          refine Nat.lt_of_not_le fun hle => ?_
          rw [List.drop_eq_nil_of_le hle, scan_nil] at h
          exact not_unmatched_of_nil h
        have hlen := List.length_drop (i := (lexeme c cs).2.length) (l := cs)
        have hlexeme : lexeme c (cs ++ ds) = lexeme c cs := lexeme_append_of_lt hlt
        rw [List.cons_append, scan_cons hblank, hlexeme, judge_of_other hbracket,
          List.drop_append_of_le_length (Nat.le_of_lt hlt)]
        exact judge_append_of_unmatched h
termination_by cs.length

theorem verdict_append_of_unmatched {source more : String} (h : verdict source = .unmatched t) :
    verdict (source ++ more) = .unmatched t := by
  change judge [] (scan 0 (source ++ more).toList) = _
  rw [String.toList_append]
  exact judge_append_of_unmatched h

/-- A text that is read without errors has all its brackets closed. So a text with brackets that
are open still has an error, and so has every text that begins with one in which a bracket does
not match. -/
theorem verdict_closed_of_parsed (source : String) :
    ((parse source).errors = [] → verdict source = .closed) ∧
    (verdict source = .unfinished → (parse source).errors ≠ []) ∧
    ∀ t, verdict source = .unmatched t → ∀ more, (parse (source ++ more)).errors ≠ [] := by
  have hclosed : ∀ source, (parse source).errors = [] → verdict source = .closed := by
    intro source h
    have hnested : Nested (tokenize source) := nested_of_derives (derives_of_errors_eq_nil h)
    have hjudge : judge [] (tokenize source ++ []) = judge [] [] := hnested.judge_append
    rwa [List.append_nil] at hjudge
  refine ⟨hclosed source, fun hopen herrors => ?_, fun t ht more herrors => ?_⟩
  · cases hopen.symm.trans (hclosed source herrors)
  · have hmore : verdict (source ++ more) = .unmatched t := verdict_append_of_unmatched ht
    cases hmore.symm.trans (hclosed _ herrors)

theorem openBody_and_lateBrace_have_errors :
    verdict "fn(x) \x7b x" = .unfinished ∧ (parse "fn(x) \x7b x").errors ≠ [] ∧
    verdict "x \x7d" = .unmatched { kind := .rbrace, literal := "\x7d", span := ⟨2, 3⟩ } ∧
      (parse "x \x7d \x7b y").errors ≠ [] ∧
    (parse "\x7b x \x7d").errors = [] ∧ verdict "\x7b x \x7d" = .closed := by
  have hopen : verdict "fn(x) \x7b x" = .unfinished := by decide +kernel
  have hlate : verdict "x \x7d" =
      .unmatched { kind := .rbrace, literal := "\x7d", span := ⟨2, 3⟩ } := by
    decide +kernel
  have hread : (parse "\x7b x \x7d").errors = [] := by decide +kernel
  exact ⟨hopen, (verdict_closed_of_parsed _).2.1 hopen, hlate,
    (verdict_closed_of_parsed "x \x7d").2.2 _ hlate " \x7b y", hread,
    (verdict_closed_of_parsed _).1 hread⟩

end Monkey.Console
