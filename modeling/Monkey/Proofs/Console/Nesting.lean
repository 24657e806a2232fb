import Monkey.Proofs.Console.Brackets
import Monkey.Proofs.Token.Segmentation

/-!
# Brackets that can still be closed

The verdict on a text tells whether its brackets are properly nested, and if they are not,
whether they can become so when the text goes on (`verdict_decides_nesting`). Up to the first
bracket that does not match, the tokens leave nothing behind but the brackets that are open, and
these are closed by what is opposite to them. With that bracket the tokens are no longer the
beginning of properly nested ones.
-/

namespace Monkey.Console

/-- The brackets of a text, in their order. If these are `Nested`, there is nothing between a
bracket and the one that closes it but pairs of brackets. -/
def brackets (source : String) : List Token :=
  (tokenize source).filter fun t => IsBracket t.kind

/-- The tokens are the beginning of properly nested ones. -/
def Nestable (ts : List Token) : Prop :=
  ∃ more, Nested (ts ++ more)

/-- With this token, and not before, the tokens stop being the beginning of properly nested
ones. -/
def FirstUnmatched (t : Token) (ts : List Token) : Prop :=
  ∃ us vs, ts = us ++ t :: vs ∧ Nestable us ∧ ¬Nestable (us ++ [t])

/-- The tokens close the open brackets, the last one first, and are properly nested between
and behind the closing ones. -/
inductive Closes : List Kind → List Token → Prop where
  | nested {us : List Token} : Nested us → Closes [] us
  | close {k : Kind} {opened : List Kind} {u : Token} {us vs : List Token} : Nested us →
      opening? u.kind = some k → Closes opened vs → Closes (k :: opened) (us ++ u :: vs)

/-- Behind the tokens it is the brackets `left` that are open, whatever follows. -/
def Leaves (opened : List Kind) (ts : List Token) (left : List Kind) : Prop :=
  (∀ k ∈ left, IsOpening k) ∧ ∀ more, judge opened (ts ++ more) = judge left more

variable {opened mid left : List Kind} {k : Kind} {t u : Token} {us vs ts more : List Token}

/-! ## Tokens that close what is open -/

namespace Closes

theorem prepend (hus : Nested us) (h : Closes opened vs) : Closes opened (us ++ vs) := by
  cases h with
  | nested hvs => exact .nested (hus.append hvs)
  | close hmid hclose h =>
      rw [← List.append_assoc]
      exact .close (hus.append hmid) hclose h

theorem judge_eq (h : Closes opened ts) : judge opened ts = .closed := by
  induction h with
  | nested hus =>
      have hjudge : judge [] (_ ++ []) = judge [] [] := hus.judge_append
      rwa [List.append_nil] at hjudge
  | close hus hclose _ ih => rw [hus.judge_append, judge_of_close hclose, ih]

theorem of_judge (h : judge opened ts = .closed) : Closes opened ts := by
  induction ts generalizing opened with
  | nil =>
      cases opened with
      | nil => exact .nested .nil
      | cons k opened => cases h
  | cons t ts ih =>
      obtain hopen | ⟨k, hclose⟩ | hother := sort_of_token t
      · -- the bracket is closed further on, and up to there the tokens are properly nested
        rw [judge_of_opening hopen] at h
        cases ih h with
        | @close _ _ u us vs hus hclose hvs =>
            have henclosed : Nested (t :: us ++ [u]) := hus.inside hclose
            simpa using hvs.prepend henclosed
      · by_cases hhead : opened.head? = some k
        · obtain ⟨opened, rfl⟩ := List.head?_eq_some_iff.mp hhead
          rw [judge_of_close hclose] at h
          exact .close .nil hclose (ih h)
        · cases (judge_of_mismatch hclose hhead).symm.trans h
      · rw [judge_of_other hother] at h
        exact (ih h).prepend (.single hother)

end Closes

theorem nested_iff : Nested ts ↔ judge [] ts = .closed := by
  refine ⟨fun h => (Closes.nested h).judge_eq, fun h => ?_⟩
  cases Closes.of_judge h with
  | nested hts => exact hts

/-! ## What tokens leave open -/

namespace Leaves

theorem nil (h : ∀ k ∈ opened, IsOpening k) : Leaves opened [] opened :=
  ⟨h, fun _ => rfl⟩

theorem append (hus : Leaves opened us mid) (hvs : Leaves mid vs left) :
    Leaves opened (us ++ vs) left := by
  refine ⟨hvs.1, fun more => ?_⟩
  rw [List.append_assoc, hus.2, hvs.2]

theorem not_unmatched (h : Leaves opened ts left) : judge opened ts ≠ .unmatched t := by
  have hjudge := h.2 []
  rw [List.append_nil] at hjudge
  rw [hjudge]
  exact not_unmatched_of_nil

end Leaves

/-- Either all tokens match, or there is a first one that does not. -/
theorem leaves_or_unmatched (h : ∀ k ∈ opened, IsOpening k) (ts : List Token) :
    (∃ left, Leaves opened ts left) ∨
    ∃ us t vs, ts = us ++ t :: vs ∧ (∃ left, Leaves opened us left) ∧
      ∀ more, judge opened (us ++ t :: more) = .unmatched t := by
  induction ts generalizing opened with
  | nil => exact .inl ⟨opened, .nil h⟩
  | cons t ts ih =>
      obtain ⟨mid, hmid, hstep⟩ | ⟨-, hstep⟩ := judge_step opened t
      · have hfirst : Leaves opened [t] mid := ⟨hmid h, hstep⟩
        obtain ⟨left, hrest⟩ | ⟨us, u, vs, rfl, ⟨left, hus⟩, hu⟩ := ih hfirst.1
        · exact .inl ⟨left, hfirst.append hrest⟩
        · refine .inr ⟨t :: us, u, vs, rfl, ⟨left, hfirst.append hus⟩, fun more => ?_⟩
          exact (hstep _).trans (hu more)
      · exact .inr ⟨[], t, ts, rfl, ⟨opened, .nil h⟩, hstep⟩

/-- The character that closes a bracket. -/
def closing (k : Kind) : Char :=
  if k = .lparen then ')' else '\x7d'

/-- What is open can be closed by a text. -/
theorem judge_closings {offset : Nat} (h : ∀ k ∈ left, IsOpening k) :
    judge left (scan offset (left.map closing)) = .closed := by
  induction left generalizing offset with
  | nil =>
      rw [List.map_nil, scan_nil]
      rfl
  | cons k left ih =>
      obtain ⟨hk, hleft⟩ := List.forall_mem_cons.mp h
      have hmark : IsMark (closing k) ∧ opening? (Kind.ofMark (closing k)) = some k := by
        obtain rfl | rfl := hk <;> decide
      rw [List.map_cons, scan_mark hmark.1, judge_of_close hmark.2]
      exact ih hleft

theorem apart_closings {cs : List Char} (h : ∀ k ∈ left, IsOpening k) :
    Apart cs (left.map closing) := by
  cases left with
  | nil => exact fun _ _ _ hd => absurd hd (by simp)
  | cons k left =>
      obtain rfl | rfl := (List.forall_mem_cons.mp h).1 <;>
        exact apart_cons (by decide) (by decide) (by decide)

/-! ## Beginnings of properly nested tokens -/

theorem nestable_iff : Nestable ts ↔ ∀ t, judge [] ts ≠ .unmatched t := by
  obtain ⟨left, hts⟩ | ⟨us, t, vs, rfl, -, ht⟩ := leaves_or_unmatched (List.forall_mem_nil _) ts
  · refine ⟨fun _ t => hts.not_unmatched, fun _ => ?_⟩
    refine ⟨scan 0 (left.map closing), nested_iff.mpr ?_⟩
    rw [hts.2, judge_closings hts.1]
  · refine ⟨fun ⟨more, hmore⟩ => ?_, fun h => absurd (ht vs) (h t)⟩
    rw [nested_iff, List.append_assoc, List.cons_append, ht] at hmore
    cases hmore

theorem judge_eq_unmatched_iff : judge [] ts = .unmatched t ↔ FirstUnmatched t ts := by
  constructor
  · intro h
    obtain ⟨left, hts⟩ | ⟨us, u, vs, rfl, ⟨left, hus⟩, hu⟩ :=
      leaves_or_unmatched (List.forall_mem_nil _) ts
    · exact absurd h hts.not_unmatched
    · obtain rfl : u = t := Verdict.unmatched.inj ((hu vs).symm.trans h)
      refine ⟨us, vs, rfl, nestable_iff.mpr fun t => hus.not_unmatched, fun hmore => ?_⟩
      exact nestable_iff.mp hmore u (hu [])
  · rintro ⟨us, vs, rfl, hus, hnot⟩
    obtain ⟨left, hleaves⟩ | ⟨us, u, rest, rfl, -, hu⟩ :=
      leaves_or_unmatched (List.forall_mem_nil _) us
    · obtain ⟨last, hlast, hstep⟩ | ⟨-, hstep⟩ := judge_step left t
      · have hmore : Leaves [] (us ++ [t]) last := hleaves.append ⟨hlast hleaves.1, hstep⟩
        exact absurd (nestable_iff.mpr fun u => hmore.not_unmatched) hnot
      · rw [hleaves.2, hstep]
    · exact absurd (hu rest) (nestable_iff.mp hus u)

/-! ## Texts -/

theorem judge_filter_isBracket :
    judge opened (ts.filter fun t => IsBracket t.kind) = judge opened ts := by
  induction ts generalizing opened with
  | nil => rfl
  | cons t ts ih =>
      by_cases hbracket : IsBracket t.kind
      · rw [List.filter_cons_of_pos (by simpa using hbracket), judge, judge]
        simp only [ih]
      · rw [List.filter_cons_of_neg (by simpa using hbracket), judge_of_other hbracket, ih]

theorem verdict_eq (source : String) : verdict source = judge [] (brackets source) :=
  judge_filter_isBracket.symm

theorem verdict_eq_closed_iff {source : String} :
    verdict source = .closed ↔ Nested (brackets source) := by
  rw [verdict_eq, nested_iff]

/-- A text with brackets that are open can be completed. -/
theorem exists_append_of_unfinished {source : String} (h : verdict source = .unfinished) :
    ∃ more, verdict (source ++ more) = .closed := by
  change judge [] (tokenize source) = _ at h
  obtain ⟨left, hts⟩ | ⟨us, t, vs, heq, -, ht⟩ :=
    leaves_or_unmatched (List.forall_mem_nil _) (tokenize source)
  · refine ⟨String.ofList (left.map closing), ?_⟩
    change judge [] (scan 0 (source ++ String.ofList (left.map closing)).toList) = _
    rw [String.toList_append, String.toList_ofList, scan_append (apart_closings hts.1)]
    exact (hts.2 _).trans (judge_closings hts.1)
  · rw [heq, ht] at h
    cases h

theorem opening?_of_unmatched (h : judge opened ts = .unmatched t) :
    ∃ k, opening? t.kind = some k := by
  induction ts generalizing opened with
  | nil => exact absurd h not_unmatched_of_nil
  | cons u us ih =>
      obtain ⟨opened', -, hstep⟩ | ⟨hclose, hstep⟩ := judge_step opened u
      · rw [hstep] at h
        exact ih h
      · rw [hstep] at h
        obtain rfl := Verdict.unmatched.inj h
        exact hclose

theorem literal_of_closing {before after : List Char}
    (h : StandsBetween before after t.kind t.literal.toList) (hclose : opening? t.kind = some k) :
    t.literal = ")" ∨ t.literal = "\x7d" := by
  generalize hrun : t.literal.toList = run at h
  obtain ⟨ht, -⟩ | ⟨ht, -⟩ := opening?_eq_some_iff.mp hclose
  · rw [ht] at h
    cases h with
    | mark hname => exact .inl (String.toList_inj.mp (hrun.trans hname.symm))
  · rw [ht] at h
    cases h with
    | mark hname => exact .inr (String.toList_inj.mp (hrun.trans hname.symm))

/-- A bracket that does not match is written at the place that is reported. -/
theorem place_of_unmatched {source : String} (h : verdict source = .unmatched t) :
    (t.literal = ")" ∨ t.literal = "\x7d") ∧
    ∃ before after, source = before ++ t.literal ++ after ∧ t.span.start = before.utf8ByteSize := by
  obtain ⟨k, hclose⟩ := opening?_of_unmatched h
  have hmem : t ∈ tokenize source := by
    obtain ⟨us, vs, hts, -⟩ := judge_eq_unmatched_iff.mp h
    rw [hts]
    exact List.mem_append_right us List.mem_cons_self
  obtain ⟨gap, after, heq, hspan, hstands, -⟩ :=
    (segments_tokenize source).slices t hmem
  refine ⟨literal_of_closing hstands hclose, String.ofList gap, String.ofList after, ?_, ?_⟩
  · apply String.toList_inj.mp
    simp [heq]
  · rw [hspan, ← byteCount_eq_utf8ByteSize]
    rfl

/-- The verdict on a text decides whether its brackets are properly nested, and whether they
are so in a text that begins with it. A bracket that is reported is the first one with which the
brackets are no longer the beginning of properly nested ones, and it is reported again however
the text goes on. -/
theorem verdict_decides_nesting (source : String) :
    (verdict source = .closed ↔ Nested (brackets source)) ∧
    (verdict source = .unfinished ↔
      ¬Nested (brackets source) ∧ ∃ more, Nested (brackets (source ++ more))) ∧
    ((∃ t, verdict source = .unmatched t) ↔ ∀ more, ¬Nested (brackets (source ++ more))) ∧
    ∀ t, (verdict source = .unmatched t ↔ FirstUnmatched t (brackets source)) ∧
      (verdict source = .unmatched t →
        (t.literal = ")" ∨ t.literal = "\x7d") ∧
        (∃ before after, source = before ++ t.literal ++ after ∧
          unmatchedMessage t =
            "  - Unmatched '" ++ t.literal ++ "' at position " ++ toString before.utf8ByteSize) ∧
        ∀ more, verdict (source ++ more) = .unmatched t) := by
  have hnever : ∀ t, verdict source = .unmatched t →
      ∀ more, ¬Nested (brackets (source ++ more)) := by
    intro t ht more hmore
    cases (verdict_append_of_unmatched ht).symm.trans (verdict_eq_closed_iff.mpr hmore)
  have hsome : verdict source = .unfinished → ∃ more, Nested (brackets (source ++ more)) := by
    intro h
    obtain ⟨more, hmore⟩ := exists_append_of_unfinished h
    exact ⟨more, verdict_eq_closed_iff.mp hmore⟩
  refine ⟨verdict_eq_closed_iff, ⟨fun h => ⟨?_, hsome h⟩, fun ⟨hnot, more, hmore⟩ => ?_⟩,
    ⟨fun ⟨t, ht⟩ => hnever t ht, fun h => ?_⟩, fun t => ⟨?_, fun ht => ?_⟩⟩
  · rw [← verdict_eq_closed_iff, h]
    exact Verdict.noConfusion
  · cases hv : verdict source with
    | closed => exact absurd (verdict_eq_closed_iff.mp hv) hnot
    | unfinished => rfl
    | unmatched t => exact absurd hmore (hnever t hv more)
  · cases hv : verdict source with
    | closed =>
        have hnested := verdict_eq_closed_iff.mp hv
        rw [← String.append_empty (s := source)] at hnested
        exact absurd hnested (h "")
    | unfinished =>
        obtain ⟨more, hmore⟩ := hsome hv
        exact absurd hmore (h more)
    | unmatched t => exact ⟨t, rfl⟩
  · rw [verdict_eq, judge_eq_unmatched_iff]
  · obtain ⟨hliteral, before, after, heq, hstart⟩ := place_of_unmatched ht
    refine ⟨hliteral, ⟨before, after, heq, ?_⟩, fun more => verdict_append_of_unmatched ht⟩
    unfold unmatchedMessage
    rw [hstart]

/-- The character before the bracket takes two bytes. -/
theorem braceInParens_is_unmatched :
    verdict "(é\x7d)" = .unmatched { kind := .rbrace, literal := "\x7d", span := ⟨3, 4⟩ } ∧
      verdict "(é\x7d)\x7b" = .unmatched { kind := .rbrace, literal := "\x7d", span := ⟨3, 4⟩ } ∧
    verdict "(é" = .unfinished ∧ ∃ more, Nested (brackets ("(é" ++ more)) := by
  have hbrace : verdict "(é\x7d)" =
      .unmatched { kind := .rbrace, literal := "\x7d", span := ⟨3, 4⟩ } := by
    decide +kernel
  have hopen : verdict "(é" = .unfinished := by decide +kernel
  obtain ⟨-, -, hmore⟩ := ((verdict_decides_nesting _).2.2.2 _).2 hbrace
  exact ⟨hbrace, hmore "\x7b", hopen, ((verdict_decides_nesting _).2.1.mp hopen).2⟩

end Monkey.Console
