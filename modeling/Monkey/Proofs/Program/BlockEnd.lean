import Monkey.Program.Parse.Equations
import Monkey.Proofs.Token.Braces

/-!
# Where a block ends

A statement that gives up on a closing brace ends the block it is in. That is right if the
brace stands where a statement, or an operand, should begin. But an expression also gives up
right behind an inner block, or on a brace that it takes for the beginning of an operand.
These errors are counted, and with them the braces that were taken (`Reply.Counts`): a block
ends at its own closing brace exactly if there are no such errors in it, and too early
otherwise.
-/

namespace Monkey

/-- The token stands before those that are left, if there are any left. -/
def At (tokens : List Token) (last : Token) (ts : List Token) : Prop :=
  ts = [] ∨ last :: ts <:+ tokens

/-- The tokens that were taken off `ts` stayed inside until the last one of them, and opened as
many blocks more than they closed as `level` says; unless there are no tokens left. -/
def Course (ts rest : List Token) (level : Int → Prop) : Prop :=
  ∃ us n, ts = us ++ rest ∧ Rises us n ∧ (rest = [] ∧ 0 ≤ n ∨ level n)

/-- The number of errors that mislead. -/
def misleading (tokens : List Token) (errors : List SyntaxError) : Int :=
  errors.countP (SyntaxError.Misleads tokens)

variable {β γ : Type} {tokens ts rest rest' : List Token} {last t : Token}
  {Q Q' : Token → Prop} {level level' : Int → Prop} {k : Int}

theorem At.suffix (h : At tokens last ts) : ts <:+ tokens := by
  rcases h with rfl | h
  · exact List.nil_suffix
  · exact (List.suffix_cons last ts).trans h

theorem misleading_nonneg {es : List SyntaxError} : 0 ≤ misleading tokens es :=
  Int.natCast_nonneg _

theorem misleading_append {es es' : List SyntaxError} :
    misleading tokens (es ++ es') = misleading tokens es + misleading tokens es' := by
  simp [misleading]

theorem misleading_eq_zero_iff {es : List SyntaxError} :
    misleading tokens es = 0 ↔ ∀ e ∈ es, ¬e.Misleads tokens := by
  simp [misleading]

namespace Course

theorem refl (h : level 0) : Course ts ts level :=
  ⟨[], 0, rfl, .nil, .inr h⟩

theorem single (h : level t.kind.rise) : Course (t :: ts) ts level :=
  ⟨[t], t.kind.rise, rfl, .singleton, .inr h⟩

theorem end_ : Course [] [] level :=
  ⟨[], 0, rfl, .nil, .inl ⟨rfl, Int.le_refl 0⟩⟩

theorem imp (h : Course ts rest level) (himp : ∀ n, level n → level' n) :
    Course ts rest level' := by
  obtain ⟨us, n, hts, hus, hn⟩ := h
  exact ⟨us, n, hts, hus, hn.imp_right (himp n)⟩

theorem length_le (h : Course ts rest level) : rest.length ≤ ts.length := by
  obtain ⟨us, n, rfl, -⟩ := h
  simp

/-- One way behind another that did not go below where it began. -/
theorem append (h : Course ts rest (· = k)) (hk : 0 ≤ k) (h' : Course rest rest' level) :
    Course ts rest' fun n => level (n - k) := by
  obtain ⟨us, n, hts, hus, hn⟩ := h
  obtain ⟨vs, m, hrest, hvs, hm⟩ := h'
  have hn' : 0 ≤ n := by
    rcases hn with ⟨-, hn⟩ | rfl
    · exact hn
    · exact hk
  refine ⟨us ++ vs, n + m, by rw [hts, hrest, List.append_assoc], hus.append hn' hvs, ?_⟩
  rcases hn with ⟨hnil, -⟩ | rfl
  · -- nothing was left for the second way
    obtain ⟨rfl, rfl⟩ := List.append_eq_nil_iff.mp (hrest.symm.trans hnil)
    obtain rfl : 0 = m := hvs.rise_eq
    exact .inl ⟨rfl, by omega⟩
  · refine hm.imp (fun h => ⟨h.1, by omega⟩) fun h => ?_
    have hm : n + m - n = m := by omega
    change level (n + m - n)
    rwa [hm]

theorem cons (ht : 0 ≤ t.kind.rise) (h : Course ts rest level) :
    Course (t :: ts) rest fun n => level (n - t.kind.rise) := by
  have hone : Course (t :: ts) ts (· = t.kind.rise) := single rfl
  exact hone.append ht h

end Course

namespace Reply

/-- A reply that gives up on a closing brace closes a block. -/
def closing (r : Reply β) : Int :=
  if r.result?.isNone ∧ r.last.kind = .rbrace then 1 else 0

/-- What the reply took opens a block more for every error that misleads, and closes one if it
gave up on a closing brace. -/
structure Counts (tokens ts : List Token) (Q : Token → Prop) (r : Reply β) : Prop where
  course : Course ts r.rest fun n => n = misleading tokens r.errors - r.closing
  place : At tokens r.last r.rest
  last : r.result?.isSome → Q r.last

/-- What the reply took closes the block it is about, and opens a block more for every error
that misleads. -/
structure CountsBlock (tokens ts : List Token) (r : Reply β) : Prop where
  course : Course ts r.rest fun n => r.result?.isSome ∧ n = misleading tokens r.errors - 1
  place : At tokens r.last r.rest

theorem closing_of_some {r : Reply β} {b : β} (h : r.result? = some b) : r.closing = 0 := by
  simp [closing, h]

theorem counts_done {b : β} (hat : At tokens last ts) (hQ : Q last) :
    (done b last ts).Counts tokens ts Q :=
  ⟨.refl rfl, hat, fun _ => hQ⟩

theorem counts_giveUp {error : SyntaxError} (hat : At tokens last ts)
    (herror : error.Misleads tokens ↔ last.kind = .rbrace) :
    (giveUp error last ts : Reply β).Counts tokens ts Q := by
  refine ⟨.refl ?_, hat, fun h => by cases h⟩
  by_cases hlast : last.kind = .rbrace
  · simp [giveUp, closing, misleading, herror, hlast]
  · simp [giveUp, closing, misleading, herror, hlast]

/-- No operand begins with the token that was taken. -/
theorem counts_noExpression (hat : At tokens t ts) :
    (giveUp (.noExpression t) t ts : Reply β).Counts tokens (t :: ts) Q := by
  refine ⟨.single ?_, hat, fun h => by cases h⟩
  cases hk : t.kind with
  | _ => simp [giveUp, closing, misleading, SyntaxError.Misleads, hk, Kind.rise]

/-- At the end of the tokens nothing is taken. -/
theorem counts_giveUp_nil {error : SyntaxError} :
    (giveUp error last [] : Reply β).Counts tokens [] Q :=
  ⟨.end_, .inl rfl, fun h => by cases h⟩

namespace Counts

variable {r : Reply β}

/-- A token that is no brace was taken before. -/
theorem cons (h : r.Counts tokens ts Q) (ht : t.kind.rise = 0) : r.Counts tokens (t :: ts) Q := by
  refine ⟨(h.course.cons (Int.le_of_eq ht.symm)).imp fun n hn => ?_, h.place, h.last⟩
  rwa [ht, Int.sub_zero] at hn

theorem andThen {f : β → Token → List Token → Reply γ} (h : r.Counts tokens ts Q)
    (hf : ∀ b last rest, rest.length ≤ ts.length → At tokens last rest → Q last →
      (f b last rest).Counts tokens rest Q') : (r.andThen f).Counts tokens ts Q' := by
  cases hb : r.result? with
  | none =>
      rw [andThen_of_none hb]
      refine ⟨h.course.imp fun n hn => ?_, h.place, fun h => by cases h⟩
      simpa [closing, hb] using hn
  | some b =>
      have hmore := hf b r.last r.rest h.course.length_le h.place (h.last (by rw [hb]; rfl))
      have hcourse := h.course
      rw [closing_of_some hb, Int.sub_zero] at hcourse
      rw [andThen_of_some hb]
      refine ⟨(hcourse.append misleading_nonneg hmore.course).imp fun n hn => ?_, hmore.place,
        hmore.last⟩
      dsimp only at hn ⊢
      rw [misleading_append]
      change n = _ - (f b r.last r.rest).closing
      omega

end Counts

theorem CountsBlock.andThen_done {r : Reply β} {g : β → γ} (h : r.CountsBlock tokens ts) :
    (r.andThen fun b last rest => done (g b) last rest).CountsBlock tokens ts := by
  cases hb : r.result? with
  | none =>
      rw [andThen_of_none hb]
      refine ⟨h.course.imp fun n hn => ?_, h.place⟩
      rwa [hb] at hn
  | some b =>
      rw [andThen_of_some hb]
      refine ⟨h.course.imp fun n hn => ⟨rfl, ?_⟩, h.place⟩
      simpa [done] using hn.2

/-- A block together with its opening brace. -/
theorem CountsBlock.cons {r : Reply β} (h : r.CountsBlock tokens ts) (ht : t.kind = .lbrace) :
    r.Counts tokens (t :: ts) fun _ => True := by
  have hrise : t.kind.rise = 1 := by rw [ht]; rfl
  refine ⟨(h.course.cons (by rw [hrise]; decide)).imp ?_, h.place, fun _ => trivial⟩
  rintro n ⟨hsome, hn⟩
  obtain ⟨b, hb⟩ := Option.isSome_iff_exists.mp hsome
  rw [closing_of_some hb]
  omega

end Reply

namespace Parse

open Reply

variable {eof : Token}

/-! ## Single tokens and parameters -/

theorem rise_of_ne {k : Kind} (hopen : k ≠ .lbrace) (hclose : k ≠ .rbrace) : k.rise = 0 := by
  cases k with
  | lbrace => exact absurd rfl hopen
  | rbrace => exact absurd rfl hclose
  | _ => rfl

/-- Behind a closing brace nothing is expected but a closing parenthesis. -/
theorem expect_counts (hnodup : tokens.Nodup) {kind : Kind} (hopen : kind ≠ .lbrace)
    (hclose : kind ≠ .rbrace) (hlast : kind = .rparen ∨ last.kind ≠ .rbrace)
    (hat : At tokens last ts) :
    (expect eof kind last ts).1.Counts tokens ts fun t => t.kind = kind := by
  cases ts with
  | nil => exact counts_giveUp_nil
  | cons t ts =>
      have hsuffix := hat.resolve_left (List.cons_ne_nil t ts)
      rw [expect_cons]
      split
      next hk =>
        refine Counts.cons (counts_done (.inr hat.suffix) hk) ?_
        rw [hk]
        exact rise_of_ne hopen hclose
      next =>
        refine counts_giveUp hat ?_
        rw [SyntaxError.Misleads, followsBrace_iff hnodup hsuffix]
        exact and_iff_right_of_imp fun h => hlast.resolve_right (absurd h)

theorem rise_of_operator {op : BinaryOp} (h : BinaryOp.ofKind? t.kind = some op) :
    t.kind.rise = 0 := by
  refine rise_of_ne ?_ ?_ <;> intro hk <;> rw [hk] at h <;> cases h

theorem finish_counts {s : Stmt Token} (hat : At tokens last ts) :
    (finish s last ts).1.Counts tokens ts fun _ => True := by
  cases ts with
  | nil => exact counts_done hat trivial
  | cons t ts =>
      rw [finish_cons]
      split
      next hk => exact Counts.cons (counts_done (.inr hat.suffix) trivial) (by rw [hk]; rfl)
      next => exact counts_done hat trivial

mutual

theorem someParams_counts (hnodup : tokens.Nodup) (last : Token) (ts : List Token)
    (hlast : last.kind ≠ .rbrace) (hat : At tokens last ts) :
    (someParams eof last ts).1.Counts tokens ts fun t => t.kind = .rparen := by
  rw [someParams_eq]
  refine (expect_counts hnodup (by decide) (by decide) (.inr hlast) hat).andThen ?_
  intro name last rest hlen hat hname
  refine (moreParams_counts hnodup last rest hat).andThen fun ids last rest _ hat hparen => ?_
  exact counts_done hat hparen
termination_by 2 * ts.length + 1

theorem moreParams_counts (hnodup : tokens.Nodup) (last : Token) (ts : List Token)
    (hat : At tokens last ts) :
    (moreParams eof last ts).1.Counts tokens ts fun t => t.kind = .rparen := by
  match ts with
  | [] =>
      rw [moreParams_nil]
      exact counts_giveUp_nil
  | t :: ts =>
      rw [moreParams_cons]
      split
      next hk =>
        refine Counts.cons ?_ (by rw [hk]; rfl)
        exact someParams_counts hnodup t ts (by simp [hk]) (.inr hat.suffix)
      next =>
        refine (expect_counts hnodup (by decide) (by decide) (.inl rfl) hat).andThen ?_
        exact fun _ last rest _ hat hparen => counts_done hat hparen
termination_by 2 * ts.length

end

theorem params_counts (hnodup : tokens.Nodup) (hlast : last.kind ≠ .rbrace)
    (hat : At tokens last ts) :
    (params eof last ts).1.Counts tokens ts fun t => t.kind = .rparen := by
  cases ts with
  | nil => exact someParams_counts hnodup last [] hlast hat
  | cons t ts =>
      rw [params_cons]
      split
      next hk => exact Counts.cons (counts_done (.inr hat.suffix) hk) (by rw [hk]; rfl)
      next => exact someParams_counts hnodup last (t :: ts) hlast hat

/-! ## Expressions and statements -/

/-- An opening brace where a block has to follow, and the block. -/
theorem braced_counts (hlast : last.kind ≠ .rbrace) (hat : At tokens last ts)
    (hblock : ∀ brace rest, rest.length < ts.length → rest <:+ tokens →
      (block eof brace rest).1.CountsBlock tokens rest) :
    ((expect eof .lbrace last ts).1.andThen fun brace _ rest =>
      (block eof brace rest).1).Counts tokens ts fun _ => True := by
  cases ts with
  | nil => exact counts_giveUp_nil
  | cons t ts =>
      rw [expect_cons]
      split
      next hk =>
        rw [done_andThen]
        have hsuffix := (List.suffix_cons t ts).trans hat.suffix
        exact (hblock t ts (Nat.lt_succ_self _) hsuffix).cons hk
      next =>
        rw [giveUp_andThen]
        refine counts_giveUp hat (iff_of_false ?_ hlast)
        rintro ⟨⟨⟩, -⟩

mutual

theorem expressionAt_counts (hnodup : tokens.Nodup) (p : Precedence) (t : Token)
    (ts : List Token) (hat : At tokens t ts) :
    (expressionAt eof p t ts).1.Counts tokens (t :: ts) fun _ => True := by
  rw [expressionAt_eq]
  refine (operand_counts hnodup t ts hat).andThen fun left last rest hrest hat _ => ?_
  have hlen : rest.length ≤ ts.length + 1 := hrest
  exact operators_counts hnodup p left last rest hat
termination_by 5 * (ts.length + 1) + 1

theorem expression_counts (hnodup : tokens.Nodup) (p : Precedence) (ts : List Token)
    (hts : ts <:+ tokens) : (expression eof p ts).1.Counts tokens ts fun _ => True := by
  match ts with
  | [] =>
      rw [expression_nil]
      exact counts_giveUp_nil
  | t :: ts =>
      rw [expression_cons]
      exact expressionAt_counts hnodup p t ts (.inr hts)
termination_by 5 * ts.length + 2

theorem operand_counts (hnodup : tokens.Nodup) (t : Token) (ts : List Token)
    (hat : At tokens t ts) :
    (operand eof t ts).1.Counts tokens (t :: ts) fun _ => True := by
  cases hk : t.kind with
  | ident =>
      rw [operand_ident hk]
      exact Counts.cons (counts_done hat trivial) (by rw [hk]; rfl)
  | int =>
      rw [operand_int hk]
      refine Counts.cons ?_ (by rw [hk]; rfl)
      split
      · exact counts_done hat trivial
      · exact counts_giveUp hat (iff_of_false id (by simp [hk]))
  | bang | minus =>
      obtain ⟨op, hop⟩ : ∃ op, UnaryOp.ofKind? t.kind = some op := ⟨_, by rw [hk]; rfl⟩
      rw [operand_unary hop]
      refine Counts.cons ?_ (by rw [hk]; rfl)
      refine (expression_counts hnodup .unary ts hat.suffix).andThen fun _ last rest _ hat _ => ?_
      exact counts_done hat trivial
  | lparen =>
      rw [operand_lparen hk]
      refine Counts.cons ?_ (by rw [hk]; rfl)
      refine (expression_counts hnodup .lowest ts hat.suffix).andThen fun _ last rest _ hat _ => ?_
      refine (expect_counts hnodup (by decide) (by decide) (.inl rfl) hat).andThen ?_
      exact fun _ last rest _ hat _ => counts_done hat trivial
  | keyword w =>
      cases w with
      | true_ =>
          rw [operand_true hk]
          exact Counts.cons (counts_done hat trivial) (by rw [hk]; rfl)
      | false_ =>
          rw [operand_false hk]
          exact Counts.cons (counts_done hat trivial) (by rw [hk]; rfl)
      | if_ =>
          have hlast : t.kind ≠ .rbrace := by simp [hk]
          rw [operand_if hk]
          refine Counts.cons ?_ (by rw [hk]; rfl)
          refine (expect_counts hnodup (by decide) (by decide) (.inr hlast) hat).andThen ?_
          intro _ _ rest hlen₁ hat _
          refine (expression_counts hnodup .lowest rest hat.suffix).andThen ?_
          intro _ last rest hlen₂ hat _
          refine (expect_counts hnodup (by decide) (by decide) (.inl rfl) hat).andThen ?_
          intro _ last rest hlen₃ hat hparen
          rw [← andThen_assoc]
          refine (braced_counts (by simp [hparen]) hat ?_).andThen ?_
          · exact fun brace rest hlen hrest => block_counts hnodup brace rest hrest
          intro _ last rest hlen₄ hat _
          refine (alternative_counts hnodup last rest hat).andThen ?_
          exact fun _ last rest _ hat _ => counts_done hat trivial
      | function =>
          have hlast : t.kind ≠ .rbrace := by simp [hk]
          rw [operand_function hk]
          refine Counts.cons ?_ (by rw [hk]; rfl)
          refine (expect_counts hnodup (by decide) (by decide) (.inr hlast) hat).andThen ?_
          intro _ last rest hlen₁ hat hparen
          refine (params_counts hnodup (by simp [hparen]) hat).andThen ?_
          intro _ last rest hlen₂ hat hparen
          rw [← andThen_assoc]
          refine (braced_counts (by simp [hparen]) hat ?_).andThen ?_
          · exact fun brace rest hlen hrest => block_counts hnodup brace rest hrest
          exact fun _ last rest _ hat _ => counts_done hat trivial
      | let_ | else_ | return_ =>
          rw [operand_other (by simp [Kind.OpensExpr, hk])]
          exact counts_noExpression hat
  | _ =>
      rw [operand_other (by simp [Kind.OpensExpr, hk])]
      exact counts_noExpression hat
termination_by 5 * (ts.length + 1)

theorem alternative_counts (hnodup : tokens.Nodup) (last : Token) (ts : List Token)
    (hat : At tokens last ts) :
    (alternative eof last ts).1.Counts tokens ts fun _ => True := by
  match ts with
  | [] =>
      rw [alternative_nil]
      exact counts_done hat trivial
  | t :: ts =>
      rw [alternative_cons]
      split
      next hk =>
        refine Counts.cons ?_ (by rw [hk]; rfl)
        rw [← andThen_assoc]
        refine (braced_counts (by simp [hk]) (.inr hat.suffix) ?_).andThen ?_
        · exact fun brace rest hlen hrest => block_counts hnodup brace rest hrest
        exact fun _ last rest _ hat _ => counts_done hat trivial
      next => exact counts_done hat trivial
termination_by 5 * ts.length

theorem operators_counts (hnodup : tokens.Nodup) (p : Precedence) (left : Expr Token)
    (last : Token) (ts : List Token) (hat : At tokens last ts) :
    (operators eof p left last ts).1.Counts tokens ts fun _ => True := by
  match ts with
  | [] =>
      rw [operators_nil]
      exact counts_done hat trivial
  | t :: ts =>
      have hts := (List.suffix_cons t ts).trans hat.suffix
      by_cases hk : t.kind = .lparen
      · rw [operators_lparen hk]
        refine Counts.cons ?_ (by rw [hk]; rfl)
        refine (args_counts hnodup ts hts).andThen fun es last rest hlen hat _ => ?_
        exact operators_counts hnodup p _ last rest hat
      cases hop : BinaryOp.ofKind? t.kind with
      | none =>
          rw [operators_other hk hop]
          exact counts_done hat trivial
      | some op =>
          rw [operators_binary hop]
          split
          · refine Counts.cons ?_ (rise_of_operator hop)
            refine (expression_counts hnodup _ ts hts).andThen fun right last rest hlen hat _ => ?_
            exact operators_counts hnodup p _ last rest hat
          · exact counts_done hat trivial
termination_by 5 * ts.length

theorem args_counts (hnodup : tokens.Nodup) (ts : List Token) (hts : ts <:+ tokens) :
    (args eof ts).1.Counts tokens ts fun _ => True := by
  match ts with
  | [] =>
      rw [args_nil]
      exact counts_giveUp_nil
  | t :: ts =>
      rw [args_cons]
      split
      next hk => exact Counts.cons (counts_done (.inr hts) trivial) (by rw [hk]; rfl)
      next =>
        refine (expressionAt_counts hnodup .lowest t ts (.inr hts)).andThen ?_
        intro _ last rest hrest hat _
        have hlen : rest.length ≤ ts.length + 1 := hrest
        refine (moreArgs_counts hnodup last rest hat).andThen ?_
        exact fun _ last rest _ hat _ => counts_done hat trivial
termination_by 5 * ts.length + 2

theorem moreArgs_counts (hnodup : tokens.Nodup) (last : Token) (ts : List Token)
    (hat : At tokens last ts) : (moreArgs eof last ts).1.Counts tokens ts fun _ => True := by
  match ts with
  | [] =>
      rw [moreArgs_nil]
      exact counts_giveUp_nil
  | t :: ts =>
      have hts := (List.suffix_cons t ts).trans hat.suffix
      rw [moreArgs_cons]
      split
      next hk =>
        refine Counts.cons ?_ (by rw [hk]; rfl)
        refine (expression_counts hnodup .lowest ts hts).andThen fun _ last rest hlen hat _ => ?_
        refine (moreArgs_counts hnodup last rest hat).andThen ?_
        exact fun _ last rest _ hat _ => counts_done hat trivial
      next =>
        refine (expect_counts hnodup (by decide) (by decide) (.inl rfl) hat).andThen ?_
        exact fun _ last rest _ hat _ => counts_done hat trivial
termination_by 5 * ts.length

theorem block_counts (hnodup : tokens.Nodup) (brace : Token) (ts : List Token)
    (hts : ts <:+ tokens) : (block eof brace ts).1.CountsBlock tokens ts := by
  rw [block_eq]
  exact (blockStatements_counts hnodup ts hts).andThen_done
termination_by 5 * ts.length + 4

/-- A statement that gives up on a closing brace closes the block; any other one leaves that to
those behind it. -/
theorem blockStatements_counts (hnodup : tokens.Nodup) (ts : List Token) (hts : ts <:+ tokens) :
    (blockStatements eof ts).1.CountsBlock tokens ts := by
  match ts with
  | [] =>
      rw [blockStatements_nil]
      exact ⟨.end_, .inl rfl⟩
  | t :: ts =>
      by_cases hk : t.kind = .rbrace
      · rw [blockStatements_rbrace hk]
        exact ⟨.single ⟨rfl, by rw [hk]; rfl⟩, .inr hts⟩
      have hlen := (statement eof t ts).2
      have hfirst := statement_counts hnodup t ts (.inr hts)
      have hmore := blockStatements_counts hnodup (statement eof t ts).1.rest hfirst.place.suffix
      rw [blockStatements_cons hk]
      dsimp only
      split
      next hgaveUp =>
        refine ⟨hfirst.course.imp fun n hn => ⟨rfl, ?_⟩, hfirst.place⟩
        rwa [closing, if_pos hgaveUp] at hn
      next hnot =>
        have hcourse := hfirst.course
        rw [closing, if_neg hnot, Int.sub_zero] at hcourse
        refine ⟨(hcourse.append misleading_nonneg hmore.course).imp ?_, hmore.place⟩
        rintro n ⟨hsome, hn⟩
        rw [misleading_append, Option.isSome_map]
        exact ⟨hsome, by omega⟩
termination_by 5 * ts.length + 3

theorem statement_counts (hnodup : tokens.Nodup) (t : Token) (ts : List Token)
    (hat : At tokens t ts) :
    (statement eof t ts).1.Counts tokens (t :: ts) fun _ => True := by
  by_cases hlet : t.kind = .keyword .let_
  · have hlast : t.kind ≠ .rbrace := by simp [hlet]
    rw [statement_let hlet]
    refine Counts.cons ?_ (by rw [hlet]; rfl)
    refine (expect_counts hnodup (by decide) (by decide) (.inr hlast) hat).andThen ?_
    intro name last rest hlen₁ hat hname
    have hlast : last.kind ≠ .rbrace := by simp [hname]
    refine (expect_counts hnodup (by decide) (by decide) (.inr hlast) hat).andThen ?_
    intro _ _ rest hlen₂ hat _
    refine (expression_counts hnodup .lowest rest hat.suffix).andThen ?_
    exact fun _ last rest _ hat _ => finish_counts hat
  by_cases hreturn : t.kind = .keyword .return_
  · rw [statement_return hreturn]
    refine Counts.cons ?_ (by rw [hreturn]; rfl)
    refine (expression_counts hnodup .lowest ts hat.suffix).andThen ?_
    exact fun _ last rest _ hat _ => finish_counts hat
  by_cases hbrace : t.kind = .lbrace
  · rw [statement_lbrace hbrace]
    refine ((block_counts hnodup t ts hat.suffix).cons hbrace).andThen ?_
    exact fun _ last rest _ hat _ => counts_done hat trivial
  · rw [statement_expr hlet hreturn hbrace]
    refine (expressionAt_counts hnodup .lowest t ts hat).andThen ?_
    exact fun _ last rest _ hat _ => finish_counts hat
termination_by 5 * (ts.length + 1) + 2

end

end Parse

end Monkey
