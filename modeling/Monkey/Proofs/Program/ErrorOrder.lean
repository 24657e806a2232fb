import Monkey.Proofs.Program.Calls
import Monkey.Proofs.Token.Segmentation

/-!
# Errors in the order of the text

A parse function finds what is wrong at the tokens it is given or at the end of the input, and
never looks back: no error is about a token before one that an earlier error is about. It does
not give up without an error, and this error is listed in the end. And where it gives up the
statement around it gives up as well, so that there is at most one error for each token that a
statement begins with (`errors_in_order`).
-/

namespace Monkey

/-- No token begins before one that is listed earlier. -/
def InOrder (ts : List Token) : Prop :=
  ts.Pairwise fun t u => t.span.start ≤ u.span.start

/-- The errors are about tokens of `ts`, about one of those taken `before`, or about the end of
the input. They are listed in the order of the text, and none is about a token before those that
are left. -/
structure Finds (eof : Token) (before ts : List Token) (errors : List SyntaxError)
    (rest : List Token) : Prop where
  suffix : rest <:+ ts
  found : ∀ e ∈ errors, e.found ∈ before ++ ts ++ [eof]
  ordered : InOrder (before ++ ts ++ [eof]) →
    InOrder (errors.map SyntaxError.found ++ (rest ++ [eof]))

variable {β γ : Type} {eof last t : Token} {before ts rest rest' : List Token}
  {error : SyntaxError} {es es' : List SyntaxError}

theorem InOrder.sublist (h : InOrder ts) (hrest : rest.Sublist ts) : InOrder rest :=
  List.Pairwise.sublist hrest h

/-- A token may be listed twice in a row. -/
theorem InOrder.again (h : InOrder (t :: ts)) : InOrder (t :: t :: ts) := by
  have hmore := (List.pairwise_cons.mp h).1
  exact List.pairwise_cons.mpr ⟨List.forall_mem_cons.mpr ⟨Nat.le_refl _, hmore⟩, h⟩

namespace Finds

theorem none_ : Finds eof before ts [] ts := by
  refine ⟨List.suffix_refl ts, by simp, fun hin => hin.sublist ?_⟩
  rw [List.append_assoc]
  exact List.sublist_append_right before _

/-- The next token is wrong, and is left. -/
theorem next (h : error.found = t) : Finds eof before (t :: ts) [error] (t :: ts) := by
  refine ⟨List.suffix_refl _, by simp [h], fun hin => ?_⟩
  have hhere : InOrder (t :: ts ++ [eof]) := by
    rw [List.append_assoc] at hin
    exact hin.sublist (List.sublist_append_right before _)
  rw [List.map_singleton, h]
  exact hhere.again

/-- The token that was taken last is wrong. -/
theorem taken (h : error.found = t) : Finds eof [t] ts [error] ts := by
  refine ⟨List.suffix_refl _, by simp [h], fun hin => ?_⟩
  rw [List.map_singleton, h]
  exact hin

theorem atEnd (h : error.found = eof) : Finds eof before [] [error] [] := by
  refine ⟨List.suffix_refl _, by simp [h], fun _ => ?_⟩
  rw [List.map_singleton, h]
  exact InOrder.again (List.pairwise_singleton _ eof)

/-- The errors on the way through the tokens, and those behind it. -/
theorem append (h : Finds eof before ts es rest) (h' : Finds eof [] rest es' rest') :
    Finds eof before ts (es ++ es') rest' := by
  have hsub : (rest ++ [eof]).Sublist (before ++ ts ++ [eof]) := by
    refine List.Sublist.append_right ?_ [eof]
    exact h.suffix.sublist.trans (List.sublist_append_right before ts)
  -- what is found later, or left, was left behind the first part already
  have hleft : ∀ u ∈ es'.map SyntaxError.found ++ (rest' ++ [eof]), u ∈ rest ++ [eof] := by
    refine List.forall_mem_append.mpr ⟨List.forall_mem_map.mpr h'.found, fun u hu => ?_⟩
    exact (h'.suffix.sublist.append_right [eof]).subset hu
  refine ⟨h'.suffix.trans h.suffix, List.forall_mem_append.mpr ⟨h.found, fun e he => ?_⟩, ?_⟩
  · exact hsub.subset (h'.found e he)
  · intro hin
    have hmore := h'.ordered (hin.sublist hsub)
    obtain ⟨hes, -, hcross⟩ := List.pairwise_append.mp (h.ordered hin)
    rw [List.map_append, List.append_assoc]
    exact List.pairwise_append.mpr ⟨hes, hmore, fun u hu v hv => hcross u hu v (hleft v hv)⟩

/-- The next token is taken before anything is found. -/
theorem cons (h : Finds eof [t] ts es rest) : Finds eof [] (t :: ts) es rest :=
  ⟨h.suffix.trans (List.suffix_cons t ts), h.found, h.ordered⟩

/-- More tokens may have been taken before. -/
theorem behind (h : Finds eof [] ts es rest) : Finds eof before ts es rest := by
  have hsub : (ts ++ [eof]).Sublist (before ++ ts ++ [eof]) :=
    (List.sublist_append_right before ts).append_right [eof]
  exact ⟨h.suffix, fun e he => hsub.subset (h.found e he), fun hin => h.ordered (hin.sublist hsub)⟩

end Finds

/-! ## Answers -/

namespace Reply

/-- The reply does not give up without an error, and apart from the one for giving up there are
at most as many errors as tokens were taken. -/
structure Reports (eof : Token) (before ts : List Token) (r : Reply β) : Prop
    extends Finds eof before ts r.errors r.rest where
  reported : r.result? = none → r.errors ≠ []
  length_le : r.errors.length + r.rest.length ≤ ts.length + r.result?.isNone.toNat

theorem reports_done {b : β} : (done b last ts).Reports eof before ts :=
  ⟨.none_, by simp [done], by simp [done]⟩

theorem reports_next (h : error.found = t) :
    (giveUp error last (t :: ts) : Reply β).Reports eof before (t :: ts) :=
  ⟨.next h, by simp [giveUp], by simp [giveUp, Nat.add_comm]⟩

theorem reports_taken (h : error.found = t) :
    (giveUp error last ts : Reply β).Reports eof [t] ts :=
  ⟨.taken h, by simp [giveUp], by simp [giveUp, Nat.add_comm]⟩

theorem reports_atEnd (h : error.found = eof) :
    (giveUp error last [] : Reply β).Reports eof before [] :=
  ⟨.atEnd h, by simp [giveUp], by simp [giveUp]⟩

namespace Reports

variable {r : Reply β}

theorem cons (h : r.Reports eof [t] ts) : r.Reports eof [] (t :: ts) := by
  refine ⟨h.toFinds.cons, h.reported, ?_⟩
  have hlen := h.length_le
  rw [List.length_cons]
  omega

theorem behind (h : r.Reports eof [] ts) : r.Reports eof before ts :=
  ⟨h.toFinds.behind, h.reported, h.length_le⟩

theorem skip (h : r.Reports eof [] ts) : r.Reports eof [] (t :: ts) :=
  h.behind.cons

theorem andThen {f : β → Token → List Token → Reply γ} (h : r.Reports eof before ts)
    (hf : ∀ b last rest, rest <:+ ts → (f b last rest).Reports eof [] rest) :
    (r.andThen f).Reports eof before ts := by
  have hlen := h.length_le
  cases hb : r.result? with
  | none =>
      rw [andThen_of_none hb]
      rw [hb] at hlen
      exact ⟨h.toFinds, fun _ => h.reported hb, hlen⟩
  | some b =>
      have hmore := hf b r.last r.rest h.suffix
      have hlen' := hmore.length_le
      rw [hb] at hlen
      rw [andThen_of_some hb]
      refine ⟨h.toFinds.append hmore.toFinds, fun hnone => ?_, ?_⟩
      · exact List.append_ne_nil_of_right_ne_nil _ (hmore.reported hnone)
      · simp only [List.length_append, Option.isNone_some, Bool.toNat_false] at hlen ⊢
        omega

end Reports

end Reply

namespace Parse

open Reply

/-! ## Single tokens and parameters -/

theorem expect_reports {kind : Kind} :
    (expect eof kind last ts).1.Reports eof before ts := by
  cases ts with
  | nil => exact reports_atEnd rfl
  | cons t ts =>
      rw [expect_cons]
      split
      next => exact reports_done.skip.behind
      next => exact reports_next rfl

theorem finish_reports {s : Stmt Token} : (finish s last ts).1.Reports eof before ts := by
  cases ts with
  | nil => exact reports_done
  | cons t ts =>
      rw [finish_cons]
      split
      next => exact reports_done.skip.behind
      next => exact reports_done

mutual

theorem someParams_reports (last : Token) (ts : List Token) :
    (someParams eof last ts).1.Reports eof [] ts := by
  rw [someParams_eq]
  refine expect_reports.andThen fun name last rest hrest => ?_
  have hlen := hrest.length_le
  exact (moreParams_reports last rest).andThen fun _ _ _ _ => reports_done
termination_by 2 * ts.length + 1

theorem moreParams_reports (last : Token) (ts : List Token) :
    (moreParams eof last ts).1.Reports eof [] ts := by
  cases ts with
  | nil =>
      rw [moreParams_nil]
      exact reports_atEnd rfl
  | cons t ts =>
      rw [moreParams_cons]
      split
      next => exact (someParams_reports t ts).skip
      next => exact expect_reports.andThen fun _ _ _ _ => reports_done
termination_by 2 * ts.length

end

theorem params_reports : (params eof last ts).1.Reports eof [] ts := by
  cases ts with
  | nil =>
      rw [params_nil]
      exact someParams_reports last []
  | cons t ts =>
      rw [params_cons]
      split
      next => exact reports_done.skip
      next => exact someParams_reports last (t :: ts)

/-! ## Expressions and statements -/

mutual

theorem expressionAt_reports (p : Precedence) (t : Token) (ts : List Token) :
    (expressionAt eof p t ts).1.Reports eof [t] ts := by
  rw [expressionAt_eq]
  refine (operand_reports t ts).andThen fun left last rest hrest => ?_
  have hlen := hrest.length_le
  exact operators_reports p left last rest
termination_by 5 * (ts.length + 1) + 1

theorem expression_reports (p : Precedence) (ts : List Token) :
    (expression eof p ts).1.Reports eof [] ts := by
  cases ts with
  | nil =>
      rw [expression_nil]
      exact reports_atEnd rfl
  | cons t ts =>
      rw [expression_cons]
      exact (expressionAt_reports p t ts).cons
termination_by 5 * ts.length + 2

theorem operand_reports (t : Token) (ts : List Token) :
    (operand eof t ts).1.Reports eof [t] ts := by
  cases hk : t.kind with
  | ident =>
      rw [operand_ident hk]
      exact reports_done
  | int =>
      rw [operand_int hk]
      split
      next => exact reports_done
      next => exact reports_taken rfl
  | bang | minus =>
      obtain ⟨op, hop⟩ : ∃ op, UnaryOp.ofKind? t.kind = some op := ⟨_, by rw [hk]; rfl⟩
      rw [operand_unary hop]
      exact (expression_reports .unary ts).behind.andThen fun _ _ _ _ => reports_done
  | lparen =>
      rw [operand_lparen hk]
      refine (expression_reports .lowest ts).behind.andThen fun _ last rest _ => ?_
      exact expect_reports.andThen fun _ _ _ _ => reports_done
  | keyword w =>
      cases w with
      | true_ =>
          rw [operand_true hk]
          exact reports_done
      | false_ =>
          rw [operand_false hk]
          exact reports_done
      | if_ =>
          rw [operand_if hk]
          refine expect_reports.andThen fun _ _ rest hrest => ?_
          have hlen₁ := hrest.length_le
          refine (expression_reports .lowest rest).andThen fun _ last rest hrest => ?_
          have hlen₂ := hrest.length_le
          refine expect_reports.andThen fun _ last rest hrest => ?_
          have hlen₃ := hrest.length_le
          refine expect_reports.andThen fun brace _ rest hrest => ?_
          have hlen₄ := hrest.length_le
          refine (block_reports brace rest).andThen fun _ last rest hrest => ?_
          have hlen₅ := hrest.length_le
          exact (alternative_reports last rest).andThen fun _ _ _ _ => reports_done
      | function =>
          rw [operand_function hk]
          refine expect_reports.andThen fun _ last rest hrest => ?_
          have hlen₁ := hrest.length_le
          refine params_reports.andThen fun _ last rest hrest => ?_
          have hlen₂ := hrest.length_le
          refine expect_reports.andThen fun brace _ rest hrest => ?_
          have hlen₃ := hrest.length_le
          exact (block_reports brace rest).andThen fun _ _ _ _ => reports_done
      | let_ | else_ | return_ =>
          rw [operand_other (by simp [Kind.OpensExpr, hk])]
          exact reports_taken rfl
  | _ =>
      rw [operand_other (by simp [Kind.OpensExpr, hk])]
      exact reports_taken rfl
termination_by 5 * (ts.length + 1)

theorem alternative_reports (last : Token) (ts : List Token) :
    (alternative eof last ts).1.Reports eof [] ts := by
  cases ts with
  | nil =>
      rw [alternative_nil]
      exact reports_done
  | cons t ts =>
      rw [alternative_cons]
      split
      next =>
        refine Reports.skip ?_
        refine expect_reports.andThen fun brace _ rest hrest => ?_
        have hlen := hrest.length_le
        exact (block_reports brace rest).andThen fun _ _ _ _ => reports_done
      next => exact reports_done
termination_by 5 * ts.length

theorem operators_reports (p : Precedence) (left : Expr Token) (last : Token)
    (ts : List Token) : (operators eof p left last ts).1.Reports eof [] ts := by
  match ts with
  | [] =>
      rw [operators_nil]
      exact reports_done
  | t :: ts =>
      by_cases hparen : t.kind = .lparen
      · rw [operators_lparen hparen]
        refine ((args_reports ts).andThen fun es last rest hrest => ?_).skip
        have hlen := hrest.length_le
        exact operators_reports p (.call t left es) last rest
      cases hop : BinaryOp.ofKind? t.kind with
      | none =>
          rw [operators_other hparen hop]
          exact reports_done
      | some op =>
          rw [operators_binary hop]
          split
          next =>
            refine ((expression_reports op.precedence ts).andThen
              fun right last rest hrest => ?_).skip
            have hlen := hrest.length_le
            exact operators_reports p (.binary t op left right) last rest
          next => exact reports_done
termination_by 5 * ts.length

theorem args_reports (ts : List Token) : (args eof ts).1.Reports eof [] ts := by
  cases ts with
  | nil =>
      rw [args_nil]
      exact reports_atEnd rfl
  | cons t ts =>
      rw [args_cons]
      split
      next => exact reports_done.skip
      next =>
        refine ((expressionAt_reports .lowest t ts).andThen fun _ last rest hrest => ?_).cons
        have hlen := hrest.length_le
        exact (moreArgs_reports last rest).andThen fun _ _ _ _ => reports_done
termination_by 5 * ts.length + 2

theorem moreArgs_reports (last : Token) (ts : List Token) :
    (moreArgs eof last ts).1.Reports eof [] ts := by
  cases ts with
  | nil =>
      rw [moreArgs_nil]
      exact reports_atEnd rfl
  | cons t ts =>
      rw [moreArgs_cons]
      split
      next =>
        refine ((expression_reports .lowest ts).andThen fun _ last rest hrest => ?_).skip
        have hlen := hrest.length_le
        exact (moreArgs_reports last rest).andThen fun _ _ _ _ => reports_done
      next => exact expect_reports.andThen fun _ _ _ _ => reports_done
termination_by 5 * ts.length

theorem block_reports (brace : Token) (ts : List Token) :
    (block eof brace ts).1.Reports eof [] ts := by
  rw [block_eq]
  exact (blockStatements_reports ts).andThen fun _ _ _ _ => reports_done
termination_by 5 * ts.length + 4

/-- The error of a statement that gives up is counted for the token that the statement begins
with, so it does not matter whether the block goes on behind it. -/
theorem blockStatements_reports (ts : List Token) :
    (blockStatements eof ts).1.Reports eof [] ts := by
  cases ts with
  | nil =>
      rw [blockStatements_nil]
      exact reports_atEnd rfl
  | cons t ts =>
      by_cases ht : t.kind = .rbrace
      · rw [blockStatements_rbrace ht]
        exact reports_done.skip
      have hlen := (statement eof t ts).2
      have hfirst := statement_reports t ts
      have hcount := hfirst.length_le
      have hnone := Bool.toNat_le (statement eof t ts).1.result?.isNone
      rw [blockStatements_cons ht]
      dsimp only
      split
      next =>
        refine ⟨hfirst.toFinds.cons, nofun, ?_⟩
        simp only [List.length_cons, Option.isNone_some, Bool.toNat_false]
        omega
      next =>
        have hmore := blockStatements_reports (statement eof t ts).1.rest
        have hcount' := hmore.length_le
        refine ⟨(hfirst.toFinds.append hmore.toFinds).cons, fun h => ?_, ?_⟩
        · exact List.append_ne_nil_of_right_ne_nil _ (hmore.reported (Option.map_eq_none_iff.mp h))
        · simp only [List.length_append, List.length_cons, Option.isNone_map]
          omega
termination_by 5 * ts.length + 3

theorem statement_reports (t : Token) (ts : List Token) :
    (statement eof t ts).1.Reports eof [t] ts := by
  by_cases hlet : t.kind = .keyword .let_
  · rw [statement_let hlet]
    refine expect_reports.andThen fun name last rest hrest => ?_
    have hlen₁ := hrest.length_le
    refine expect_reports.andThen fun _ _ rest hrest => ?_
    have hlen₂ := hrest.length_le
    exact (expression_reports .lowest rest).andThen fun _ _ _ _ => finish_reports
  by_cases hreturn : t.kind = .keyword .return_
  · rw [statement_return hreturn]
    exact (expression_reports .lowest ts).behind.andThen fun _ _ _ _ => finish_reports
  by_cases hbrace : t.kind = .lbrace
  · rw [statement_lbrace hbrace]
    exact (block_reports t ts).behind.andThen fun _ _ _ _ => reports_done
  · rw [statement_expr hlet hreturn hbrace]
    exact (expressionAt_reports .lowest t ts).andThen fun _ _ _ _ => finish_reports
termination_by 5 * (ts.length + 1) + 2

end

/-- Giving up costs a statement one error, for the token that it begins with. -/
theorem statements_finds (ts : List Token) :
    Finds eof [] ts (statements eof ts).2 [] ∧ (statements eof ts).2.length ≤ ts.length := by
  cases ts with
  | nil =>
      rw [statements_nil]
      exact ⟨.none_, Nat.le_refl 0⟩
  | cons t ts =>
      have hlen := (statement eof t ts).2
      have hfirst : (statement eof t ts).1.Reports eof [t] ts := statement_reports t ts
      have hcount := hfirst.length_le
      have hnone := Bool.toNat_le (statement eof t ts).1.result?.isNone
      obtain ⟨hmore, hcount'⟩ := statements_finds (statement eof t ts).1.rest
      rw [statements_cons]
      refine ⟨(hfirst.toFinds.append hmore).cons, ?_⟩
      simp only [List.length_append, List.length_cons]
      omega
termination_by ts.length

/-! ## Calls -/

namespace Call

theorem reported (call : Call) (h : (call.reply eof).result? = none) :
    (call.reply eof).errors ≠ [] := by
  cases call with
  | expect kind last ts =>
      have hreports : (Parse.expect eof kind last ts).1.Reports eof [] ts := expect_reports
      exact hreports.reported h
  | params last ts => exact params_reports.reported h
  | someParams last ts => exact (someParams_reports last ts).reported h
  | moreParams last ts => exact (moreParams_reports last ts).reported h
  | expression p ts => exact (expression_reports p ts).reported h
  | expressionAt p t ts => exact (expressionAt_reports p t ts).reported h
  | operand t ts => exact (operand_reports t ts).reported h
  | alternative last ts => exact (alternative_reports last ts).reported h
  | operators p left last ts => exact (operators_reports p left last ts).reported h
  | args ts => exact (args_reports ts).reported h
  | moreArgs last ts => exact (moreArgs_reports last ts).reported h
  | block brace ts => exact (block_reports brace ts).reported h
  | blockStatements ts => exact (blockStatements_reports ts).reported h
  | statement t ts => exact (statement_reports t ts).reported h

end Call

end Parse

/-! ## Texts -/

theorem stop_le_of_mem_tokenize {source : String} (ht : t ∈ tokenize source) :
    t.span.stop ≤ source.utf8ByteSize := by
  obtain ⟨gap, after, hcs, hspan, -, -⟩ := (segments_tokenize source).slices t ht
  rw [hspan, ← byteCount_toList, hcs, byteCount_append (gap ++ _)]
  exact Nat.le_add_right _ _

theorem parse_finds (source : String) :
    Finds (.eof source.utf8ByteSize) [] (tokenize source) (parse source).errors [] ∧
      (parse source).errors.length ≤ (tokenize source).length :=
  Parse.statements_finds (tokenize source)

end Monkey
