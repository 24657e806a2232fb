import Monkey.Proofs.Grammar.Longest
import Monkey.Proofs.Program.Erase

/-!
# What is read without errors is derived

If a parse function records no error, then it has a result, and the tokens it took are
a longest derivation of it. What stands behind an expression is part of the statement
(`Stops`): without it a left operand could not be given its level, and statements could
not be told from those that continue them.
-/

namespace Monkey

namespace Reply

variable {β γ : Type} {r : Reply β} {ts us : List Token} {last t : Token}
  {Q : β → List Token → List Token → Prop}

/-- Unless there are errors, the reply has a result, and it took some tokens off `ts`
that have to do with the result and with what is left in the way `Q` says. -/
def Reads (r : Reply β) (ts : List Token) (Q : β → List Token → List Token → Prop) : Prop :=
  r.errors = [] → ∃ b us, r.result? = some b ∧ ts = us ++ r.rest ∧ Q b us r.rest

theorem reads_done {b : β} (h : Q b [] ts) : (done b last ts).Reads ts Q :=
  fun _ => ⟨b, [], rfl, rfl, h⟩

theorem reads_done_cons {b : β} (h : Q b [t] ts) : (done b last ts).Reads (t :: ts) Q :=
  fun _ => ⟨b, [t], rfl, rfl, h⟩

theorem reads_giveUp {error : SyntaxError} : (giveUp error last us).Reads ts Q :=
  fun h => absurd h (by simp [giveUp])

theorem Reads.imp {Q' : β → List Token → List Token → Prop} (h : r.Reads ts Q)
    (himp : ∀ b us rest, Q b us rest → Q' b us rest) : r.Reads ts Q' := by
  intro herrors
  obtain ⟨b, us, hb, hts, hQ⟩ := h herrors
  exact ⟨b, us, hb, hts, himp b us _ hQ⟩

/-- That there are no errors may be used for what the reply is. -/
theorem Reads.of_errors (h : r.errors = [] → r.Reads ts Q) : r.Reads ts Q :=
  fun herrors => h herrors herrors

/-- What was taken and what is left are all the tokens there were. -/
theorem Reads.append_eq (h : r.Reads ts Q) :
    r.Reads ts fun b us rest => ts = us ++ rest ∧ Q b us rest := by
  intro herrors
  obtain ⟨b, us, hb, hts, hQ⟩ := h herrors
  exact ⟨b, us, hb, hts, hts, hQ⟩

/-- A token that was taken before is one more of those that were taken. -/
theorem Reads.cons (h : r.Reads ts fun b us rest => Q b (t :: us) rest) :
    r.Reads (t :: ts) Q := by
  intro herrors
  obtain ⟨b, us, hb, hts, hQ⟩ := h herrors
  exact ⟨b, t :: us, hb, by rw [hts, List.cons_append], hQ⟩

theorem Reads.andThen {R : γ → List Token → List Token → Prop}
    {f : β → Token → List Token → Reply γ} (h : r.Reads ts Q)
    (hf : ∀ b us last rest, rest.length ≤ ts.length → Q b us rest →
      (f b last rest).Reads rest fun c vs rest => R c (us ++ vs) rest) :
    (r.andThen f).Reads ts R := by
  obtain ⟨_ | b, errors, last, rest⟩ := r
  · intro herrors
    obtain ⟨_, _, hb, _⟩ := h herrors
    cases hb
  · intro herrors
    obtain ⟨hr, hs⟩ := List.append_eq_nil_iff.mp herrors
    obtain ⟨b, us, hb, hts, hQ⟩ := h hr
    obtain rfl : _ = b := by simpa using hb
    have hlen : rest.length ≤ ts.length := by simp [hts]
    obtain ⟨c, vs, hc, hrest, hR⟩ := hf _ us last rest hlen hQ hs
    exact ⟨c, us ++ vs, hc, by rw [hts, List.append_assoc]; exact congrArg _ hrest, hR⟩

end Reply

namespace Grammar

/-- What follows does not belong to an expression whose operators hold tighter than
`p`: it begins with no parenthesis and no such operator. -/
def Stops (p : Precedence) (ts : List Token) : Prop :=
  ∀ t ∈ ts.head?, t.kind ≠ .lparen ∧
    ∀ op, BinaryOp.ofKind? t.kind = some op → op.precedence.rank ≤ p.rank

theorem stops_nil {p : Precedence} : Stops p [] := by
  simp [Stops]

theorem Stops.not_continues {ts : List Token} (h : Stops .lowest ts) : ¬Continues ts := by
  rintro ⟨t, ht, hk | hk⟩
  · exact (h t ht).1 hk
  · have hrank := (h t ht).2 .subtract (by rw [hk]; rfl)
    exact absurd hrank (by decide)

/-- The expression can stand to the left of what follows: it can be called, or it is of
the level `q` and what follows holds no tighter. -/
def StandsBefore (q : Precedence) (e : Expr Token) (us rest : List Token) : Prop :=
  Derives true (.called e.erase) us ∨ Derives true (.expr q e.erase) us ∧ Stops q rest

/-- The phrase and a token of the given kind behind it. -/
def EndsWith (φ : Phrase) (kind : Kind) (us : List Token) : Prop :=
  ∃ vs u, us = vs ++ [u] ∧ Derives true φ vs ∧ u.kind = kind

theorem StandsBefore.expr {p q : Precedence} {e : Expr Token} {us rest : List Token}
    (h : StandsBefore q e us rest) (hpq : p.rank ≤ q.rank) :
    Derives true (.expr p e.erase) us := by
  obtain h | ⟨h, -⟩ := h
  · exact (Derives.called h).loosen p.rank_le_unary
  · exact h.loosen hpq

end Grammar

namespace Parse

open Reply Grammar

variable {eof last t : Token} {ts us : List Token}

/-! ## Single tokens and parameters -/

theorem expect_reads {kind : Kind} :
    (expect eof kind last ts).1.Reads ts fun t us _ => us = [t] ∧ t.kind = kind := by
  cases ts with
  | nil => exact reads_giveUp
  | cons t ts =>
      rw [expect_cons]
      split
      next h => exact reads_done_cons ⟨rfl, h⟩
      next => exact reads_giveUp

/-- A statement that is read up to its end is finished by a semicolon or by something
that does not continue it. -/
theorem finish_reads {s : Stmt Token} (h : Derives true (.clause s.erase) us)
    (hts : ¬Continues ts) :
    (finish s last ts).1.Reads ts fun s vs rest =>
      ∃ ending, Derives true (.statement s.erase ending) (us ++ vs) ∧
        (ending = .expression → ¬Continues rest) := by
  cases ts with
  | nil =>
      exact reads_done ⟨_, by simpa using Derives.unclosed h, fun _ => hts⟩
  | cons t ts =>
      rw [finish_cons]
      split
      next ht => exact reads_done_cons ⟨_, .closed h ht, by simp⟩
      next =>
        exact reads_done ⟨_, by simpa using Derives.unclosed h, fun _ => hts⟩

/-- The tokens end a list of names that `name` begins. -/
def NamesBehind (name : Token) (ids : List (Ident Token)) (us : List Token) : Prop :=
  name.kind = .ident →
    EndsWith (.names (⟨(), name.literal⟩ :: ids.map Ident.erase)) .rparen (name :: us)

mutual

theorem someParams_reads (last : Token) (ts : List Token) :
    (someParams eof last ts).1.Reads ts fun ids us _ =>
      EndsWith (.names (ids.map Ident.erase)) .rparen us := by
  rw [someParams_eq]
  refine expect_reads.andThen fun name us last rest hlen hname => ?_
  obtain ⟨rfl, hname⟩ := hname
  refine (moreParams_reads name last rest).andThen fun ids vs last rest _ hids => ?_
  exact reads_done (by simpa using hids hname)
termination_by 2 * ts.length + 1

theorem moreParams_reads (name last : Token) (ts : List Token) :
    (moreParams eof last ts).1.Reads ts fun ids us _ => NamesBehind name ids us := by
  cases ts with
  | nil =>
      rw [moreParams_nil]
      exact reads_giveUp
  | cons t ts =>
      rw [moreParams_cons]
      split
      next ht =>
        refine ((someParams_reads t ts).imp fun ids us _ hids hname => ?_).cons
        obtain ⟨vs, u, rfl, hvs, hu⟩ := hids
        exact ⟨_, u, rfl, .moreNames hname ht hvs, hu⟩
      next =>
        refine expect_reads.andThen fun u us last rest _ hu => ?_
        obtain ⟨rfl, hu⟩ := hu
        exact reads_done fun hname => ⟨_, u, rfl, .lastName hname, hu⟩
termination_by 2 * ts.length

end

theorem params_reads :
    (params eof last ts).1.Reads ts fun ids us _ =>
      ∀ t, t.kind = .lparen → Derives true (.params (ids.map Ident.erase)) (t :: us) := by
  have hsome : (someParams eof last ts).1.Reads ts fun ids us _ =>
      ∀ t, t.kind = .lparen → Derives true (.params (ids.map Ident.erase)) (t :: us) := by
    refine (someParams_reads last ts).imp fun ids us _ hids t ht => ?_
    obtain ⟨vs, u, rfl, hvs, hu⟩ := hids
    exact .someParams ht hvs hu
  cases ts with
  | nil => exact hsome
  | cons t ts =>
      rw [params_cons]
      split
      next hu => exact reads_done_cons fun _ ht => .noParams ht hu
      next => exact hsome

/-! ## Expressions and statements -/

/-- The tokens end a list of expressions that the expression before them begins. -/
def ExprsBehind (es : List (Expr Token)) (us : List Token) : Prop :=
  ∀ (e : Expr Unit) vs, Derives true (.expr .lowest e) vs →
    EndsWith (.exprs (e :: es.map Expr.erase)) .rparen (vs ++ us)

/-- The tokens are the other branch of a condition, if there is one. -/
def IsAlternative (b : Option (Block Token)) (us : List Token) : Prop :=
  match b with
  | none => us = []
  | some b => ∃ o vs, us = o :: vs ∧ o.kind = .keyword .else_ ∧
      Derives true (.block b.erase) vs

mutual

theorem expressionAt_reads (p : Precedence) (t : Token) (ts : List Token) :
    (expressionAt eof p t ts).1.Reads ts fun e us rest =>
      Derives true (.expr p.tighter e.erase) (t :: us) ∧ Stops p rest := by
  rw [expressionAt_eq]
  refine (operand_reads t ts).andThen fun left us last rest hlen hleft => ?_
  exact operators_reads p .unary left last rest (t :: us) hleft p.tighter.rank_le_unary
termination_by 5 * (ts.length + 1) + 1

theorem expression_reads (p : Precedence) (ts : List Token) :
    (expression eof p ts).1.Reads ts fun e us rest =>
      Derives true (.expr p.tighter e.erase) us ∧ Stops p rest := by
  cases ts with
  | nil =>
      rw [expression_nil]
      exact reads_giveUp
  | cons t ts =>
      rw [expression_cons]
      exact (expressionAt_reads p t ts).cons
termination_by 5 * ts.length + 2

theorem operand_reads (t : Token) (ts : List Token) :
    (operand eof t ts).1.Reads ts fun e us rest => StandsBefore .unary e (t :: us) rest := by
  cases hk : t.kind with
  | ident =>
      rw [operand_ident hk]
      exact reads_done (.inl (.primary (.ident hk)))
  | int =>
      rw [operand_int hk]
      split
      next hn =>
        obtain ⟨hlt, rfl⟩ := Token.integer?_eq_some_iff.mp hn
        exact reads_done (.inl (.primary (.int hk rfl hlt)))
      next => exact reads_giveUp
  | bang | minus =>
      obtain ⟨op, hop⟩ : ∃ op, UnaryOp.ofKind? t.kind = some op := ⟨_, by rw [hk]; rfl⟩
      rw [operand_unary hop]
      refine (expression_reads .unary ts).andThen fun e us last rest _ he => ?_
      exact reads_done (.inr ⟨by simpa using Derives.unary hop he.1, he.2⟩)
  | lparen =>
      rw [operand_lparen hk]
      refine (expression_reads .lowest ts).andThen fun e us last rest _ he => ?_
      refine expect_reads.andThen fun u vs last rest _ hu => ?_
      obtain ⟨rfl, hu⟩ := hu
      refine reads_done (.inl (.primary ?_))
      simpa using Derives.group hk he.1.loosest hu
  | keyword w =>
      cases w with
      | true_ =>
          rw [operand_true hk]
          exact reads_done (.inl (.primary (.true_ hk)))
      | false_ =>
          rw [operand_false hk]
          exact reads_done (.inl (.primary (.false_ hk)))
      | if_ =>
          rw [operand_if hk]
          refine expect_reads.andThen fun l us _ rest _ hl => ?_
          obtain ⟨rfl, hl⟩ := hl
          refine (expression_reads .lowest rest).andThen fun c cs last rest _ hc => ?_
          refine expect_reads.andThen fun r us last rest _ hr => ?_
          obtain ⟨rfl, hr⟩ := hr
          refine expect_reads.andThen fun brace us _ rest _ hbrace => ?_
          obtain ⟨rfl, hbrace⟩ := hbrace
          refine (block_reads brace rest).andThen fun b bs last rest _ hb => ?_
          refine (alternative_reads last rest).andThen fun a as last rest _ ha => ?_
          refine reads_done (.inl (.primary ?_))
          cases a with
          | none =>
              obtain rfl : as = [] := ha
              simpa using Derives.if_ hk hl hc.1.loosest hr (hb hbrace)
          | some a =>
              obtain ⟨o, ws, rfl, ho, hws⟩ := ha
              simpa using Derives.ifElse hk hl hc.1.loosest hr (hb hbrace) ho hws
      | function =>
          rw [operand_function hk]
          refine expect_reads.andThen fun l us last rest _ hl => ?_
          obtain ⟨rfl, hl⟩ := hl
          refine params_reads.andThen fun ids us last rest _ hids => ?_
          refine expect_reads.andThen fun brace vs _ rest _ hbrace => ?_
          obtain ⟨rfl, hbrace⟩ := hbrace
          refine (block_reads brace rest).andThen fun b bs last rest _ hb => ?_
          refine reads_done (.inl (.primary ?_))
          simpa using Derives.function hk (hids l hl) (hb hbrace)
      | let_ | else_ | return_ =>
          rw [operand_other (by simp [Kind.OpensExpr, hk])]
          exact reads_giveUp
  | _ =>
      rw [operand_other (by simp [Kind.OpensExpr, hk])]
      exact reads_giveUp
termination_by 5 * (ts.length + 1)

theorem alternative_reads (last : Token) (ts : List Token) :
    (alternative eof last ts).1.Reads ts fun b us _ => IsAlternative b us := by
  cases ts with
  | nil =>
      rw [alternative_nil]
      exact reads_done rfl
  | cons t ts =>
      rw [alternative_cons]
      split
      next ht =>
        refine (expect_reads.andThen fun brace us _ rest _ hbrace => ?_).cons
        obtain ⟨rfl, hbrace⟩ := hbrace
        refine (block_reads brace rest).andThen fun b bs last rest _ hb => ?_
        exact reads_done ⟨t, brace :: bs, by simp, ht, hb hbrace⟩
      next => exact reads_done rfl
termination_by 5 * ts.length

theorem operators_reads (p q : Precedence) (left : Expr Token) (last : Token)
    (ts us : List Token) (hleft : StandsBefore q left us ts)
    (hpq : p.tighter.rank ≤ q.rank) :
    (operators eof p left last ts).1.Reads ts fun e vs rest =>
      Derives true (.expr p.tighter e.erase) (us ++ vs) ∧ Stops p rest := by
  match ts with
  | [] =>
      rw [operators_nil]
      exact reads_done ⟨by simpa using hleft.expr hpq, stops_nil⟩
  | t :: ts =>
      by_cases hparen : t.kind = .lparen
      · rw [operators_lparen hparen]
        refine ((args_reads ts).andThen fun es vs last rest _ hes => ?_).cons
        -- only what can be called stands before a parenthesis
        have hcalled : Derives true (.called left.erase) us := by
          obtain h | ⟨-, h⟩ := hleft
          · exact h
          · exact absurd hparen (h t (by simp)).1
        have hcall := Derives.call hcalled (hes t hparen)
        refine (operators_reads p .unary (.call t left es) last rest _
          (.inl (by simpa using hcall)) p.tighter.rank_le_unary).imp ?_
        intro e ws rest he
        simpa using he
      cases hop : BinaryOp.ofKind? t.kind with
      | none =>
          rw [operators_other hparen hop]
          refine reads_done ⟨by simpa using hleft.expr hpq, ?_⟩
          simp [Stops, hparen, hop]
      | some op =>
          rw [operators_binary hop]
          split
          next hlt =>
            refine ((expression_reads op.precedence ts).andThen
              fun right vs last rest _ hright => ?_).cons
            -- nothing tighter than the left operand follows, hence not this operator
            have hleft : Derives true (.expr op.precedence left.erase) us := by
              obtain h | ⟨h, hstops⟩ := hleft
              · exact (Derives.called h).loosen (Precedence.rank_le_unary _)
              · exact h.loosen ((hstops t (by simp)).2 op hop)
            have hbinary := Derives.binary hleft hop hright.1
            have hp := op.rank_lt_unary
            have htighter := Precedence.rank_tighter (p := p) (by rintro rfl; omega)
            refine (operators_reads p op.precedence (.binary t op left right) last rest _
              (.inr ⟨by simpa using hbinary, hright.2⟩) (by omega)).imp ?_
            intro e ws rest he
            simpa using he
          next hle =>
            refine reads_done ⟨by simpa using hleft.expr hpq, ?_⟩
            simp [Stops, hparen, hop]
            omega
termination_by 5 * ts.length

theorem args_reads (ts : List Token) :
    (args eof ts).1.Reads ts fun es us _ =>
      ∀ t, t.kind = .lparen → Derives true (.args (es.map Expr.erase)) (t :: us) := by
  cases ts with
  | nil =>
      rw [args_nil]
      exact reads_giveUp
  | cons u ts =>
      rw [args_cons]
      split
      next hu => exact reads_done_cons fun _ ht => .noArgs ht hu
      next =>
        refine ((expressionAt_reads .lowest u ts).andThen fun e us last rest _ he => ?_).cons
        refine (moreArgs_reads last rest).andThen fun es vs last rest _ hes => ?_
        refine reads_done fun t ht => ?_
        obtain ⟨ws, w, heq, hws, hw⟩ := hes _ _ he.1.loosest
        simpa [← heq] using Derives.someArgs ht hws hw
termination_by 5 * ts.length + 2

theorem moreArgs_reads (last : Token) (ts : List Token) :
    (moreArgs eof last ts).1.Reads ts fun es us _ => ExprsBehind es us := by
  cases ts with
  | nil =>
      rw [moreArgs_nil]
      exact reads_giveUp
  | cons t ts =>
      rw [moreArgs_cons]
      split
      next ht =>
        refine ((expression_reads .lowest ts).andThen fun e us last rest _ he => ?_).cons
        refine (moreArgs_reads last rest).andThen fun es vs last rest _ hes => ?_
        refine reads_done fun f fs hf => ?_
        obtain ⟨ws, w, heq, hws, hw⟩ := hes _ _ he.1.loosest
        exact ⟨_, w, by simp [heq], .moreExprs hf ht hws, hw⟩
      next =>
        refine expect_reads.andThen fun u us last rest _ hu => ?_
        obtain ⟨rfl, hu⟩ := hu
        exact reads_done fun f fs hf => ⟨fs, u, by simp, .lastExpr hf, hu⟩
termination_by 5 * ts.length

theorem block_reads (brace : Token) (ts : List Token) :
    (block eof brace ts).1.Reads ts fun b us _ =>
      brace.kind = .lbrace → Derives true (.block b.erase) (brace :: us) := by
  rw [block_eq]
  refine (blockStatements_reads ts).andThen fun ss us last rest _ hss => ?_
  obtain ⟨vs, u, rfl, hvs, hu⟩ := hss
  exact reads_done fun hbrace => by simpa using Derives.braces hbrace hvs hu
termination_by 5 * ts.length + 4

theorem blockStatements_reads (ts : List Token) :
    (blockStatements eof ts).1.Reads ts fun ss us _ =>
      EndsWith (.statements (ss.map Stmt.erase)) .rbrace us := by
  cases ts with
  | nil =>
      rw [blockStatements_nil]
      exact reads_giveUp
  | cons t ts =>
      by_cases ht : t.kind = .rbrace
      · rw [blockStatements_rbrace ht]
        exact reads_done_cons ⟨[], t, rfl, .done, ht⟩
      have hlen := (statement eof t ts).2
      refine .of_errors fun herrors => ?_
      have hfirst : (statement eof t ts).1.errors = [] := by
        rw [blockStatements_cons ht] at herrors
        dsimp only at herrors
        split at herrors
        · exact herrors
        · exact (List.append_eq_nil_iff.mp herrors).1
      obtain ⟨s, -, hs, -⟩ := statement_reads t ts hfirst
      rw [blockStatements_cons_some ht hs]
      refine ((statement_reads t ts).andThen fun s us last rest _ hstatement => ?_).cons
      obtain ⟨ending, hus, hseam⟩ := hstatement
      refine (blockStatements_reads rest).append_eq.andThen fun ss vs last rest' _ hss => ?_
      obtain ⟨rfl, ws, u, rfl, hws, hu⟩ := hss
      refine reads_done ⟨t :: us ++ ws, u, by simp, ?_, hu⟩
      refine .next hus hws fun _ hending hcont => hseam hending ?_
      rw [List.append_assoc]
      exact hcont.append
termination_by 5 * ts.length + 3

theorem statement_reads (t : Token) (ts : List Token) :
    (statement eof t ts).1.Reads ts fun s us rest =>
      ∃ ending, Derives true (.statement s.erase ending) (t :: us) ∧
        (ending = .expression → ¬Continues rest) := by
  by_cases hlet : t.kind = .keyword .let_
  · rw [statement_let hlet]
    refine expect_reads.andThen fun name us last rest _ hname => ?_
    obtain ⟨rfl, hname⟩ := hname
    refine expect_reads.andThen fun eq us _ rest _ heq => ?_
    obtain ⟨rfl, heq⟩ := heq
    refine (expression_reads .lowest rest).andThen fun e us last rest _ he => ?_
    have hclause := Derives.let_ hlet hname heq he.1.loosest
    simpa using finish_reads (s := .let_ t ⟨name, name.literal⟩ e) hclause he.2.not_continues
  by_cases hreturn : t.kind = .keyword .return_
  · rw [statement_return hreturn]
    refine (expression_reads .lowest ts).andThen fun e us last rest _ he => ?_
    have hclause := Derives.return_ hreturn he.1.loosest
    simpa using finish_reads (s := .return_ t e) hclause he.2.not_continues
  by_cases hbrace : t.kind = .lbrace
  · rw [statement_lbrace hbrace]
    refine (block_reads t ts).andThen fun b us last rest _ hb => ?_
    exact reads_done ⟨_, by simpa using Derives.block (hb hbrace), by simp⟩
  · rw [statement_expr hlet hreturn hbrace]
    refine (expressionAt_reads .lowest t ts).andThen fun e us last rest _ he => ?_
    have hclause := Derives.expr he.1.loosest
    simpa using finish_reads (s := .expr t e) hclause he.2.not_continues
termination_by 5 * (ts.length + 1) + 2

end

/-- A whole sequence of tokens that is read without errors derives what is read. -/
theorem statements_reads : (ts : List Token) → (statements eof ts).2 = [] →
    Derives true (.statements ((statements eof ts).1.map Stmt.erase)) ts
  | [], _ => by
      rw [statements_nil]
      exact .done
  | t :: ts, h => by
      rw [statements_cons] at h ⊢
      have hlen := (statement eof t ts).2
      obtain ⟨hr, hmore⟩ := List.append_eq_nil_iff.mp h
      obtain ⟨s, us, hs, hts, ending, hus, hseam⟩ := statement_reads t ts hr
      have hrest := statements_reads (statement eof t ts).1.rest hmore
      have hnext := Derives.next hus hrest fun _ hending => hseam hending
      simpa [hs, ← hts] using hnext
termination_by ts => ts.length

end Parse

end Monkey
