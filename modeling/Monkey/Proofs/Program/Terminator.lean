import Monkey.Program.Equality
import Monkey.Proofs.Grammar.Soundness
import Monkey.Proofs.Program.Relabel

/-!
# Semicolons end statements

What stands behind a semicolon has nothing to do with what stands before it. Only a statement
takes a semicolon, as its end, or an expression that gives up on it; lists and conditions that
are not finished leave it where it is. So a text that ends with a semicolon can be read by
itself (`parse_semicolon`), unless the semicolon belongs to a block that is still open.
-/

namespace Monkey

namespace Reply

variable {β γ : Type} {F : Prop} {through : Prop} {semi last : Token} {us ts vs : List Token}

/-- Replies to tokens that begin with `ts` and a semicolon, where the one has `us` behind it
and the other has nothing. They say the same, and both leave the semicolon and the same tokens
before it. The semicolon can be taken by a reply that gives up, and also by others if
`through`. -/
structure Agree (through : Prop) (semi : Token) (us ts : List Token) (r r' : Reply β) : Prop where
  result : r.result? = r'.result?
  errors : r.errors = r'.errors
  last : r.last = r'.last
  rest : (∃ vs, vs <:+ ts ∧ r.rest = vs ++ semi :: us ∧ r'.rest = vs ++ [semi]) ∨
    (r'.result? = none ∨ through) ∧ r.rest = us ∧ r'.rest = []

/-- The replies agree if `F` holds, and if there are no errors. -/
def UpTo (F through : Prop) (semi : Token) (us ts : List Token) (r r' : Reply β) : Prop :=
  F ∨ r'.errors = [] → r.Agree through semi us ts r'

theorem upTo_done {b : β} (hvs : vs <:+ ts) :
    (done b last (vs ++ semi :: us)).UpTo F through semi us ts (done b last (vs ++ [semi])) :=
  fun _ => ⟨rfl, rfl, rfl, .inl ⟨vs, hvs, rfl, rfl⟩⟩

theorem upTo_giveUp {error : SyntaxError} (hvs : vs <:+ ts) :
    (giveUp error last (vs ++ semi :: us) : Reply β).UpTo F through semi us ts
      (giveUp error last (vs ++ [semi])) :=
  fun _ => ⟨rfl, rfl, rfl, .inl ⟨vs, hvs, rfl, rfl⟩⟩

/-- An expression gives up on the semicolon itself. -/
theorem upTo_giveUp_behind {error : SyntaxError} :
    (giveUp error last us : Reply β).UpTo F through semi us ts (giveUp error last []) :=
  fun _ => ⟨rfl, rfl, rfl, .inr ⟨.inl rfl, rfl, rfl⟩⟩

namespace UpTo

variable {r r' : Reply β}

theorem mono (h : r.UpTo F through semi us vs r') (hvs : vs <:+ ts) :
    r.UpTo F through semi us ts r' := by
  intro hF
  obtain ⟨hresult, herrors, hlast, hrest⟩ := h hF
  refine ⟨hresult, herrors, hlast, hrest.imp_left ?_⟩
  rintro ⟨ws, hws, hr⟩
  exact ⟨ws, hws.trans hvs, hr⟩

theorem andThen {f f' : β → Token → List Token → Reply γ}
    (hr : r.UpTo F False semi us ts r')
    (hf : ∀ b last vs, vs <:+ ts → r'.result? = some b →
      (f b last (vs ++ semi :: us)).UpTo F through semi us vs (f' b last (vs ++ [semi]))) :
    (r.andThen f).UpTo F through semi us ts (r'.andThen f') := by
  intro hF
  cases hb : r'.result? with
  | none =>
      rw [andThen_of_none hb] at hF ⊢
      obtain ⟨hresult, herrors, hlast, hrest⟩ := hr hF
      rw [andThen_of_none (hresult.trans hb)]
      exact ⟨rfl, herrors, hlast, hrest.imp_right fun h => ⟨.inl rfl, h.2⟩⟩
  | some b =>
      rw [andThen_of_some hb] at hF ⊢
      obtain ⟨hresult, herrors, hlast, hrest⟩ :=
        hr (hF.imp_right fun h => (List.append_eq_nil_iff.mp h).1)
      obtain ⟨vs, hvs, hrest, hrest'⟩ := hrest.resolve_right fun h => by simp [hb] at h
      rw [andThen_of_some (hresult.trans hb), herrors, hlast, hrest]
      rw [hrest'] at hF ⊢
      obtain ⟨hresult, herrors, hlast, hrest⟩ := (hf b r'.last vs hvs hb).mono hvs
        (hF.imp_right fun h => (List.append_eq_nil_iff.mp h).2)
      exact ⟨hresult, congrArg (r'.errors ++ ·) herrors, hlast, hrest⟩

end UpTo

end Reply

namespace Parse

open Reply

variable {F through : Prop} {eof eof' semi last t : Token} {us ts : List Token}

/-! ## Single tokens and parameters -/

theorem expect_result {kind : Kind} {b : Token}
    (h : (expect eof kind last ts).1.result? = some b) : b ∈ ts ∧ b.kind = kind := by
  cases ts with
  | nil => cases h
  | cons t ts =>
      rw [expect_cons] at h
      split at h
      next hk =>
        cases h
        exact ⟨List.mem_cons_self, hk⟩
      next => cases h

theorem expect_upTo (hsemi : semi.kind = .semicolon) {kind : Kind} (hkind : kind ≠ .semicolon)
    (last : Token) (ts : List Token) :
    (expect eof kind last (ts ++ semi :: us)).1.UpTo F through semi us ts
      (expect eof' kind last (ts ++ [semi])).1 := by
  cases ts with
  | nil =>
      have hne : semi.kind ≠ kind := fun h => hkind (h.symm.trans hsemi)
      rw [List.nil_append, List.nil_append, expect_cons, expect_cons, if_neg hne, if_neg hne]
      exact upTo_giveUp (List.suffix_refl [])
  | cons t ts =>
      rw [List.cons_append, List.cons_append, expect_cons, expect_cons]
      split
      · exact upTo_done (List.suffix_cons t ts)
      · exact upTo_giveUp (List.suffix_refl (t :: ts))

theorem finish_upTo (hsemi : semi.kind = .semicolon) (s : Stmt Token) (last : Token)
    (ts : List Token) :
    (finish s last (ts ++ semi :: us)).1.UpTo F True semi us ts
      (finish s last (ts ++ [semi])).1 := by
  cases ts with
  | nil =>
      rw [List.nil_append, List.nil_append, finish_cons, finish_cons, if_pos hsemi, if_pos hsemi]
      exact fun _ => ⟨rfl, rfl, rfl, .inr ⟨.inr trivial, rfl, rfl⟩⟩
  | cons t ts =>
      rw [List.cons_append, List.cons_append, finish_cons, finish_cons]
      split
      · exact upTo_done (List.suffix_cons t ts)
      · exact upTo_done (List.suffix_refl (t :: ts))

mutual

theorem someParams_upTo (hsemi : semi.kind = .semicolon) (last : Token) (ts : List Token) :
    (someParams eof last (ts ++ semi :: us)).1.UpTo F False semi us ts
      (someParams eof' last (ts ++ [semi])).1 := by
  rw [someParams_eq, someParams_eq]
  refine (expect_upTo hsemi (by decide) last ts).andThen fun name last vs hvs _ => ?_
  have hlen := hvs.length_le
  refine (moreParams_upTo hsemi last vs).andThen fun ids last ws _ _ => ?_
  exact upTo_done (List.suffix_refl ws)
termination_by 2 * ts.length + 1

theorem moreParams_upTo (hsemi : semi.kind = .semicolon) (last : Token) (ts : List Token) :
    (moreParams eof last (ts ++ semi :: us)).1.UpTo F False semi us ts
      (moreParams eof' last (ts ++ [semi])).1 := by
  cases ts with
  | nil =>
      have hcomma : semi.kind ≠ .comma := by simp [hsemi]
      rw [List.nil_append, List.nil_append, moreParams_cons, moreParams_cons, if_neg hcomma,
        if_neg hcomma]
      refine (expect_upTo hsemi (by decide) last []).andThen fun _ last vs _ _ => ?_
      exact upTo_done (List.suffix_refl vs)
  | cons t ts =>
      rw [List.cons_append, List.cons_append, moreParams_cons, moreParams_cons]
      split
      · exact (someParams_upTo hsemi t ts).mono (List.suffix_cons t ts)
      · refine (expect_upTo hsemi (by decide) last (t :: ts)).andThen fun _ last vs _ _ => ?_
        exact upTo_done (List.suffix_refl vs)
termination_by 2 * ts.length

end

theorem params_upTo (hsemi : semi.kind = .semicolon) (last : Token) (ts : List Token) :
    (params eof last (ts ++ semi :: us)).1.UpTo F False semi us ts
      (params eof' last (ts ++ [semi])).1 := by
  cases ts with
  | nil =>
      have hparen : semi.kind ≠ .rparen := by simp [hsemi]
      rw [List.nil_append, List.nil_append, params_cons, params_cons, if_neg hparen,
        if_neg hparen]
      exact someParams_upTo hsemi last []
  | cons t ts =>
      rw [List.cons_append, List.cons_append, params_cons, params_cons]
      split
      · exact upTo_done (List.suffix_cons t ts)
      · exact someParams_upTo hsemi last (t :: ts)

/-! ## Expressions and statements -/

/-- The tokens open no block. -/
def Flat (ts : List Token) : Prop :=
  ∀ t ∈ ts, t.kind ≠ .lbrace

theorem Flat.of_suffix {vs : List Token} (h : Flat ts) (hvs : vs <:+ ts) : Flat vs :=
  fun t ht => h t (hvs.mem ht)

theorem operand_semicolon (hsemi : semi.kind = .semicolon) :
    (operand eof semi ts).1 = giveUp (.noExpression semi) semi ts :=
  operand_other (by simp [Kind.OpensExpr, hsemi])

theorem expressionAt_semicolon (hsemi : semi.kind = .semicolon) {p : Precedence} :
    (expressionAt eof p semi ts).1 = giveUp (.noExpression semi) semi ts := by
  rw [expressionAt_eq, operand_semicolon hsemi]
  rfl

/-- A block that is opened is not among flat tokens. -/
theorem lbrace_upTo {β : Type} (hsemi : semi.kind = .semicolon) (hF : F → Flat ts)
    {f f' : Token → Token → List Token → Reply β}
    (hf : ∀ brace last vs, vs <:+ ts → ¬F →
      (f brace last (vs ++ semi :: us)).UpTo F through semi us vs
        (f' brace last (vs ++ [semi]))) :
    ((expect eof .lbrace last (ts ++ semi :: us)).1.andThen f).UpTo F through semi us ts
      ((expect eof' .lbrace last (ts ++ [semi])).1.andThen f') := by
  refine (expect_upTo hsemi (by decide) last ts).andThen fun brace last vs hvs hbrace => ?_
  obtain ⟨hmem, hkind⟩ := expect_result hbrace
  refine hf brace last vs hvs fun h => ?_
  rcases List.mem_append.mp hmem with hmem | hmem
  · exact hF h brace hmem hkind
  · rw [List.mem_singleton.mp hmem, hsemi] at hkind
    cases hkind

mutual

theorem expressionAt_upTo (hsemi : semi.kind = .semicolon) (p : Precedence) (t : Token)
    (ts : List Token) (hF : F → Flat ts) :
    (expressionAt eof p t (ts ++ semi :: us)).1.UpTo F False semi us ts
      (expressionAt eof' p t (ts ++ [semi])).1 := by
  rw [expressionAt_eq, expressionAt_eq]
  refine (operand_upTo hsemi t ts hF).andThen fun left last vs hvs _ => ?_
  have hlen := hvs.length_le
  exact operators_upTo hsemi p left last vs fun h => (hF h).of_suffix hvs
termination_by 5 * (ts.length + 1) + 1

theorem expression_upTo (hsemi : semi.kind = .semicolon) (p : Precedence) (ts : List Token)
    (hF : F → Flat ts) :
    (expression eof p (ts ++ semi :: us)).1.UpTo F False semi us ts
      (expression eof' p (ts ++ [semi])).1 := by
  cases ts with
  | nil =>
      rw [List.nil_append, List.nil_append, expression_cons, expression_cons,
        expressionAt_semicolon hsemi, expressionAt_semicolon hsemi]
      exact upTo_giveUp_behind
  | cons t ts =>
      rw [List.cons_append, List.cons_append, expression_cons, expression_cons]
      refine (expressionAt_upTo hsemi p t ts fun h => ?_).mono (List.suffix_cons t ts)
      exact (hF h).of_suffix (List.suffix_cons t ts)
termination_by 5 * ts.length + 2

theorem operand_upTo (hsemi : semi.kind = .semicolon) (t : Token) (ts : List Token)
    (hF : F → Flat ts) :
    (operand eof t (ts ++ semi :: us)).1.UpTo F False semi us ts
      (operand eof' t (ts ++ [semi])).1 := by
  cases hk : t.kind with
  | ident =>
      rw [operand_ident hk, operand_ident hk]
      exact upTo_done (List.suffix_refl ts)
  | int =>
      rw [operand_int hk, operand_int hk]
      split
      · exact upTo_done (List.suffix_refl ts)
      · exact upTo_giveUp (List.suffix_refl ts)
  | bang | minus =>
      obtain ⟨op, hop⟩ : ∃ op, UnaryOp.ofKind? t.kind = some op := ⟨_, by rw [hk]; rfl⟩
      rw [operand_unary hop, operand_unary hop]
      refine (expression_upTo hsemi .unary ts hF).andThen fun _ _ vs _ _ => ?_
      exact upTo_done (List.suffix_refl vs)
  | lparen =>
      rw [operand_lparen hk, operand_lparen hk]
      refine (expression_upTo hsemi .lowest ts hF).andThen fun _ last vs _ _ => ?_
      refine (expect_upTo hsemi (by decide) last vs).andThen fun _ _ vs _ _ => ?_
      exact upTo_done (List.suffix_refl vs)
  | keyword w =>
      cases w with
      | true_ =>
          rw [operand_true hk, operand_true hk]
          exact upTo_done (List.suffix_refl ts)
      | false_ =>
          rw [operand_false hk, operand_false hk]
          exact upTo_done (List.suffix_refl ts)
      | if_ =>
          rw [operand_if hk, operand_if hk]
          refine (expect_upTo hsemi (by decide) t ts).andThen fun _ _ vs₁ hvs₁ _ => ?_
          have hlen₁ := hvs₁.length_le
          have hF₁ := fun h => (hF h).of_suffix hvs₁
          refine (expression_upTo hsemi .lowest vs₁ hF₁).andThen fun _ last vs₂ hvs₂ _ => ?_
          have hlen₂ := hvs₂.length_le
          have hF₂ := fun h => (hF₁ h).of_suffix hvs₂
          refine (expect_upTo hsemi (by decide) last vs₂).andThen fun _ last vs₃ hvs₃ _ => ?_
          have hlen₃ := hvs₃.length_le
          have hF₃ := fun h => (hF₂ h).of_suffix hvs₃
          refine lbrace_upTo hsemi hF₃ fun brace _ vs₄ hvs₄ hnot => ?_
          have hlen₄ := hvs₄.length_le
          refine (block_upTo hsemi brace vs₄ hnot).andThen fun _ last vs₅ hvs₅ _ => ?_
          have hlen₅ := hvs₅.length_le
          refine (alternative_upTo hsemi last vs₅ hnot).andThen fun _ _ vs _ _ => ?_
          exact upTo_done (List.suffix_refl vs)
      | function =>
          rw [operand_function hk, operand_function hk]
          refine (expect_upTo hsemi (by decide) t ts).andThen fun _ last vs₁ hvs₁ _ => ?_
          have hlen₁ := hvs₁.length_le
          have hF₁ := fun h => (hF h).of_suffix hvs₁
          refine (params_upTo hsemi last vs₁).andThen fun _ last vs₂ hvs₂ _ => ?_
          have hlen₂ := hvs₂.length_le
          have hF₂ := fun h => (hF₁ h).of_suffix hvs₂
          refine lbrace_upTo hsemi hF₂ fun brace _ vs₃ hvs₃ hnot => ?_
          have hlen₃ := hvs₃.length_le
          refine (block_upTo hsemi brace vs₃ hnot).andThen fun _ _ vs _ _ => ?_
          exact upTo_done (List.suffix_refl vs)
      | let_ | else_ | return_ =>
          have hother : ¬t.kind.OpensExpr := by simp [Kind.OpensExpr, hk]
          rw [operand_other hother, operand_other hother]
          exact upTo_giveUp (List.suffix_refl ts)
  | _ =>
      have hother : ¬t.kind.OpensExpr := by simp [Kind.OpensExpr, hk]
      rw [operand_other hother, operand_other hother]
      exact upTo_giveUp (List.suffix_refl ts)
termination_by 5 * (ts.length + 1)

theorem alternative_upTo (hsemi : semi.kind = .semicolon) (last : Token) (ts : List Token)
    (hF : ¬F) :
    (alternative eof last (ts ++ semi :: us)).1.UpTo F False semi us ts
      (alternative eof' last (ts ++ [semi])).1 := by
  cases ts with
  | nil =>
      have helse : semi.kind ≠ .keyword .else_ := by simp [hsemi]
      rw [List.nil_append, List.nil_append, alternative_cons, alternative_cons, if_neg helse,
        if_neg helse]
      exact upTo_done (List.suffix_refl [])
  | cons t ts =>
      rw [List.cons_append, List.cons_append, alternative_cons, alternative_cons]
      split
      · refine UpTo.mono ?_ (List.suffix_cons t ts)
        refine lbrace_upTo hsemi (fun h => absurd h hF) fun brace _ vs hvs _ => ?_
        have hlen := hvs.length_le
        refine (block_upTo hsemi brace vs hF).andThen fun _ _ vs _ _ => ?_
        exact upTo_done (List.suffix_refl vs)
      · exact upTo_done (List.suffix_refl (t :: ts))
termination_by 5 * ts.length

theorem operators_upTo (hsemi : semi.kind = .semicolon) (p : Precedence) (left : Expr Token)
    (last : Token) (ts : List Token) (hF : F → Flat ts) :
    (operators eof p left last (ts ++ semi :: us)).1.UpTo F False semi us ts
      (operators eof' p left last (ts ++ [semi])).1 := by
  match ts with
  | [] =>
      have hparen : semi.kind ≠ .lparen := by simp [hsemi]
      have hop : BinaryOp.ofKind? semi.kind = none := by rw [hsemi]; rfl
      rw [List.nil_append, List.nil_append, operators_other hparen hop,
        operators_other hparen hop]
      exact upTo_done (List.suffix_refl [])
  | t :: ts =>
      have hF' := fun h => (hF h).of_suffix (List.suffix_cons t ts)
      rw [List.cons_append, List.cons_append]
      by_cases hk : t.kind = .lparen
      · rw [operators_lparen hk, operators_lparen hk]
        refine UpTo.mono ?_ (List.suffix_cons t ts)
        refine (args_upTo hsemi ts hF').andThen fun es last vs hvs _ => ?_
        have hlen := hvs.length_le
        exact operators_upTo hsemi p _ last vs fun h => (hF' h).of_suffix hvs
      cases hop : BinaryOp.ofKind? t.kind with
      | none =>
          rw [operators_other hk hop, operators_other hk hop]
          exact upTo_done (List.suffix_refl (t :: ts))
      | some op =>
          rw [operators_binary hop, operators_binary hop]
          split
          · refine UpTo.mono ?_ (List.suffix_cons t ts)
            refine (expression_upTo hsemi _ ts hF').andThen fun right last vs hvs _ => ?_
            have hlen := hvs.length_le
            exact operators_upTo hsemi p _ last vs fun h => (hF' h).of_suffix hvs
          · exact upTo_done (List.suffix_refl (t :: ts))
termination_by 5 * ts.length

theorem args_upTo (hsemi : semi.kind = .semicolon) (ts : List Token) (hF : F → Flat ts) :
    (args eof (ts ++ semi :: us)).1.UpTo F False semi us ts (args eof' (ts ++ [semi])).1 := by
  match ts, hF with
  | [], hF =>
      have hparen : semi.kind ≠ .rparen := by simp [hsemi]
      rw [List.nil_append, List.nil_append, args_cons, args_cons, if_neg hparen, if_neg hparen,
        expressionAt_semicolon hsemi, expressionAt_semicolon hsemi]
      exact upTo_giveUp_behind
  | t :: ts, hF =>
      have hF' := fun h => (hF h).of_suffix (List.suffix_cons t ts)
      rw [List.cons_append, List.cons_append, args_cons, args_cons]
      split
      · exact upTo_done (List.suffix_cons t ts)
      · refine UpTo.mono ?_ (List.suffix_cons t ts)
        refine (expressionAt_upTo hsemi .lowest t ts hF').andThen fun _ last vs hvs _ => ?_
        have hlen := hvs.length_le
        have hF₁ := fun h => (hF' h).of_suffix hvs
        refine (moreArgs_upTo hsemi last vs hF₁).andThen fun _ _ vs _ _ => ?_
        exact upTo_done (List.suffix_refl vs)
termination_by 5 * ts.length + 2

theorem moreArgs_upTo (hsemi : semi.kind = .semicolon) (last : Token) (ts : List Token)
    (hF : F → Flat ts) :
    (moreArgs eof last (ts ++ semi :: us)).1.UpTo F False semi us ts
      (moreArgs eof' last (ts ++ [semi])).1 := by
  match ts, hF with
  | [], hF =>
      have hcomma : semi.kind ≠ .comma := by simp [hsemi]
      rw [List.nil_append, List.nil_append, moreArgs_cons, moreArgs_cons, if_neg hcomma,
        if_neg hcomma]
      refine (expect_upTo hsemi (by decide) last []).andThen fun _ _ vs _ _ => ?_
      exact upTo_done (List.suffix_refl vs)
  | t :: ts, hF =>
      have hF' := fun h => (hF h).of_suffix (List.suffix_cons t ts)
      rw [List.cons_append, List.cons_append, moreArgs_cons, moreArgs_cons]
      split
      · refine UpTo.mono ?_ (List.suffix_cons t ts)
        refine (expression_upTo hsemi .lowest ts hF').andThen fun _ last vs hvs _ => ?_
        have hlen := hvs.length_le
        have hF₁ := fun h => (hF' h).of_suffix hvs
        refine (moreArgs_upTo hsemi last vs hF₁).andThen fun _ _ vs _ _ => ?_
        exact upTo_done (List.suffix_refl vs)
      · refine (expect_upTo hsemi (by decide) last (t :: ts)).andThen fun _ _ vs _ _ => ?_
        exact upTo_done (List.suffix_refl vs)
termination_by 5 * ts.length

theorem block_upTo (hsemi : semi.kind = .semicolon) (brace : Token) (ts : List Token)
    (hF : ¬F) :
    (block eof brace (ts ++ semi :: us)).1.UpTo F False semi us ts
      (block eof' brace (ts ++ [semi])).1 := by
  rw [block_eq, block_eq]
  refine (blockStatements_upTo hsemi ts hF).andThen fun _ _ vs _ _ => ?_
  exact upTo_done (List.suffix_refl vs)
termination_by 5 * ts.length + 4

/-- A block does not end with the semicolon, so there are errors if one of its statements
does. -/
theorem blockStatements_upTo (hsemi : semi.kind = .semicolon) (ts : List Token) (hF : ¬F) :
    (blockStatements eof (ts ++ semi :: us)).1.UpTo F False semi us ts
      (blockStatements eof' (ts ++ [semi])).1 := by
  intro h
  have herrors := h.resolve_left hF
  match ts with
  | [] =>
      obtain ⟨_, _, -, heq, vs, u, rfl, -, hu⟩ := blockStatements_reads [semi] herrors
      have hmem : u ∈ [semi] := by simp [heq]
      rw [List.mem_singleton.mp hmem, hsemi] at hu
      cases hu
  | t :: ts =>
      rw [List.cons_append] at h herrors
      rw [List.cons_append, List.cons_append]
      by_cases hk : t.kind = .rbrace
      · rw [blockStatements_rbrace hk] at h
        rw [blockStatements_rbrace hk, blockStatements_rbrace hk]
        exact upTo_done (List.suffix_cons t ts) h
      have hnone : (statement eof' t (ts ++ [semi])).1.errors = [] := by
        rw [blockStatements_cons hk] at herrors
        dsimp only at herrors
        split at herrors
        · exact herrors
        · exact (List.append_eq_nil_iff.mp herrors).1
      obtain ⟨s, -, hs, -⟩ := statement_reads t (ts ++ [semi]) hnone
      obtain ⟨hresult, herrors', hlast, hrest⟩ :=
        statement_upTo hsemi t ts (fun h => absurd h hF) (.inr hnone)
      rw [blockStatements_cons_some hk hs] at h herrors
      rw [blockStatements_cons_some hk hs, blockStatements_cons_some hk (hresult.trans hs)]
      have hfirst : (statement eof t (ts ++ semi :: us)).1.UpTo F False semi us ts
          (statement eof' t (ts ++ [semi])).1 := by
        refine fun _ => ⟨hresult, herrors', hlast, hrest.imp_right fun hbehind => ?_⟩
        rw [andThen_of_some hs, hbehind.2.2, blockStatements_nil] at herrors
        simp [andThen, giveUp] at herrors
      refine (hfirst.andThen fun s _ vs hvs _ => ?_).mono (List.suffix_cons t ts) h
      have hlen := hvs.length_le
      refine (blockStatements_upTo hsemi vs hF).andThen fun _ _ vs _ _ => ?_
      exact upTo_done (List.suffix_refl vs)
termination_by 5 * ts.length + 3

theorem statement_upTo (hsemi : semi.kind = .semicolon) (t : Token) (ts : List Token)
    (hF : F → Flat (t :: ts)) :
    (statement eof t (ts ++ semi :: us)).1.UpTo F True semi us ts
      (statement eof' t (ts ++ [semi])).1 := by
  have hF' := fun h => (hF h).of_suffix (List.suffix_cons t ts)
  by_cases hlet : t.kind = .keyword .let_
  · rw [statement_let hlet, statement_let hlet]
    refine (expect_upTo hsemi (by decide) t ts).andThen fun name last vs₁ hvs₁ _ => ?_
    have hlen₁ := hvs₁.length_le
    have hF₁ := fun h => (hF' h).of_suffix hvs₁
    refine (expect_upTo hsemi (by decide) last vs₁).andThen fun _ _ vs₂ hvs₂ _ => ?_
    have hlen₂ := hvs₂.length_le
    have hF₂ := fun h => (hF₁ h).of_suffix hvs₂
    refine (expression_upTo hsemi .lowest vs₂ hF₂).andThen fun _ last vs _ _ => ?_
    exact finish_upTo hsemi _ last vs
  by_cases hreturn : t.kind = .keyword .return_
  · rw [statement_return hreturn, statement_return hreturn]
    refine (expression_upTo hsemi .lowest ts hF').andThen fun _ last vs _ _ => ?_
    exact finish_upTo hsemi _ last vs
  by_cases hbrace : t.kind = .lbrace
  · have hnot : ¬F := fun h => hF h t List.mem_cons_self hbrace
    rw [statement_lbrace hbrace, statement_lbrace hbrace]
    refine (block_upTo hsemi t ts hnot).andThen fun _ _ vs _ _ => ?_
    exact upTo_done (List.suffix_refl vs)
  · rw [statement_expr hlet hreturn hbrace, statement_expr hlet hreturn hbrace]
    refine (expressionAt_upTo hsemi .lowest t ts hF').andThen fun _ last vs _ _ => ?_
    exact finish_upTo hsemi _ last vs
termination_by 5 * (ts.length + 1) + 2

end

/-! ## Programs -/

theorem statement_semicolon (hsemi : semi.kind = .semicolon) :
    (statement eof semi ts).1 = giveUp (.noExpression semi) semi ts := by
  rw [statement_expr (by simp [hsemi]) (by simp [hsemi]) (by simp [hsemi]),
    expressionAt_semicolon hsemi]
  rfl

/-- What stands before a semicolon is read for itself, and so is what stands behind it. -/
theorem statements_append (hsemi : semi.kind = .semicolon) (ts : List Token)
    (h : Flat ts ∨ (statements eof' (ts ++ [semi])).2 = []) :
    statements eof (ts ++ semi :: us) =
      ((statements eof' (ts ++ [semi])).1 ++ (statements eof us).1,
        (statements eof' (ts ++ [semi])).2 ++ (statements eof us).2) := by
  match ts, h with
  | [], _ =>
      rw [List.nil_append, List.nil_append, statements_cons, statements_cons,
        statement_semicolon hsemi, statement_semicolon hsemi]
      simp [giveUp, statements_nil]
  | t :: ts, h =>
      rw [List.cons_append, statements_cons] at h
      rw [List.cons_append, List.cons_append, statements_cons, statements_cons]
      dsimp only at h ⊢
      have hfirst : (statement eof t (ts ++ semi :: us)).1.UpTo (Flat (t :: ts)) True semi us ts
          (statement eof' t (ts ++ [semi])).1 := statement_upTo hsemi t ts id
      obtain ⟨hresult, herrors, -, hrest⟩ :=
        hfirst (h.imp_right fun h => (List.append_eq_nil_iff.mp h).1)
      rw [hresult, herrors]
      obtain ⟨vs, hvs, hr, hr'⟩ | ⟨-, hr, hr'⟩ := hrest
      · have hlen := hvs.length_le
        rw [hr'] at h
        rw [hr, hr', statements_append hsemi vs]
        · simp
        · refine h.imp (fun hflat => ?_) fun h => (List.append_eq_nil_iff.mp h).2
          exact hflat.of_suffix (hvs.trans (List.suffix_cons t ts))
      · rw [hr, hr', statements_nil]
        simp
termination_by ts.length

end Parse

/-! ## Texts -/

/-- The semicolon at the end of a text. -/
def semicolonBehind (source : String) : Token :=
  Token.cut .semicolon [';'] source.utf8ByteSize

theorem tokenize_semicolon (A S : String) :
    tokenize (A ++ ";" ++ S) =
      tokenize A ++ semicolonBehind A :: scan (A.utf8ByteSize + 1) S.toList := by
  have hapart : Apart A.toList (';' :: S.toList) :=
    apart_cons (by decide) (by decide) (by decide)
  have hlist : (A ++ ";" ++ S).toList = A.toList ++ ';' :: S.toList := by simp
  change scan 0 (A ++ ";" ++ S).toList = _
  rw [hlist, scan_append hapart, scan_mark (by decide), Nat.zero_add,
    byteCount_toList]
  rfl

theorem tokenize_semicolon_nil (A : String) :
    tokenize (A ++ ";") = tokenize A ++ [semicolonBehind A] := by
  have h := tokenize_semicolon A ""
  rwa [String.append_empty, String.toList_empty, scan_nil] at h

/-- Let a text open no block, whatever else it is, or be free of errors with a semicolon behind
it. Then the statements and the errors of the text with a semicolon and another text behind it
are those of the text with the semicolon, and behind these those of the other text: only the
places of its tokens are shifted. -/
theorem parse_semicolon (A S : String)
    (h : (∀ t ∈ tokenize A, t.kind ≠ .lbrace) ∨ (parse (A ++ ";")).errors = []) :
    (parse (A ++ ";" ++ S)).program.statements =
      (parse (A ++ ";")).program.statements ++
        (parse S).program.statements.map (Stmt.map (Token.shift (A.utf8ByteSize + 1))) ∧
    (parse (A ++ ";" ++ S)).errors =
      (parse (A ++ ";")).errors ++
        (parse S).errors.map (SyntaxError.map (Token.shift (A.utf8ByteSize + 1))) := by
  have hsize : (A ++ ";" ++ S).utf8ByteSize = S.utf8ByteSize + (A.utf8ByteSize + 1) := by
    rw [String.utf8ByteSize_append, String.utf8ByteSize_append, Nat.add_comm]
    rfl
  rw [parse_eq (A ++ ";"), tokenize_semicolon_nil] at h ⊢
  rw [parse_eq (A ++ ";" ++ S), tokenize_semicolon, hsize,
    Parse.statements_append rfl (tokenize A) h, statements_scan]
  exact ⟨rfl, rfl⟩

/-- A statement without an equals sign does no harm to the next one. -/
theorem letWithoutSign_leaves_next :
    ∃ s, (parse ("let x 5" ++ ";" ++ "y")).program.statements =
        (parse ("let x 5" ++ ";")).program.statements ++ [s] ∧
      s = .expr ⟨.ident, "y", ⟨8, 9⟩⟩ (.ident ⟨⟨.ident, "y", ⟨8, 9⟩⟩, "y"⟩) := by
  have hflat : ∀ t ∈ tokenize "let x 5", t.kind ≠ .lbrace := by
    have hkinds : (tokenize "let x 5").map Token.kind = [.keyword .let_, .ident, .int] := by
      decide +kernel
    intro t ht hbrace
    have hmem : t.kind ∈ [.keyword .let_, .ident, .int] := hkinds ▸ List.mem_map_of_mem ht
    rw [hbrace] at hmem
    revert hmem
    decide
  have hnext : (parse "y").program.statements.map
      (Stmt.map (Token.shift ("let x 5".utf8ByteSize + 1))) =
        [.expr ⟨.ident, "y", ⟨8, 9⟩⟩ (.ident ⟨⟨.ident, "y", ⟨8, 9⟩⟩, "y"⟩)] := by
    decide +kernel
  exact ⟨_, hnext ▸ (parse_semicolon "let x 5" "y" (.inl hflat)).1, rfl⟩

end Monkey
