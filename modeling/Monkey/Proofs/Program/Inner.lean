import Monkey.Proofs.Program.Anchors
import Monkey.Proofs.Token.Segmentation

/-!
# Statements inside of statements

A statement is read from one place of the text, however deep it lies in blocks, branches and
bodies: it is what is read as a statement from its own token on (`statements_readFrom`). And this
token is the first one of its text: between that of an expression statement and the first node of
the expression there is nothing but opening parentheses (`Parse.expressionAt_opens`).
-/

namespace Monkey

variable {α : Type}

/-! ## All statements of a tree -/

mutual

/-- The statements inside of an expression. -/
def Expr.inner : Expr α → List (Stmt α)
  | .ident _ | .int _ _ | .bool _ _ => []
  | .unary _ _ operand => operand.inner
  | .binary _ _ left right => left.inner ++ right.inner
  | .cond _ condition consequence none => condition.inner ++ consequence.inner
  | .cond _ condition consequence (some alternative) =>
      condition.inner ++ consequence.inner ++ alternative.inner
  | .function _ _ body => body.inner
  | .call _ callee args => callee.inner ++ Expr.allInner args

/-- The statements inside of several expressions. -/
def Expr.allInner : List (Expr α) → List (Stmt α)
  | [] => []
  | e :: es => e.inner ++ Expr.allInner es

/-- The statements inside of a statement, which is not one of them itself. -/
def Stmt.inner : Stmt α → List (Stmt α)
  | .let_ _ _ value | .return_ _ value | .expr _ value => value.inner
  | .block body => body.inner

/-- Several statements and those inside of them. -/
def Stmt.allInner : List (Stmt α) → List (Stmt α)
  | [] => []
  | s :: ss => s :: s.inner ++ Stmt.allInner ss

/-- The statements of a block and those inside of them. -/
def Block.inner : Block α → List (Stmt α)
  | .mk _ statements => Stmt.allInner statements

end

theorem Stmt.allInner_append (ss ss' : List (Stmt α)) :
    Stmt.allInner (ss ++ ss') = Stmt.allInner ss ++ Stmt.allInner ss' := by
  induction ss with
  | nil => rfl
  | cons s ss ih => simp [Stmt.allInner, ih]

/-- The statements inside of the other branch of a condition, if there is one. -/
def alternativeInner (b : Option (Block α)) : List (Stmt α) :=
  b.elim [] Block.inner

theorem Expr.inner_cond (tag : α) (c : Expr α) (b : Block α) (a : Option (Block α)) :
    (Expr.cond tag c b a).inner = c.inner ++ b.inner ++ alternativeInner a := by
  cases a with
  | none => simp [Expr.inner, alternativeInner]
  | some a => rfl

/-- The statement is what is read as a statement from its own token on. -/
def Stmt.ReadFrom (eof : Token) (tokens : List Token) (s : Stmt Token) : Prop :=
  ∃ rest, s.tag :: rest <:+ tokens ∧ (Parse.statement eof s.tag rest).1.result? = some s

variable {β γ : Type} {eof last t : Token} {tokens ts : List Token}

namespace Reply

variable {r : Reply β} {inner : β → List (Stmt Token)}

/-- The tokens that are left are the last ones of `ts`, and all statements inside of the result
were read from their own tokens on. -/
def Nests (eof : Token) (tokens ts : List Token) (inner : β → List (Stmt Token))
    (r : Reply β) : Prop :=
  r.rest <:+ ts ∧ ∀ b ∈ r.result?, ∀ s ∈ inner b, s.ReadFrom eof tokens

theorem nests_done {b : β} (h : ∀ s ∈ inner b, s.ReadFrom eof tokens) :
    (done b last ts).Nests eof tokens ts inner :=
  ⟨List.suffix_refl ts, by simpa [done] using h⟩

theorem nests_giveUp {error : SyntaxError} :
    (giveUp error last ts).Nests eof tokens ts inner :=
  ⟨List.suffix_refl ts, by simp [giveUp]⟩

theorem Nests.cons (h : r.Nests eof tokens ts inner) : r.Nests eof tokens (t :: ts) inner :=
  ⟨h.1.trans (List.suffix_cons t ts), h.2⟩

theorem result?_andThen {f : β → Token → List Token → Reply γ} {c : γ} :
    (r.andThen f).result? = some c ↔
      ∃ b, r.result? = some b ∧ (f b r.last r.rest).result? = some c := by
  cases hb : r.result? with
  | none => simp [andThen_of_none hb]
  | some b => simp [andThen_of_some hb]

theorem Nests.andThen {f : β → Token → List Token → Reply γ} {inner' : γ → List (Stmt Token)}
    (h : r.Nests eof tokens ts inner)
    (hf : ∀ b last rest, rest <:+ ts → (∀ s ∈ inner b, s.ReadFrom eof tokens) →
      (f b last rest).Nests eof tokens rest inner') :
    (r.andThen f).Nests eof tokens ts inner' := by
  cases hb : r.result? with
  | none =>
      rw [andThen_of_none hb]
      exact ⟨h.1, by simp⟩
  | some b =>
      obtain ⟨hrest, hinner⟩ := hf b r.last r.rest h.1 (h.2 b hb)
      rw [andThen_of_some hb]
      exact ⟨hrest.trans h.1, hinner⟩

end Reply

namespace Parse

open Reply

/-! ## Parts without statements -/

theorem expect_nests {kind : Kind} :
    (expect eof kind last ts).1.Nests eof tokens ts fun _ => [] := by
  cases ts with
  | nil => exact nests_giveUp
  | cons t ts =>
      rw [expect_cons]
      split
      next => exact (nests_done (by simp)).cons
      next => exact nests_giveUp

theorem finish_nests {s : Stmt Token} (h : ∀ s' ∈ s.inner, s'.ReadFrom eof tokens) :
    (finish s last ts).1.Nests eof tokens ts Stmt.inner := by
  cases ts with
  | nil => exact nests_done h
  | cons t ts =>
      rw [finish_cons]
      split
      next => exact (nests_done h).cons
      next => exact nests_done h

theorem params_nests : (params eof last ts).1.Nests eof tokens ts fun _ => [] := by
  obtain ⟨hrest, -⟩ : (params eof last ts).1.Anchors _ _ _ ts := params_anchors
  exact ⟨hrest, by simp⟩

theorem finish_result {s : Stmt Token} : (finish s last ts).1.result? = some s := by
  cases ts with
  | nil => rfl
  | cons t ts =>
      rw [finish_cons]
      split <;> rfl

/-- The token of a statement is the one that it begins with. -/
theorem tag_of_statement {s : Stmt Token} (h : (statement eof t ts).1.result? = some s) :
    s.tag = t := by
  by_cases hlet : t.kind = .keyword .let_
  · rw [statement_let hlet] at h
    obtain ⟨name, -, h⟩ := result?_andThen.mp h
    obtain ⟨_, -, h⟩ := result?_andThen.mp h
    obtain ⟨e, -, h⟩ := result?_andThen.mp h
    rw [finish_result, Option.some.injEq] at h
    rw [← h]
    rfl
  by_cases hreturn : t.kind = .keyword .return_
  · rw [statement_return hreturn] at h
    obtain ⟨e, -, h⟩ := result?_andThen.mp h
    rw [finish_result, Option.some.injEq] at h
    rw [← h]
    rfl
  by_cases hbrace : t.kind = .lbrace
  · rw [statement_lbrace hbrace, block_eq, andThen_assoc] at h
    obtain ⟨ss, -, h⟩ := result?_andThen.mp h
    rw [done_andThen, done, Option.some.injEq] at h
    rw [← h]
    rfl
  · rw [statement_expr hlet hreturn hbrace] at h
    obtain ⟨e, -, h⟩ := result?_andThen.mp h
    rw [finish_result, Option.some.injEq] at h
    rw [← h]
    rfl

/-- A statement that was read, if one was, and those inside of it. -/
theorem readFrom_toList (hts : t :: ts <:+ tokens)
    (h : ∀ s ∈ (statement eof t ts).1.result?, ∀ s' ∈ s.inner, s'.ReadFrom eof tokens) :
    ∀ s ∈ Stmt.allInner (statement eof t ts).1.result?.toList, s.ReadFrom eof tokens := by
  cases hs : (statement eof t ts).1.result? with
  | none => simp [Stmt.allInner]
  | some s =>
      obtain rfl := tag_of_statement hs
      have hinner := h s hs
      simp only [Option.toList_some, Stmt.allInner, List.append_nil]
      exact List.forall_mem_cons.mpr ⟨⟨ts, hts, hs⟩, hinner⟩

/-! ## Expressions and statements -/

mutual

theorem expressionAt_nests (p : Precedence) (t : Token) (ts : List Token)
    (hts : t :: ts <:+ tokens) :
    (expressionAt eof p t ts).1.Nests eof tokens ts Expr.inner := by
  rw [expressionAt_eq]
  refine (operand_nests t ts hts).andThen fun left last rest hrest hleft => ?_
  have hlen := hrest.length_le
  have hts := (List.suffix_cons t ts).trans hts
  exact operators_nests p left last rest (hrest.trans hts) hleft
termination_by 5 * (ts.length + 1) + 1

theorem expression_nests (p : Precedence) (ts : List Token) (hts : ts <:+ tokens) :
    (expression eof p ts).1.Nests eof tokens ts Expr.inner := by
  match ts with
  | [] =>
      rw [expression_nil]
      exact nests_giveUp
  | t :: ts =>
      rw [expression_cons]
      exact (expressionAt_nests p t ts hts).cons
termination_by 5 * ts.length + 2

theorem operand_nests (t : Token) (ts : List Token) (hts : t :: ts <:+ tokens) :
    (operand eof t ts).1.Nests eof tokens ts Expr.inner := by
  have hts := (List.suffix_cons t ts).trans hts
  cases hk : t.kind with
  | ident =>
      rw [operand_ident hk]
      exact nests_done (by simp [Expr.inner])
  | int =>
      rw [operand_int hk]
      split
      next => exact nests_done (by simp [Expr.inner])
      next => exact nests_giveUp
  | bang | minus =>
      obtain ⟨op, hop⟩ : ∃ op, UnaryOp.ofKind? t.kind = some op := ⟨_, by rw [hk]; rfl⟩
      rw [operand_unary hop]
      exact (expression_nests .unary ts hts).andThen fun e last rest _ he => nests_done he
  | lparen =>
      rw [operand_lparen hk]
      refine (expression_nests .lowest ts hts).andThen fun e last rest _ he => ?_
      exact expect_nests.andThen fun _ _ _ _ _ => nests_done he
  | keyword w =>
      cases w with
      | true_ =>
          rw [operand_true hk]
          exact nests_done (by simp [Expr.inner])
      | false_ =>
          rw [operand_false hk]
          exact nests_done (by simp [Expr.inner])
      | if_ =>
          rw [operand_if hk]
          refine expect_nests.andThen fun _ _ rest hrest _ => ?_
          have hlen₁ := hrest.length_le
          have hts := hrest.trans hts
          refine (expression_nests .lowest rest hts).andThen fun c last rest hrest hc => ?_
          have hlen₂ := hrest.length_le
          have hts := hrest.trans hts
          refine expect_nests.andThen fun _ last rest hrest _ => ?_
          have hlen₃ := hrest.length_le
          have hts := hrest.trans hts
          refine expect_nests.andThen fun brace _ rest hrest _ => ?_
          have hlen₄ := hrest.length_le
          have hts := hrest.trans hts
          refine (block_nests brace rest hts).andThen fun b last rest hrest hb => ?_
          have hlen₅ := hrest.length_le
          have hts := hrest.trans hts
          refine (alternative_nests last rest hts).andThen fun a last rest _ ha => ?_
          refine nests_done ?_
          rw [Expr.inner_cond]
          exact List.forall_mem_append.mpr ⟨List.forall_mem_append.mpr ⟨hc, hb⟩, ha⟩
      | function =>
          rw [operand_function hk]
          refine expect_nests.andThen fun _ last rest hrest _ => ?_
          have hlen₁ := hrest.length_le
          have hts := hrest.trans hts
          refine params_nests.andThen fun ids last rest hrest _ => ?_
          have hlen₂ := hrest.length_le
          have hts := hrest.trans hts
          refine expect_nests.andThen fun brace _ rest hrest _ => ?_
          have hlen₃ := hrest.length_le
          have hts := hrest.trans hts
          exact (block_nests brace rest hts).andThen fun b last rest _ hb => nests_done hb
      | let_ | else_ | return_ =>
          rw [operand_other (by simp [Kind.OpensExpr, hk])]
          exact nests_giveUp
  | _ =>
      rw [operand_other (by simp [Kind.OpensExpr, hk])]
      exact nests_giveUp
termination_by 5 * (ts.length + 1)

theorem alternative_nests (last : Token) (ts : List Token) (hts : ts <:+ tokens) :
    (alternative eof last ts).1.Nests eof tokens ts alternativeInner := by
  match ts with
  | [] =>
      rw [alternative_nil]
      exact nests_done (by simp [alternativeInner])
  | t :: ts =>
      have hts := (List.suffix_cons t ts).trans hts
      rw [alternative_cons]
      split
      next =>
        refine Nests.cons ?_
        refine expect_nests.andThen fun brace _ rest hrest _ => ?_
        have hlen := hrest.length_le
        have hts := hrest.trans hts
        exact (block_nests brace rest hts).andThen fun b last rest _ hb => nests_done hb
      next => exact nests_done (by simp [alternativeInner])
termination_by 5 * ts.length

theorem operators_nests (p : Precedence) (left : Expr Token) (last : Token) (ts : List Token)
    (hts : ts <:+ tokens) (hleft : ∀ s ∈ left.inner, s.ReadFrom eof tokens) :
    (operators eof p left last ts).1.Nests eof tokens ts Expr.inner := by
  match ts with
  | [] =>
      rw [operators_nil]
      exact nests_done hleft
  | t :: ts =>
      have hts := (List.suffix_cons t ts).trans hts
      by_cases hparen : t.kind = .lparen
      · rw [operators_lparen hparen]
        refine Nests.cons ?_
        refine (args_nests ts hts).andThen fun es last rest hrest hes => ?_
        have hlen := hrest.length_le
        refine operators_nests p (.call t left es) last rest (hrest.trans hts) ?_
        exact List.forall_mem_append.mpr ⟨hleft, hes⟩
      cases hop : BinaryOp.ofKind? t.kind with
      | none =>
          rw [operators_other hparen hop]
          exact nests_done hleft
      | some op =>
          rw [operators_binary hop]
          split
          next =>
            refine Nests.cons ?_
            refine (expression_nests op.precedence ts hts).andThen
              fun right last rest hrest hright => ?_
            have hlen := hrest.length_le
            refine operators_nests p (.binary t op left right) last rest (hrest.trans hts) ?_
            exact List.forall_mem_append.mpr ⟨hleft, hright⟩
          next => exact nests_done hleft
termination_by 5 * ts.length

theorem args_nests (ts : List Token) (hts : ts <:+ tokens) :
    (args eof ts).1.Nests eof tokens ts Expr.allInner := by
  match ts with
  | [] =>
      rw [args_nil]
      exact nests_giveUp
  | t :: ts =>
      rw [args_cons]
      split
      next => exact (nests_done (by simp [Expr.allInner])).cons
      next =>
        refine Nests.cons ?_
        refine (expressionAt_nests .lowest t ts hts).andThen fun e last rest hrest he => ?_
        have hlen := hrest.length_le
        have hts := hrest.trans ((List.suffix_cons t ts).trans hts)
        refine (moreArgs_nests last rest hts).andThen fun es last rest _ hes => ?_
        exact nests_done (List.forall_mem_append.mpr ⟨he, hes⟩)
termination_by 5 * ts.length + 2

theorem moreArgs_nests (last : Token) (ts : List Token) (hts : ts <:+ tokens) :
    (moreArgs eof last ts).1.Nests eof tokens ts Expr.allInner := by
  match ts with
  | [] =>
      rw [moreArgs_nil]
      exact nests_giveUp
  | t :: ts =>
      have hts := (List.suffix_cons t ts).trans hts
      rw [moreArgs_cons]
      split
      next =>
        refine Nests.cons ?_
        refine (expression_nests .lowest ts hts).andThen fun e last rest hrest he => ?_
        have hlen := hrest.length_le
        refine (moreArgs_nests last rest (hrest.trans hts)).andThen fun es last rest _ hes => ?_
        exact nests_done (List.forall_mem_append.mpr ⟨he, hes⟩)
      next => exact expect_nests.andThen fun _ _ _ _ _ => nests_done (by simp [Expr.allInner])
termination_by 5 * ts.length

theorem block_nests (brace : Token) (ts : List Token) (hts : ts <:+ tokens) :
    (block eof brace ts).1.Nests eof tokens ts Block.inner := by
  rw [block_eq]
  exact (blockStatements_nests ts hts).andThen fun ss last rest _ hss => nests_done hss
termination_by 5 * ts.length + 4

theorem blockStatements_nests (ts : List Token) (hts : ts <:+ tokens) :
    (blockStatements eof ts).1.Nests eof tokens ts Stmt.allInner := by
  match ts with
  | [] =>
      rw [blockStatements_nil]
      exact nests_giveUp
  | t :: ts =>
      by_cases ht : t.kind = .rbrace
      · rw [blockStatements_rbrace ht]
        exact (nests_done (by simp [Stmt.allInner])).cons
      have hlen := (statement eof t ts).2
      obtain ⟨hrest, hfirst⟩ := statement_nests t ts hts
      have hts' := hrest.trans ((List.suffix_cons t ts).trans hts)
      have hall := readFrom_toList hts hfirst
      obtain ⟨hrest', hmore⟩ := blockStatements_nests (statement eof t ts).1.rest hts'
      rw [blockStatements_cons ht]
      dsimp only
      split
      next => exact ⟨hrest.trans (List.suffix_cons t ts), by simp [Stmt.allInner]⟩
      next =>
        refine ⟨hrest'.trans (hrest.trans (List.suffix_cons t ts)), fun ss hss => ?_⟩
        obtain ⟨more, hresult, rfl⟩ := Option.map_eq_some_iff.mp hss
        rw [Stmt.allInner_append]
        exact List.forall_mem_append.mpr ⟨hall, hmore more hresult⟩
termination_by 5 * ts.length + 3

theorem statement_nests (t : Token) (ts : List Token) (hts : t :: ts <:+ tokens) :
    (statement eof t ts).1.Nests eof tokens ts Stmt.inner := by
  have hts' := (List.suffix_cons t ts).trans hts
  by_cases hlet : t.kind = .keyword .let_
  · rw [statement_let hlet]
    refine expect_nests.andThen fun name last rest hrest _ => ?_
    have hlen₁ := hrest.length_le
    have hts := hrest.trans hts'
    refine expect_nests.andThen fun _ _ rest hrest _ => ?_
    have hlen₂ := hrest.length_le
    have hts := hrest.trans hts
    exact (expression_nests .lowest rest hts).andThen fun e last rest _ he => finish_nests he
  by_cases hreturn : t.kind = .keyword .return_
  · rw [statement_return hreturn]
    exact (expression_nests .lowest ts hts').andThen fun e last rest _ he => finish_nests he
  by_cases hbrace : t.kind = .lbrace
  · rw [statement_lbrace hbrace]
    exact (block_nests t ts hts').andThen fun b last rest _ hb => nests_done hb
  · rw [statement_expr hlet hreturn hbrace]
    exact (expressionAt_nests .lowest t ts hts).andThen fun e last rest _ he => finish_nests he
termination_by 5 * (ts.length + 1) + 2

end

theorem statements_readFrom (ts : List Token) (hts : ts <:+ tokens) :
    ∀ s ∈ Stmt.allInner (statements eof ts).1, s.ReadFrom eof tokens := by
  match ts with
  | [] => simp [statements_nil, Stmt.allInner]
  | t :: ts =>
      have hlen := (statement eof t ts).2
      obtain ⟨hrest, hfirst⟩ := statement_nests t ts hts
      have hts' := hrest.trans ((List.suffix_cons t ts).trans hts)
      rw [statements_cons, Stmt.allInner_append]
      exact List.forall_mem_append.mpr
        ⟨readFrom_toList hts hfirst, statements_readFrom (statement eof t ts).1.rest hts'⟩
termination_by ts.length

end Parse

/-! ## First tokens -/

/-- The tokens begin with the first node of the expression, in parentheses or not. -/
def Expr.Opens (e : Expr Token) (ts : List Token) : Prop :=
  ∃ parens first behind, ts = parens ++ first :: behind ∧ e.anchors.head? = some first ∧
    ∀ t ∈ parens, t.kind = .lparen

theorem Expr.Opens.here {e : Expr Token} (h : e.anchors.head? = some t) : e.Opens (t :: ts) :=
  ⟨[], t, ts, rfl, h, by simp⟩

theorem Expr.Opens.paren {e : Expr Token} (ht : t.kind = .lparen) (h : e.Opens ts) :
    e.Opens (t :: ts) := by
  obtain ⟨parens, first, behind, rfl, hfirst, hparens⟩ := h
  exact ⟨t :: parens, first, behind, rfl, hfirst, List.forall_mem_cons.mpr ⟨ht, hparens⟩⟩

namespace Parse

open Reply

variable {e left : Expr Token} {first : Token}

/-- What stands behind an operand does not change where the expression begins. -/
theorem operators_head (p : Precedence) (left : Expr Token) (last : Token) (ts : List Token)
    (hleft : left.anchors.head? = some first)
    (h : (operators eof p left last ts).1.result? = some e) : e.anchors.head? = some first := by
  match ts with
  | [] =>
      rw [operators_nil] at h
      obtain rfl := Option.some.inj h
      exact hleft
  | t :: ts =>
      by_cases hparen : t.kind = .lparen
      · rw [operators_lparen hparen] at h
        obtain ⟨es, -, h⟩ := result?_andThen.mp h
        have hlen := (args eof ts).2
        refine operators_head p (.call t left es) _ _ ?_ h
        rw [Expr.anchors, List.head?_append, hleft, Option.some_or]
      cases hop : BinaryOp.ofKind? t.kind with
      | none =>
          rw [operators_other hparen hop] at h
          obtain rfl := Option.some.inj h
          exact hleft
      | some op =>
          rw [operators_binary hop] at h
          split at h
          next =>
            obtain ⟨right, -, h⟩ := result?_andThen.mp h
            have hlen := (expression eof op.precedence ts).2
            refine operators_head p (.binary t op left right) _ _ ?_ h
            rw [Expr.anchors, List.head?_append, hleft, Option.some_or]
          next =>
            obtain rfl := Option.some.inj h
            exact hleft
termination_by ts.length

mutual

theorem expressionAt_opens (p : Precedence) (t : Token) (ts : List Token) {e : Expr Token}
    (h : (expressionAt eof p t ts).1.result? = some e) : e.Opens (t :: ts) := by
  rw [expressionAt_eq] at h
  obtain ⟨left, hleft, h⟩ := result?_andThen.mp h
  obtain ⟨parens, first, behind, hts, hfirst, hparens⟩ := operand_opens t ts hleft
  exact ⟨parens, first, behind, hts, operators_head p left _ _ hfirst h, hparens⟩
termination_by 5 * (ts.length + 1) + 1

theorem expression_opens (p : Precedence) (ts : List Token) {e : Expr Token}
    (h : (expression eof p ts).1.result? = some e) : e.Opens ts := by
  match ts with
  | [] =>
      rw [expression_nil] at h
      cases h
  | t :: ts =>
      rw [expression_cons] at h
      exact expressionAt_opens p t ts h
termination_by 5 * ts.length + 2

theorem operand_opens (t : Token) (ts : List Token) {e : Expr Token}
    (h : (operand eof t ts).1.result? = some e) : e.Opens (t :: ts) := by
  cases hk : t.kind with
  | ident =>
      rw [operand_ident hk] at h
      obtain rfl := Option.some.inj h
      exact .here rfl
  | int =>
      rw [operand_int hk] at h
      split at h
      next =>
        obtain rfl := Option.some.inj h
        exact .here rfl
      next => cases h
  | bang | minus =>
      obtain ⟨op, hop⟩ : ∃ op, UnaryOp.ofKind? t.kind = some op := ⟨_, by rw [hk]; rfl⟩
      rw [operand_unary hop] at h
      obtain ⟨operand, -, h⟩ := result?_andThen.mp h
      obtain rfl := Option.some.inj h
      exact .here rfl
  | lparen =>
      rw [operand_lparen hk] at h
      obtain ⟨inner, hinner, h⟩ := result?_andThen.mp h
      obtain ⟨_, -, h⟩ := result?_andThen.mp h
      obtain rfl := Option.some.inj h
      exact .paren hk (expression_opens .lowest ts hinner)
  | keyword w =>
      cases w with
      | true_ =>
          rw [operand_true hk] at h
          obtain rfl := Option.some.inj h
          exact .here rfl
      | false_ =>
          rw [operand_false hk] at h
          obtain rfl := Option.some.inj h
          exact .here rfl
      | if_ =>
          rw [operand_if hk] at h
          obtain ⟨_, -, h⟩ := result?_andThen.mp h
          obtain ⟨condition, -, h⟩ := result?_andThen.mp h
          obtain ⟨_, -, h⟩ := result?_andThen.mp h
          obtain ⟨_, -, h⟩ := result?_andThen.mp h
          obtain ⟨consequence, -, h⟩ := result?_andThen.mp h
          obtain ⟨alternative, -, h⟩ := result?_andThen.mp h
          obtain rfl := Option.some.inj h
          cases alternative <;> exact .here rfl
      | function =>
          rw [operand_function hk] at h
          obtain ⟨_, -, h⟩ := result?_andThen.mp h
          obtain ⟨params, -, h⟩ := result?_andThen.mp h
          obtain ⟨_, -, h⟩ := result?_andThen.mp h
          obtain ⟨body, -, h⟩ := result?_andThen.mp h
          obtain rfl := Option.some.inj h
          exact .here rfl
      | let_ | else_ | return_ =>
          rw [operand_other (by simp [Kind.OpensExpr, hk])] at h
          cases h
  | _ =>
      rw [operand_other (by simp [Kind.OpensExpr, hk])] at h
      cases h
termination_by 5 * (ts.length + 1)

end

end Parse

/-! ## Texts -/

/-- An expression statement is read from the token that its expression begins with: nothing but
opening parentheses stands between them. -/
theorem Stmt.ReadFrom.opens {tag : Token} {value : Expr Token}
    (h : (Stmt.expr tag value).ReadFrom eof tokens) :
    ∃ rest, tag :: rest <:+ tokens ∧ value.Opens (tag :: rest) := by
  obtain ⟨rest, hsuffix, hs⟩ := h
  refine ⟨rest, hsuffix, ?_⟩
  change (Parse.statement eof tag rest).1.result? = some (.expr tag value) at hs
  by_cases hlet : tag.kind = .keyword .let_
  · rw [Parse.statement_let hlet] at hs
    obtain ⟨_, -, hs⟩ := Reply.result?_andThen.mp hs
    obtain ⟨_, -, hs⟩ := Reply.result?_andThen.mp hs
    obtain ⟨_, -, hs⟩ := Reply.result?_andThen.mp hs
    rw [Parse.finish_result] at hs
    cases hs
  by_cases hreturn : tag.kind = .keyword .return_
  · rw [Parse.statement_return hreturn] at hs
    obtain ⟨_, -, hs⟩ := Reply.result?_andThen.mp hs
    rw [Parse.finish_result] at hs
    cases hs
  by_cases hbrace : tag.kind = .lbrace
  · rw [Parse.statement_lbrace hbrace] at hs
    obtain ⟨_, -, hs⟩ := Reply.result?_andThen.mp hs
    cases hs
  · rw [Parse.statement_expr hlet hreturn hbrace] at hs
    obtain ⟨e, he, hs⟩ := Reply.result?_andThen.mp hs
    rw [Parse.finish_result] at hs
    cases hs
    exact Parse.expressionAt_opens .lowest tag rest he

/-- The token of a statement stands before all others of it. -/
theorem Stmt.ReadFrom.start_le {s : Stmt Token} (h : s.ReadFrom eof tokens)
    (horder : tokens.Pairwise fun t u => t.span.start ≤ u.span.start) :
    ∀ t ∈ s.anchors, s.tag.span.start ≤ t.span.start := by
  obtain ⟨rest, hsuffix, hs⟩ := h
  have hanchors := ((Parse.statement_anchors s.tag rest).2 s hs).2
  have hsublist := (List.sublist_append_left s.anchors _).trans hanchors
  intro t ht
  obtain rfl | ht := List.mem_cons.mp (hsublist.subset ht)
  · exact Nat.le_refl _
  · exact (List.pairwise_cons.mp (horder.sublist hsuffix.sublist)).1 t ht

/-- Every node of what a text is read as, with errors or without, is tagged with a token of the
text that fits it. In the order of the text these tokens stand one behind the other, each of them
for one node. An expression statement is tagged with the token that its expression begins with,
parentheses included. -/
theorem nodes_are_anchored (source : String) :
    let statements := (parse source).program.statements
    (∀ s ∈ statements, s.Fits) ∧
    (statements.flatMap Stmt.anchors).Sublist (tokenize source) ∧
    ((statements.flatMap Stmt.anchors).Pairwise fun t u =>
      t.span.start < u.span.start ∧ t.span.stop ≤ u.span.start) ∧
    ∀ s ∈ Stmt.allInner statements,
      s.ReadFrom (.eof source.utf8ByteSize) (tokenize source) ∧
      ∀ tag value, s = .expr tag value →
        (∃ rest, tag :: rest <:+ tokenize source ∧ value.Opens (tag :: rest)) ∧
        ∀ t ∈ value.anchors, tag.span.start ≤ t.span.start := by
  obtain ⟨hfits, hsublist⟩ := parse_anchors source
  have horder := pairwise_tokenize source
  refine ⟨hfits, hsublist, horder.sublist hsublist, fun s hs => ?_⟩
  have hread := Parse.statements_readFrom (tokenize source) (List.suffix_refl _) s hs
  refine ⟨hread, ?_⟩
  rintro tag value rfl
  refine ⟨hread.opens, fun t ht => ?_⟩
  have hstart := hread.start_le (horder.imp fun h => Nat.le_of_lt h.1)
  exact hstart t ((sublist_opening tag value.anchors).subset ht)

end Monkey
