import Monkey.Program.Parse.Equations
import Monkey.Proofs.Token.Seam

/-!
# Where tokens stand does not matter

The parse functions look at the kinds of tokens and at their texts, and at nothing else. So
if tokens are exchanged for others of the same kinds and with the same texts, then the same is
read: statements and errors carry the other tokens (`Parse.statements_map`). In particular
tokens may stand elsewhere in a text.
-/

namespace Monkey

/-- The function exchanges tokens for others of the same kind and with the same text. -/
structure Relabels (f : Token → Token) : Prop where
  kind : ∀ t, (f t).kind = t.kind
  literal : ∀ t, (f t).literal = t.literal

/-- The same error about another token. -/
def SyntaxError.map (f : Token → Token) : SyntaxError → SyntaxError
  | unexpectedToken expected found => unexpectedToken expected (f found)
  | noExpression found => noExpression (f found)
  | integerTooLarge found => integerTooLarge (f found)

namespace Reply

variable {β γ β' γ' : Type} {f : Token → Token} {g : β → β'} {h : γ → γ'}

/-- The same answer about other tokens. -/
def map (f : Token → Token) (g : β → β') (r : Reply β) : Reply β' :=
  ⟨r.result?.map g, r.errors.map (SyntaxError.map f), f r.last, r.rest.map f⟩

theorem map_done {b : β} {last : Token} {ts : List Token} :
    (done b last ts).map f g = done (g b) (f last) (ts.map f) := rfl

theorem map_andThen {n : Nat} {r : Within n β} {r' : Reply β'}
    {k : β → Token → List Token → Reply γ} {k' : β' → Token → List Token → Reply γ'}
    (hr : r' = r.1.map f g) (hk : ∀ b last rest, rest.length ≤ n →
      k' (g b) (f last) (rest.map f) = (k b last rest).map f h) :
    r'.andThen k' = (r.1.andThen k).map f h := by
  subst hr
  obtain ⟨⟨_ | b, errors, last, rest⟩, hrest⟩ := r
  · rfl
  · simp only [andThen, map, Option.map_some, List.map_append, hk b last rest hrest]

end Reply

namespace Parse

open Reply

variable {f : Token → Token} {eof t last brace : Token} {ts : List Token}

theorem integer?_map (hf : Relabels f) : (f t).integer? = t.integer? := by
  rw [Token.integer?, Token.integer?, hf.literal]

/-! ## Single tokens and parameters -/

theorem expect_map (hf : Relabels f) (kind : Kind) (last : Token) (ts : List Token) :
    (expect (f eof) kind (f last) (ts.map f)).1 = (expect eof kind last ts).1.map f f := by
  cases ts with
  | nil => rfl
  | cons t ts =>
      rw [List.map_cons, expect_cons, expect_cons, hf.kind]
      split <;> rfl

theorem finish_map (hf : Relabels f) (s : Stmt Token) (last : Token) (ts : List Token) :
    (finish (s.map f) (f last) (ts.map f)).1 = (finish s last ts).1.map f (Stmt.map f) := by
  cases ts with
  | nil => rfl
  | cons t ts =>
      rw [List.map_cons, finish_cons, finish_cons, hf.kind]
      split <;> rfl

mutual

theorem someParams_map (hf : Relabels f) (last : Token) (ts : List Token) :
    (someParams (f eof) (f last) (ts.map f)).1 =
      (someParams eof last ts).1.map f (List.map (Ident.map f)) := by
  rw [someParams_eq, someParams_eq]
  refine map_andThen (expect_map hf .ident last ts) fun name last rest hlen => ?_
  refine map_andThen (moreParams_map hf last rest) fun ids last rest _ => ?_
  rw [hf.literal]
  rfl
termination_by 2 * ts.length + 1

theorem moreParams_map (hf : Relabels f) (last : Token) (ts : List Token) :
    (moreParams (f eof) (f last) (ts.map f)).1 =
      (moreParams eof last ts).1.map f (List.map (Ident.map f)) := by
  cases ts with
  | nil =>
      rw [List.map_nil, moreParams_nil, moreParams_nil]
      rfl
  | cons t ts =>
      rw [List.map_cons, moreParams_cons, moreParams_cons, hf.kind]
      split
      · exact someParams_map hf t ts
      · exact map_andThen (expect_map hf .rparen last (t :: ts)) fun _ _ _ _ => rfl
termination_by 2 * ts.length

end

theorem params_map (hf : Relabels f) (last : Token) (ts : List Token) :
    (params (f eof) (f last) (ts.map f)).1 =
      (params eof last ts).1.map f (List.map (Ident.map f)) := by
  cases ts with
  | nil => exact someParams_map hf last []
  | cons t ts =>
      rw [List.map_cons, params_cons, params_cons, hf.kind]
      split
      · rfl
      · exact someParams_map hf last (t :: ts)

/-! ## Expressions and statements -/

theorem map_cond {tag : Token} {c : Expr Token} {b : Block Token} {a : Option (Block Token)} :
    (Expr.cond tag c b a).map f = .cond (f tag) (c.map f) (b.map f) (a.map (Block.map f)) := by
  cases a <;> rfl

mutual

theorem expressionAt_map (hf : Relabels f) (p : Precedence) (t : Token) (ts : List Token) :
    (expressionAt (f eof) p (f t) (ts.map f)).1 =
      (expressionAt eof p t ts).1.map f (Expr.map f) := by
  rw [expressionAt_eq, expressionAt_eq]
  refine map_andThen (operand_map hf t ts) fun left last rest hlen => ?_
  exact operators_map hf p left last rest
termination_by 5 * (ts.length + 1) + 1

theorem expression_map (hf : Relabels f) (p : Precedence) (ts : List Token) :
    (expression (f eof) p (ts.map f)).1 = (expression eof p ts).1.map f (Expr.map f) := by
  cases ts with
  | nil =>
      rw [List.map_nil, expression_nil, expression_nil]
      rfl
  | cons t ts =>
      rw [List.map_cons, expression_cons, expression_cons]
      exact expressionAt_map hf p t ts
termination_by 5 * ts.length + 2

theorem operand_map (hf : Relabels f) (t : Token) (ts : List Token) :
    (operand (f eof) (f t) (ts.map f)).1 = (operand eof t ts).1.map f (Expr.map f) := by
  have hkind := hf.kind t
  cases hk : t.kind with
  | ident =>
      rw [operand_ident hk, operand_ident (hkind.trans hk), hf.literal]
      rfl
  | int =>
      rw [operand_int hk, operand_int (hkind.trans hk), integer?_map hf]
      split <;> rfl
  | bang | minus =>
      obtain ⟨op, hop⟩ : ∃ op, UnaryOp.ofKind? t.kind = some op := ⟨_, by rw [hk]; rfl⟩
      rw [operand_unary hop, operand_unary (hkind ▸ hop)]
      exact map_andThen (expression_map hf .unary ts) fun _ _ _ _ => rfl
  | lparen =>
      rw [operand_lparen hk, operand_lparen (hkind.trans hk)]
      refine map_andThen (expression_map hf .lowest ts) fun inner last rest _ => ?_
      exact map_andThen (expect_map hf .rparen last rest) fun _ _ _ _ => rfl
  | keyword w =>
      cases w with
      | true_ =>
          rw [operand_true hk, operand_true (hkind.trans hk)]
          rfl
      | false_ =>
          rw [operand_false hk, operand_false (hkind.trans hk)]
          rfl
      | if_ =>
          rw [operand_if hk, operand_if (hkind.trans hk)]
          refine map_andThen (expect_map hf .lparen t ts) fun _ _ rest _ => ?_
          refine map_andThen (expression_map hf .lowest rest) fun c last rest _ => ?_
          refine map_andThen (expect_map hf .rparen last rest) fun _ last rest _ => ?_
          refine map_andThen (expect_map hf .lbrace last rest) fun brace _ rest _ => ?_
          refine map_andThen (block_map hf brace rest) fun b last rest _ => ?_
          refine map_andThen (alternative_map hf last rest) fun a last rest _ => ?_
          rw [map_done, map_cond]
      | function =>
          rw [operand_function hk, operand_function (hkind.trans hk)]
          refine map_andThen (expect_map hf .lparen t ts) fun _ last rest _ => ?_
          refine map_andThen (params_map hf last rest) fun ids last rest _ => ?_
          refine map_andThen (expect_map hf .lbrace last rest) fun brace _ rest _ => ?_
          exact map_andThen (block_map hf brace rest) fun _ _ _ _ => rfl
      | let_ | else_ | return_ =>
          have hother : ¬t.kind.OpensExpr := by simp [Kind.OpensExpr, hk]
          rw [operand_other hother, operand_other (hkind ▸ hother)]
          rfl
  | _ =>
      have hother : ¬t.kind.OpensExpr := by simp [Kind.OpensExpr, hk]
      rw [operand_other hother, operand_other (hkind ▸ hother)]
      rfl
termination_by 5 * (ts.length + 1)

theorem alternative_map (hf : Relabels f) (last : Token) (ts : List Token) :
    (alternative (f eof) (f last) (ts.map f)).1 =
      (alternative eof last ts).1.map f (Option.map (Block.map f)) := by
  cases ts with
  | nil =>
      rw [List.map_nil, alternative_nil, alternative_nil]
      rfl
  | cons t ts =>
      rw [List.map_cons, alternative_cons, alternative_cons, hf.kind]
      split
      · refine map_andThen (expect_map hf .lbrace t ts) fun brace _ rest _ => ?_
        exact map_andThen (block_map hf brace rest) fun _ _ _ _ => rfl
      · rfl
termination_by 5 * ts.length

theorem operators_map (hf : Relabels f) (p : Precedence) (left : Expr Token) (last : Token)
    (ts : List Token) :
    (operators (f eof) p (left.map f) (f last) (ts.map f)).1 =
      (operators eof p left last ts).1.map f (Expr.map f) := by
  match ts with
  | [] =>
      rw [List.map_nil, operators_nil, operators_nil]
      rfl
  | t :: ts =>
      rw [List.map_cons]
      by_cases hk : t.kind = .lparen
      · rw [operators_lparen hk, operators_lparen ((hf.kind t).trans hk)]
        refine map_andThen (args_map hf ts) fun es last rest _ => ?_
        rw [← Expr.mapAll_eq_map]
        exact operators_map hf p (.call t left es) last rest
      cases hop : BinaryOp.ofKind? t.kind with
      | none =>
          rw [operators_other hk hop, operators_other (hf.kind t ▸ hk) (hf.kind t ▸ hop)]
          rfl
      | some op =>
          rw [operators_binary hop, operators_binary (hf.kind t ▸ hop)]
          split
          · refine map_andThen (expression_map hf op.precedence ts) fun right last rest _ => ?_
            exact operators_map hf p (.binary t op left right) last rest
          · rfl
termination_by 5 * ts.length

theorem args_map (hf : Relabels f) (ts : List Token) :
    (args (f eof) (ts.map f)).1 = (args eof ts).1.map f (List.map (Expr.map f)) := by
  cases ts with
  | nil =>
      rw [List.map_nil, args_nil, args_nil]
      rfl
  | cons t ts =>
      rw [List.map_cons, args_cons, args_cons, hf.kind]
      split
      · rfl
      · refine map_andThen (expressionAt_map hf .lowest t ts) fun first last rest _ => ?_
        exact map_andThen (moreArgs_map hf last rest) fun _ _ _ _ => rfl
termination_by 5 * ts.length + 2

theorem moreArgs_map (hf : Relabels f) (last : Token) (ts : List Token) :
    (moreArgs (f eof) (f last) (ts.map f)).1 =
      (moreArgs eof last ts).1.map f (List.map (Expr.map f)) := by
  cases ts with
  | nil =>
      rw [List.map_nil, moreArgs_nil, moreArgs_nil]
      rfl
  | cons t ts =>
      rw [List.map_cons, moreArgs_cons, moreArgs_cons, hf.kind]
      split
      · refine map_andThen (expression_map hf .lowest ts) fun next last rest _ => ?_
        exact map_andThen (moreArgs_map hf last rest) fun _ _ _ _ => rfl
      · exact map_andThen (expect_map hf .rparen last (t :: ts)) fun _ _ _ _ => rfl
termination_by 5 * ts.length

theorem block_map (hf : Relabels f) (brace : Token) (ts : List Token) :
    (block (f eof) (f brace) (ts.map f)).1 = (block eof brace ts).1.map f (Block.map f) := by
  rw [block_eq, block_eq]
  refine map_andThen (blockStatements_map hf ts) fun ss last rest _ => ?_
  rw [← Stmt.mapAll_eq_map]
  rfl
termination_by 5 * ts.length + 4

theorem blockStatements_map (hf : Relabels f) (ts : List Token) :
    (blockStatements (f eof) (ts.map f)).1 =
      (blockStatements eof ts).1.map f (List.map (Stmt.map f)) := by
  match ts with
  | [] =>
      rw [List.map_nil, blockStatements_nil, blockStatements_nil]
      rfl
  | t :: ts =>
      rw [List.map_cons]
      by_cases hk : t.kind = .rbrace
      · rw [blockStatements_rbrace hk, blockStatements_rbrace ((hf.kind t).trans hk)]
        rfl
      have hlen := (statement eof t ts).2
      rw [blockStatements_cons hk, blockStatements_cons (hf.kind t ▸ hk), statement_map hf t ts]
      simp only [map, Option.isNone_map, hf.kind]
      split
      · rfl
      · rw [blockStatements_map hf (statement eof t ts).1.rest]
        simp only [map, Option.map_map, Function.comp_def, List.map_append, Option.toList_map]
termination_by 5 * ts.length + 3

theorem statement_map (hf : Relabels f) (t : Token) (ts : List Token) :
    (statement (f eof) (f t) (ts.map f)).1 = (statement eof t ts).1.map f (Stmt.map f) := by
  have hkind := hf.kind t
  by_cases hlet : t.kind = .keyword .let_
  · rw [statement_let hlet, statement_let (hkind.trans hlet)]
    refine map_andThen (expect_map hf .ident t ts) fun name last rest _ => ?_
    refine map_andThen (expect_map hf .assign last rest) fun _ _ rest _ => ?_
    refine map_andThen (expression_map hf .lowest rest) fun value last rest _ => ?_
    rw [hf.literal]
    exact finish_map hf (.let_ t ⟨name, name.literal⟩ value) last rest
  by_cases hreturn : t.kind = .keyword .return_
  · rw [statement_return hreturn, statement_return (hkind.trans hreturn)]
    refine map_andThen (expression_map hf .lowest ts) fun value last rest _ => ?_
    exact finish_map hf (.return_ t value) last rest
  by_cases hbrace : t.kind = .lbrace
  · rw [statement_lbrace hbrace, statement_lbrace (hkind.trans hbrace)]
    exact map_andThen (block_map hf t ts) fun _ _ _ _ => rfl
  · rw [statement_expr hlet hreturn hbrace,
      statement_expr (hkind ▸ hlet) (hkind ▸ hreturn) (hkind ▸ hbrace)]
    refine map_andThen (expressionAt_map hf .lowest t ts) fun value last rest _ => ?_
    exact finish_map hf (.expr t value) last rest
termination_by 5 * (ts.length + 1) + 2

end

/-- What is read from other tokens of the same kinds and with the same texts. -/
theorem statements_map (hf : Relabels f) (ts : List Token) :
    statements (f eof) (ts.map f) =
      ((statements eof ts).1.map (Stmt.map f), (statements eof ts).2.map (SyntaxError.map f)) := by
  match ts with
  | [] =>
      rw [List.map_nil, statements_nil, statements_nil]
      rfl
  | t :: ts =>
      have hlen := (statement eof t ts).2
      rw [List.map_cons, statements_cons, statements_cons, statement_map hf t ts]
      simp only [map]
      rw [statements_map hf (statement eof t ts).1.rest, List.map_append, List.map_append,
        Option.toList_map]
termination_by ts.length

end Parse

/-! ## Texts elsewhere -/

theorem relabels_shift (n : Nat) : Relabels (Token.shift n) :=
  ⟨fun _ => rfl, fun _ => rfl⟩

theorem parse_eq (source : String) :
    parse source =
      ⟨⟨(Parse.statements (.eof source.utf8ByteSize) (tokenize source)).1⟩,
        (Parse.statements (.eof source.utf8ByteSize) (tokenize source)).2⟩ := rfl

/-- What is read from a text that stands behind `n` bytes. -/
theorem statements_scan (n : Nat) (source : String) :
    Parse.statements (.eof (source.utf8ByteSize + n)) (scan n source.toList) =
      ((parse source).program.statements.map (Stmt.map (Token.shift n)),
        (parse source).errors.map (SyntaxError.map (Token.shift n))) := by
  have heof : Token.eof (source.utf8ByteSize + n) = Token.shift n (.eof source.utf8ByteSize) := rfl
  rw [scan_eq_map, heof]
  exact Parse.statements_map (relabels_shift n) (tokenize source)

end Monkey
