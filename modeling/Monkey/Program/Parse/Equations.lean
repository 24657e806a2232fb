import Mathlib.Algebra.Group.Nat.Defs
import Monkey.Program.Parse

/-!
# What the parse functions answer

The functions that read programs carry a bound on what they leave, for the sake of
their own recursion. Here each of them is described by what it answers without the
bound: one equation for each way in which the next token decides.
-/

namespace Monkey

/-- The kinds of tokens that an expression can begin with. -/
def Kind.OpensExpr (k : Kind) : Prop :=
  k ∈ [ident, int, keyword .true_, keyword .false_, bang, minus, lparen, keyword .if_,
    keyword .function]

theorem Token.integer?_eq_some_iff {t : Token} {n : Int64} :
    t.integer? = some n ↔ Nat.ofDigitChars 10 t.literal.toList 0 < 2 ^ 63 ∧
      Int64.ofNat (Nat.ofDigitChars 10 t.literal.toList 0) = n := by
  have hmax : Int64.maxValue.toNatClampNeg = 2 ^ 63 - 1 := by decide
  have hle : ∀ k, k ≤ Int64.maxValue.toNatClampNeg ↔ k < 2 ^ 63 := by
    intro k
    rw [hmax]
    omega
  simp [Token.integer?, hle]

namespace Reply

variable {β γ δ : Type} {r : Reply β} {f : β → Token → List Token → Reply γ}
  {g : γ → Token → List Token → Reply δ} {b : β} {error : SyntaxError} {last : Token}
  {ts : List Token}

/-- The reply with errors before its own. -/
def after (errors : List SyntaxError) (r : Reply β) : Reply β :=
  { r with errors := errors ++ r.errors }

theorem after_nil (r : Reply β) : r.after [] = r := rfl

theorem done_andThen : (done b last ts).andThen f = f b last ts := rfl

theorem giveUp_andThen : (giveUp error last ts).andThen f = giveUp error last ts := rfl

theorem andThen_of_none (h : r.result? = none) :
    r.andThen f = ⟨none, r.errors, r.last, r.rest⟩ := by
  rw [andThen, h]

theorem andThen_of_some (h : r.result? = some b) :
    r.andThen f =
      ⟨(f b r.last r.rest).result?, r.errors ++ (f b r.last r.rest).errors,
        (f b r.last r.rest).last, (f b r.last r.rest).rest⟩ := by
  rw [andThen, h]

theorem andThen_assoc :
    (r.andThen f).andThen g = r.andThen fun b last rest => (f b last rest).andThen g := by
  cases hb : r.result? with
  | none => rw [andThen_of_none hb, andThen_of_none hb, andThen_of_none rfl]
  | some b =>
      rw [andThen_of_some hb, andThen_of_some hb]
      cases hc : (f b r.last r.rest).result? with
      | none => rw [andThen_of_none hc, andThen_of_none rfl]
      | some c => rw [andThen_of_some hc, andThen_of_some rfl, List.append_assoc]

theorem andThen_eq_after (h : r.result? = some b) :
    r.andThen f = (f b r.last r.rest).after r.errors :=
  andThen_of_some h

theorem andThen_map (r : Reply β) (f : β → γ) :
    (r.andThen fun b last rest => .done (f b) last rest) =
      ⟨r.result?.map f, r.errors, r.last, r.rest⟩ := by
  cases hb : r.result? with
  | none => rw [andThen_of_none hb, Option.map_none]
  | some b => rw [andThen_of_some hb, Reply.done, List.append_nil, Option.map_some]

theorem andThen_done (r : Reply β) : r.andThen Reply.done = r := by
  have hmap := r.andThen_map id
  rwa [Option.map_id] at hmap

end Reply

namespace Parse

open Reply

variable {eof t last brace : Token} {ts : List Token} {p : Precedence}

/-! ## Single tokens -/

theorem expect_cons {kind : Kind} :
    (expect eof kind last (t :: ts)).1 =
      if t.kind = kind then .done t t ts
      else .giveUp (.unexpectedToken kind t) last (t :: ts) := by
  simp only [expect]
  split <;> rfl

theorem finish_cons {s : Stmt Token} :
    (finish s last (t :: ts)).1 =
      if t.kind = .semicolon then .done s t ts else .done s last (t :: ts) := by
  simp only [finish]
  split <;> rfl

/-! ## Parameters -/

theorem someParams_eq :
    (someParams eof last ts).1 =
      (expect eof .ident last ts).1.andThen fun name last rest =>
      (moreParams eof last rest).1.andThen fun more last rest =>
      .done (⟨name, name.literal⟩ :: more) last rest := by
  rw [someParams]
  exact Within.val_andThen _ fun _ _ _ _ => Within.val_andThen _ fun _ _ _ _ => rfl

theorem moreParams_nil :
    (moreParams eof last []).1 = giveUp (.unexpectedToken .rparen eof) last [] := by
  rw [moreParams]
  rfl

theorem moreParams_cons :
    (moreParams eof last (t :: ts)).1 =
      if t.kind = .comma then (someParams eof t ts).1
      else
        (expect eof .rparen last (t :: ts)).1.andThen fun _ last rest =>
        .done [] last rest := by
  rw [moreParams]
  split
  · rfl
  · exact Within.val_andThen _ fun _ _ _ _ => rfl

theorem params_nil : (params eof last []).1 = (someParams eof last []).1 := rfl

theorem params_cons :
    (params eof last (t :: ts)).1 =
      if t.kind = .rparen then .done [] t ts else (someParams eof last (t :: ts)).1 := by
  simp only [params]
  split <;> rfl

/-! ## Expressions -/

theorem expressionAt_eq :
    (expressionAt eof p t ts).1 =
      (operand eof t ts).1.andThen fun left last rest =>
      (operators eof p left last rest).1 := by
  rw [expressionAt]
  exact Within.val_andThen _ fun _ _ _ _ => rfl

theorem expression_nil :
    (expression eof p []).1 = giveUp (.noExpression eof) eof [] := by
  rw [expression]
  rfl

theorem expression_cons :
    (expression eof p (t :: ts)).1 = (expressionAt eof p t ts).1 := by
  rw [expression]
  rfl

theorem operand_ident (h : t.kind = .ident) :
    (operand eof t ts).1 = .done (.ident ⟨t, t.literal⟩) t ts := by
  rw [operand]
  simp only [h]
  rfl

theorem operand_int (h : t.kind = .int) :
    (operand eof t ts).1 =
      match t.integer? with
      | some n => .done (.int t n) t ts
      | none => .giveUp (.integerTooLarge t) t ts := by
  rw [operand]
  simp only [h]
  cases t.integer? <;> rfl

theorem operand_true (h : t.kind = .keyword .true_) :
    (operand eof t ts).1 = .done (.bool t true) t ts := by
  rw [operand]
  simp only [h]
  rfl

theorem operand_false (h : t.kind = .keyword .false_) :
    (operand eof t ts).1 = .done (.bool t false) t ts := by
  rw [operand]
  simp only [h]
  rfl

theorem operand_unary {op : UnaryOp} (h : UnaryOp.ofKind? t.kind = some op) :
    (operand eof t ts).1 =
      (expression eof .unary ts).1.andThen fun operand last rest =>
      .done (.unary t op operand) last rest := by
  unfold UnaryOp.ofKind? at h
  rw [operand]
  split at h
  all_goals
    first
    | next hk =>
        cases h
        simp only [hk]
        exact Within.val_andThen _ fun _ _ _ _ => rfl
    | cases h

theorem operand_lparen (h : t.kind = .lparen) :
    (operand eof t ts).1 =
      (expression eof .lowest ts).1.andThen fun inner last rest =>
      (expect eof .rparen last rest).1.andThen fun _ last rest =>
      .done inner last rest := by
  rw [operand]
  simp only [h]
  exact Within.val_andThen _ fun _ _ _ _ => Within.val_andThen _ fun _ _ _ _ => rfl

theorem operand_if (h : t.kind = .keyword .if_) :
    (operand eof t ts).1 =
      (expect eof .lparen t ts).1.andThen fun _ _ rest =>
      (expression eof .lowest rest).1.andThen fun condition last rest =>
      (expect eof .rparen last rest).1.andThen fun _ last rest =>
      (expect eof .lbrace last rest).1.andThen fun brace _ rest =>
      (block eof brace rest).1.andThen fun consequence last rest =>
      (alternative eof last rest).1.andThen fun alternative last rest =>
      .done (.cond t condition consequence alternative) last rest := by
  rw [operand]
  simp only [h]
  exact Within.val_andThen _ fun _ _ _ _ => Within.val_andThen _ fun _ _ _ _ =>
    Within.val_andThen _ fun _ _ _ _ => Within.val_andThen _ fun _ _ _ _ =>
    Within.val_andThen _ fun _ _ _ _ => Within.val_andThen _ fun _ _ _ _ => rfl

theorem operand_function (h : t.kind = .keyword .function) :
    (operand eof t ts).1 =
      (expect eof .lparen t ts).1.andThen fun _ last rest =>
      (params eof last rest).1.andThen fun params last rest =>
      (expect eof .lbrace last rest).1.andThen fun brace _ rest =>
      (block eof brace rest).1.andThen fun body last rest =>
      .done (.function t params body) last rest := by
  rw [operand]
  simp only [h]
  exact Within.val_andThen _ fun _ _ _ _ => Within.val_andThen _ fun _ _ _ _ =>
    Within.val_andThen _ fun _ _ _ _ => Within.val_andThen _ fun _ _ _ _ => rfl

theorem operand_other (h : ¬t.kind.OpensExpr) :
    (operand eof t ts).1 = giveUp (.noExpression t) t ts := by
  simp only [Kind.OpensExpr, List.mem_cons, List.not_mem_nil, or_false, not_or] at h
  rw [operand]
  split
  case h_10 => rfl
  all_goals simp_all

theorem alternative_nil : (alternative eof last []).1 = .done none last [] := by
  rw [alternative]
  rfl

theorem alternative_cons :
    (alternative eof last (t :: ts)).1 =
      if t.kind = .keyword .else_ then
        (expect eof .lbrace t ts).1.andThen fun brace _ rest =>
        (block eof brace rest).1.andThen fun body last rest =>
        .done (some body) last rest
      else .done none last (t :: ts) := by
  rw [alternative]
  split
  · rw [Within.val_weaken]
    exact Within.val_andThen _ fun _ _ _ _ => Within.val_andThen _ fun _ _ _ _ => rfl
  · rfl

theorem operators_nil {left : Expr Token} :
    (operators eof p left last []).1 = .done left last [] := by
  rw [operators]
  rfl

theorem operators_lparen {left : Expr Token} (h : t.kind = .lparen) :
    (operators eof p left last (t :: ts)).1 =
      (args eof ts).1.andThen fun args last rest =>
      (operators eof p (.call t left args) last rest).1 := by
  rw [operators, if_pos h, Within.val_weaken]
  exact Within.val_andThen _ fun _ _ _ _ => rfl

theorem operators_binary {left : Expr Token} {op : BinaryOp}
    (h : BinaryOp.ofKind? t.kind = some op) :
    (operators eof p left last (t :: ts)).1 =
      if p.rank < op.precedence.rank then
        (expression eof op.precedence ts).1.andThen fun right last rest =>
        (operators eof p (.binary t op left right) last rest).1
      else .done left last (t :: ts) := by
  have hne : t.kind ≠ .lparen := by
    intro hk
    rw [hk] at h
    cases h
  rw [operators, if_neg hne]
  simp only [h]
  split
  · rw [Within.val_weaken]
    exact Within.val_andThen _ fun _ _ _ _ => rfl
  · rfl

theorem operators_other {left : Expr Token} (hne : t.kind ≠ .lparen)
    (h : BinaryOp.ofKind? t.kind = none) :
    (operators eof p left last (t :: ts)).1 = .done left last (t :: ts) := by
  rw [operators, if_neg hne]
  simp only [h]
  rfl

/-! ## Arguments -/

theorem args_nil : (args eof []).1 = giveUp (.noExpression eof) eof [] := by
  rw [args]
  rfl

theorem args_cons :
    (args eof (t :: ts)).1 =
      if t.kind = .rparen then .done [] t ts
      else
        (expressionAt eof .lowest t ts).1.andThen fun first last rest =>
        (moreArgs eof last rest).1.andThen fun more last rest =>
        .done (first :: more) last rest := by
  rw [args]
  split
  · rfl
  · rw [Within.val_weaken]
    exact Within.val_andThen _ fun _ _ _ _ => Within.val_andThen _ fun _ _ _ _ => rfl

theorem moreArgs_nil :
    (moreArgs eof last []).1 = giveUp (.unexpectedToken .rparen eof) last [] := by
  rw [moreArgs]
  rfl

theorem moreArgs_cons :
    (moreArgs eof last (t :: ts)).1 =
      if t.kind = .comma then
        (expression eof .lowest ts).1.andThen fun next last rest =>
        (moreArgs eof last rest).1.andThen fun more last rest =>
        .done (next :: more) last rest
      else
        (expect eof .rparen last (t :: ts)).1.andThen fun _ last rest =>
        .done [] last rest := by
  rw [moreArgs]
  split
  · rw [Within.val_weaken]
    exact Within.val_andThen _ fun _ _ _ _ => Within.val_andThen _ fun _ _ _ _ => rfl
  · exact Within.val_andThen _ fun _ _ _ _ => rfl

/-! ## Blocks and statements -/

theorem block_eq :
    (block eof brace ts).1 =
      (blockStatements eof ts).1.andThen fun statements last rest =>
      .done (.mk brace statements) last rest := by
  rw [block]
  exact Within.val_andThen _ fun _ _ _ _ => rfl

theorem blockStatements_nil :
    (blockStatements eof []).1 = giveUp (.unexpectedToken .rbrace eof) eof [] := by
  rw [blockStatements]
  rfl

theorem blockStatements_rbrace (h : t.kind = .rbrace) :
    (blockStatements eof (t :: ts)).1 = .done [] t ts := by
  rw [blockStatements, if_pos h]
  rfl

/-- A block goes on behind a statement, unless the statement gave up on a closing
brace. -/
theorem blockStatements_cons (h : t.kind ≠ .rbrace) :
    (blockStatements eof (t :: ts)).1 =
      let r := (statement eof t ts).1
      if r.result?.isNone ∧ r.last.kind = .rbrace then { r with result? := some [] }
      else
        let more := (blockStatements eof r.rest).1
        ⟨more.result?.map (r.result?.toList ++ ·), r.errors ++ more.errors, more.last,
          more.rest⟩ := by
  rw [blockStatements, if_neg h]
  rcases statement eof t ts with ⟨r, hrest⟩
  dsimp only
  split <;> rfl

/-- Behind a statement that was read, a block goes on. -/
theorem blockStatements_cons_some {s : Stmt Token} (h : t.kind ≠ .rbrace)
    (hs : (statement eof t ts).1.result? = some s) :
    (blockStatements eof (t :: ts)).1 =
      (statement eof t ts).1.andThen fun s _ rest =>
      (blockStatements eof rest).1.andThen fun ss last rest => .done (s :: ss) last rest := by
  rw [blockStatements_cons h]
  simp only [andThen, hs, Option.isNone_some, Bool.false_eq_true, false_and, if_false,
    Option.toList_some]
  cases (blockStatements eof (statement eof t ts).1.rest).1.result? <;>
    simp [Reply.done]

theorem statement_let (h : t.kind = .keyword .let_) :
    (statement eof t ts).1 =
      (expect eof .ident t ts).1.andThen fun name last rest =>
      (expect eof .assign last rest).1.andThen fun _ _ rest =>
      (expression eof .lowest rest).1.andThen fun value last rest =>
      (finish (.let_ t ⟨name, name.literal⟩ value) last rest).1 := by
  rw [statement]
  simp only [h]
  exact Within.val_andThen _ fun _ _ _ _ => Within.val_andThen _ fun _ _ _ _ =>
    Within.val_andThen _ fun _ _ _ _ => rfl

theorem statement_return (h : t.kind = .keyword .return_) :
    (statement eof t ts).1 =
      (expression eof .lowest ts).1.andThen fun value last rest =>
      (finish (.return_ t value) last rest).1 := by
  rw [statement]
  simp only [h]
  exact Within.val_andThen _ fun _ _ _ _ => rfl

theorem statement_lbrace (h : t.kind = .lbrace) :
    (statement eof t ts).1 =
      (block eof t ts).1.andThen fun body last rest => .done (.block body) last rest := by
  rw [statement]
  simp only [h]
  exact Within.val_andThen _ fun _ _ _ _ => rfl

theorem statement_expr (hlet : t.kind ≠ .keyword .let_)
    (hreturn : t.kind ≠ .keyword .return_) (hbrace : t.kind ≠ .lbrace) :
    (statement eof t ts).1 =
      (expressionAt eof .lowest t ts).1.andThen fun value last rest =>
      (finish (.expr t value) last rest).1 := by
  rw [statement]
  split
  · exact absurd ‹_› hlet
  · exact absurd ‹_› hreturn
  · exact absurd ‹_› hbrace
  · exact Within.val_andThen _ fun _ _ _ _ => rfl

theorem statements_nil : statements eof [] = ([], []) := by
  rw [statements]

theorem statements_cons :
    statements eof (t :: ts) =
      let r := (statement eof t ts).1
      let more := statements eof r.rest
      (r.result?.toList ++ more.1, r.errors ++ more.2) := by
  rw [statements]

end Parse

end Monkey
