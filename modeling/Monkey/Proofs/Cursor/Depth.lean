import Monkey.Proofs.Cursor.Parser

/-!
# Depth

What a function of the parser does has nothing to do with how deeply the functions are nested.
Where a run comes to an end at all, it does the same at every greater depth (`Calls.nested_sub`).
Each function is monotone in what it calls, as all of them are put together by `bind` and `loop`.
-/

namespace Monkey

variable {size : Nat} {α β σ : Type}

namespace Parsing

/-- Where `x` comes to an end, `y` does the same. -/
def Sub (x y : Parsing size α) : Prop :=
  ∀ w out, x.run w = some out → y.run w = some out

theorem Sub.refl (x : Parsing size α) : x.Sub x := fun _ _ h => h

theorem Sub.bind {x y : Parsing size α} {f g : α → Parsing size β} (hx : x.Sub y)
    (hf : ∀ a, (f a).Sub (g a)) : (x >>= f).Sub (y >>= g) := by
  intro w out h
  rw [StateT.run_bind] at h ⊢
  obtain ⟨⟨a, w'⟩, hrun, h⟩ := Option.bind_eq_some_iff.mp h
  rw [hx w (a, w') hrun]
  exact hf a w' out h

/-- The same first, and then different things. -/
theorem Sub.behind {x : Parsing size α} {f g : α → Parsing size β}
    (hf : ∀ a, (f a).Sub (g a)) : (x >>= f).Sub (x >>= g) :=
  (Sub.refl x).bind hf

/-- Different things first, and then the same. -/
theorem Sub.before {x y : Parsing size α} {f : α → Parsing size β} (hx : x.Sub y) :
    (x >>= f).Sub (y >>= f) :=
  hx.bind fun a => .refl (f a)

theorem Sub.ite {c : Prop} [Decidable c] {x x' y y' : Parsing size α} (hx : x.Sub x')
    (hy : y.Sub y') : (if c then x else y).Sub (if c then x' else y') := by
  split
  next => exact hx
  next => exact hy

/-- Behind a part that has given up there is nothing more to do. -/
theorem Sub.option {f g : Option α → Parsing size β} (hnone : f none = g none)
    (hsome : ∀ a, (f (some a)).Sub (g (some a))) : ∀ r, (f r).Sub (g r)
  | none => hnone ▸ .refl (f none)
  | some a => hsome a

theorem Sub.loop {turn turn' : σ → Parsing size (Option (Turn σ))}
    {after : σ → Parsing size (Option β)} {turns turns' : Nat} (hturn : ∀ s, (turn s).Sub (turn' s))
    (hle : turns ≤ turns') (s : σ) :
    (loop turn after turns s).Sub (loop turn' after turns' s) := by
  induction turns generalizing turns' s with
  | zero => exact fun _ _ h => nomatch h
  | succ turns ih =>
      cases turns' with
      | zero => exact absurd hle (Nat.not_succ_le_zero turns)
      | succ turns' =>
          refine (hturn s).bind fun r => ?_
          match r with
          | none => exact .refl _
          | some (.leave s) => exact .refl _
          | some (.again s) => exact ih (Nat.le_of_succ_le_succ hle) s

end Parsing

/-- `calls'` does what `calls` does, where this comes to an end. -/
structure Calls.Sub (calls calls' : Calls size) : Prop where
  turns : calls.turns ≤ calls'.turns
  statement : calls.statement.Sub calls'.statement
  expression : ∀ p, (calls.expression p).Sub (calls'.expression p)

namespace Parsing

variable {calls calls' : Calls size}

theorem functionParameters_sub (h : calls.Sub calls') :
    (functionParameters calls).Sub (functionParameters calls') :=
  .behind fun _ => .ite (.refl _) (.loop (fun _ => .refl _) h.turns [])

theorem blockTurn_sub (h : calls.Sub calls') (statements : List (Stmt Token)) :
    (blockTurn calls statements).Sub (blockTurn calls' statements) :=
  .behind fun _ => .ite (.refl _) (.ite (.refl _) h.statement.before)

theorem block_sub (h : calls.Sub calls') : (block calls).Sub (block calls') :=
  .behind fun _ => .behind fun _ => .loop (blockTurn_sub h) h.turns []

theorem prefixExpression_sub (h : calls.Sub calls') (op : UnaryOp) :
    (prefixExpression calls op).Sub (prefixExpression calls' op) :=
  .behind fun _ => .behind fun _ => (h.expression .unary).before

theorem infixExpression_sub (h : calls.Sub calls') (op : BinaryOp) (left : Expr Token) :
    (infixExpression calls op left).Sub (infixExpression calls' op left) :=
  .behind fun _ => .behind fun _ => (h.expression op.precedence).before

theorem groupedExpression_sub (h : calls.Sub calls') :
    (groupedExpression calls).Sub (groupedExpression calls') :=
  .behind fun _ => (h.expression .lowest).before

theorem ifExpression_sub (h : calls.Sub calls') :
    (ifExpression calls).Sub (ifExpression calls') := by
  refine .behind fun token => .behind (.option rfl fun _ => .behind fun _ => ?_)
  refine (h.expression .lowest).bind (.option rfl fun condition => ?_)
  refine .behind (.option rfl fun _ => .behind (.option rfl fun _ => ?_))
  refine (block_sub h).bind (.option rfl fun consequence => .behind fun next => ?_)
  exact .ite (.behind fun _ => .behind (.option rfl fun _ => (block_sub h).before)) (.refl _)

theorem functionLiteral_sub (h : calls.Sub calls') :
    (functionLiteral calls).Sub (functionLiteral calls') := by
  refine .behind fun token => .behind (.option rfl fun _ => ?_)
  refine (functionParameters_sub h).bind (.option rfl fun parameters => ?_)
  exact .behind (.option rfl fun _ => (block_sub h).before)

theorem argumentTurn_sub (h : calls.Sub calls') (arguments : List (Expr Token)) :
    (argumentTurn calls arguments).Sub (argumentTurn calls' arguments) :=
  .behind fun _ =>
    .ite (.behind fun _ => .behind fun _ => (h.expression .lowest).before) (.refl _)

theorem callArguments_sub (h : calls.Sub calls') :
    (callArguments calls).Sub (callArguments calls') := by
  refine .behind fun next => .ite (.refl _) (.behind fun _ => ?_)
  refine (h.expression .lowest).bind (.option rfl fun first => ?_)
  exact .loop (argumentTurn_sub h) h.turns [first]

theorem callExpression_sub (h : calls.Sub calls') (callee : Expr Token) :
    (callExpression calls callee).Sub (callExpression calls' callee) :=
  .behind fun _ => (callArguments_sub h).before

theorem operand_sub (h : calls.Sub calls') : (operand calls).Sub (operand calls') := by
  refine .behind fun token => ?_
  split
  next => exact .refl _
  next => exact .refl _
  next => exact .refl _
  next => exact .refl _
  next => exact prefixExpression_sub h .not
  next => exact prefixExpression_sub h .negate
  next => exact groupedExpression_sub h
  next => exact ifExpression_sub h
  next => exact functionLiteral_sub h
  next => exact .refl _

theorem operatorTurn_sub (h : calls.Sub calls') (p : Precedence) (left : Expr Token) :
    (operatorTurn calls p left).Sub (operatorTurn calls' p left) := by
  refine .behind fun next => .ite (.ite ?_ ?_) (.refl _)
  · exact .behind fun _ => (callExpression_sub h left).before
  · cases BinaryOp.ofKind? next.kind with
    | none => exact .refl _
    | some op => exact .behind fun _ => (infixExpression_sub h op left).before

theorem expression_sub (h : calls.Sub calls') (p : Precedence) :
    (expression calls p).Sub (expression calls' p) :=
  (operand_sub h).bind (.option rfl fun left => .loop (operatorTurn_sub h p) h.turns left)

theorem letStatement_sub (h : calls.Sub calls') :
    (letStatement calls).Sub (letStatement calls') :=
  .behind fun _ => .behind (.option rfl fun _ => .behind (.option rfl fun _ => .behind fun _ =>
    (h.expression .lowest).before))

theorem returnStatement_sub (h : calls.Sub calls') :
    (returnStatement calls).Sub (returnStatement calls') :=
  .behind fun _ => .behind fun _ => (h.expression .lowest).before

theorem expressionStatement_sub (h : calls.Sub calls') :
    (expressionStatement calls).Sub (expressionStatement calls') :=
  .behind fun _ => (expression_sub h .lowest).before

theorem statement_sub (h : calls.Sub calls') : (statement calls).Sub (statement calls') := by
  refine .behind fun _ => .behind fun token => ?_
  split
  next => exact letStatement_sub h
  next => exact returnStatement_sub h
  next => exact (block_sub h).before
  next => exact expressionStatement_sub h

theorem programTurn_sub (h : calls.Sub calls') (statements : List (Stmt Token)) :
    (programTurn calls statements).Sub (programTurn calls' statements) :=
  .behind fun _ => .ite (.refl _) (statement_sub h).before

theorem program_sub (h : calls.Sub calls') : (program calls).Sub (program calls') :=
  (Sub.loop (programTurn_sub h) h.turns []).before

end Parsing

/-- At a greater depth everything is as it is at a smaller one, where it comes to an end there. -/
theorem Calls.nested_sub {depth depth' : Nat} (hle : depth ≤ depth') :
    (nested depth : Calls size).Sub (nested depth') := by
  induction depth generalizing depth' with
  | zero =>
      -- no call comes to an end here
      refine ⟨?_, fun _ _ h => (nomatch h), fun _ _ _ h => (nomatch h)⟩
      cases depth' with
      | zero => exact Nat.le_refl 1
      | succ depth' => exact Nat.le_add_left 1 (depth' + 1)
  | succ depth ih =>
      cases depth' with
      | zero => exact absurd hle (Nat.not_succ_le_zero depth)
      | succ depth' =>
          have hsub := ih (Nat.le_of_succ_le_succ hle)
          exact ⟨Nat.add_le_add_right hle 1, Parsing.statement_sub hsub,
            Parsing.expression_sub hsub⟩

end Monkey
