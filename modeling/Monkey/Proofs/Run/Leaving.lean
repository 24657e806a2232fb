import Monkey.Proofs.Run.Discipline
import Monkey.Proofs.Run.Throwing

/-!
# `return` as a way out

`Leaving.evaluate` knows no wrappers: a `return` statement leaves the body that it is in
at once, and the call, or the program, results in the value that it is left with. For
disciplined programs, in which a `return` statement ends nothing but the statements around
it, this is what `evaluate` does (`returns_leave`).
-/

namespace Monkey

open Eval Throwing

/-! ## Evaluation without wrappers -/

/-- Nothing tame but an error ends a block. -/
theorem Value.Tame.stops_iff {R : FrameId → Prop} {v : Value} (h : v.Tame R) :
    v.stops ↔ v.isError := by
  cases v with
  | returned id w => cases h
  | _ => simp [stops, isError]

namespace Leaving

/-- Go on with the value, unless it is an error: then it is the result. -/
def unlessError (x : Throwing Value) (k : Value → Throwing Value) : Throwing Value := do
  let v ← x
  if v.isError then return v else k v

section

variable (apply : Value → List Value → Eval Value) (env : FrameId)

mutual

/-- The value of an expression. -/
def evalExpr : Expr Unit → Throwing Value
  | .ident id => liftM (getName env id.name)
  | .int _ n => liftM (newInt n)
  | .bool _ b => return .bool b
  | .unary _ op operand => unlessError (evalExpr operand) fun v => liftM (evalUnary op v)
  | .binary _ op left right =>
      unlessError (evalExpr left) fun l =>
      unlessError (evalExpr right) fun r =>
      liftM (evalBinary op l r)
  | .cond _ condition consequence none =>
      unlessError (evalExpr condition) fun c =>
      if c.isTruthy then evalBlock consequence else return .null
  | .cond _ condition consequence (some alternative) =>
      unlessError (evalExpr condition) fun c =>
      if c.isTruthy then evalBlock consequence else evalBlock alternative
  | .function _ params body =>
      return .closure ⟨← freshId, params.map Ident.name, body, env⟩
  | .call _ callee args =>
      unlessError (evalExpr callee) fun f => do
      match ← evalArgs args with
      | .error e => return e
      | .ok vs => apply f vs

/-- The values of arguments from left to right, or the first error among them. -/
def evalArgs : List (Expr Unit) → Throwing (Except Value (List Value))
  | [] => return .ok []
  | e :: es => do
      let v ← evalExpr e
      if v.isError then return .error v
      else return (← evalArgs es).map (v :: ·)

/-- What a statement results in. The value of a `return` statement is thrown as it is;
the number of the wrapper that it does not get is left out, so that objects which are made
later have the numbers that they have with wrappers. -/
def evalStmt : Stmt Unit → Throwing Value
  | .let_ _ id value =>
      unlessError (evalExpr value) fun v => do
      bindName env id.name v
      return .null
  | .return_ _ value =>
      unlessError (evalExpr value) fun v => do
      let _ ← freshId
      throw v
  | .expr _ value => evalExpr value
  | .block body => evalBlock body

/-- What statements in a row result in; only an error ends them early. -/
def evalStmts (last : Value) : List (Stmt Unit) → Throwing Value
  | [] => return last
  | s :: ss => do
      let v ← evalStmt s
      if v.isError then return v else evalStmts v ss

/-- What a block results in. -/
def evalBlock : Block Unit → Throwing Value
  | .mk _ statements => evalStmts .null statements

end

end

/-- Apply a value to arguments. What the body is left with is caught here. -/
def apply : Nat → Value → List Value → Eval Value
  | 0, _, _ => unfinished
  | depth + 1, .closure c, args =>
      if c.params.length = args.length then do
        let env ← enclose c.env
        bindAll env (c.params.zip args)
        caught (evalBlock (apply depth) env c.body)
      else newError (.wrongArgumentCount c.params.length args.length)
  | _ + 1, v, _ => newError (.notAFunction v.type)

/-- Run a program in a frame. What the program is left with is caught here. -/
def evaluate (depth : Nat) (p : Program Unit) (env : FrameId) : Eval Value :=
  caught (evalStmts (apply depth) env .null p.statements)

/-! ## The two evaluations agree -/

/-- What is wrapped is thrown, without the wrapper. -/
def left : Value → Except Value Value
  | .returned _ result => .error result
  | v => .ok v

/-- The evaluation, with what its answer wraps thrown. -/
def leaving (x : Eval Value) : Throwing Value :=
  ofEval left x

variable {α : Type} {R : FrameId → Prop} {P : α → Prop} {exits : Bool} {env : FrameId}
  {v : Value} {s s' : Store}

/-- The two computations agree while nothing but tame values is bound in the region: they
come to an answer, or are left with a tame value, if they are exits. -/
def AgreeTamely (R : FrameId → Prop) (exits : Bool) (P : α → Prop) (x y : Throwing α) :
    Prop :=
  Agree (·.Region R (Value.Tame R)) P (fun w => exits = true ∧ w.Tame R) x y

theorem left_of_tame (hv : v.Tame R) : left v = .ok v := by
  cases v with
  | returned id w => cases hv
  | _ => rfl

theorem leaving_pure (hv : v.Tame R) : leaving (pure v) = pure v := by
  rw [leaving, ofEval_pure, left_of_tame hv]
  rfl

theorem leaving_bind {x : Eval α} {f : α → Eval Value} :
    leaving (x >>= f) = liftM x >>= fun a => leaving (f a) :=
  ofEval_bind

theorem leaving_bind_of_stops {x : Eval Value} {f : Value → Eval Value}
    (hf : ∀ id w, f (.returned id w) = pure (.returned id w)) :
    leaving (x >>= f) = leaving x >>= fun v => leaving (f v) := by
  refine ofEval_bind_of_stops fun v => ?_
  cases v with
  | returned id w => exact .inr ⟨⟨w, rfl⟩, hf id w⟩
  | _ => exact .inl rfl

theorem caught_leaving {x : Eval Value} : caught (leaving x) = Value.unwrap <$> x := by
  have hleft : ∀ v, caught (ExceptT.mk (pure (left v))) = pure v.unwrap := by
    intro v
    cases v <;> rfl
  change (left <$> x >>= fun r => caught (ExceptT.mk (pure r))) = _
  rw [bind_map_left]
  exact (bind_congr hleft).trans (bind_pure_comp Value.unwrap x)

theorem agree_pure (hv : v.Tame R) :
    AgreeTamely R exits (Value.Tame R) (pure v) (leaving (pure v)) := by
  rw [leaving_pure hv]
  exact .pure hv

/-- What comes to a tame value throws nothing. -/
theorem agreeAt_lift {x : Eval Value}
    (h : ∀ v s', x s = some (v, s') → s'.Region R (Value.Tame R) ∧ v.Tame R) :
    AgreeAt (·.Region R (Value.Tame R)) (Value.Tame R) (fun w => exits = true ∧ w.Tame R)
      (liftM x) (leaving x) s := by
  match hx : x s with
  | none => exact agreeAt_none (lift_of_none hx) (ofEval_of_none hx)
  | some (v, s') =>
      obtain ⟨hs', hv⟩ := h v s' hx
      refine agreeAt_some (lift_of_some hx) ?_ hs' hv
      exact (ofEval_of_some hx).trans (by rw [left_of_tame hv])

theorem agree_operator {x : Eval Value} (hx : x.GivesScalar) :
    AgreeTamely R exits (Value.Tame R) (liftM x) (leaving x) := by
  refine fun s hs => agreeAt_lift fun v s' h => ?_
  obtain ⟨hscalar, hframes⟩ := hx s v s' h
  exact ⟨hs.of_frames_eq hframes, hscalar.tame⟩

theorem agree_getName {name : String} (henv : R env) :
    AgreeTamely R exits (Value.Tame R) (liftM (getName env name))
      (leaving (getName env name)) := by
  refine fun s hs => agreeAt_lift fun v s' h => ?_
  unfold getName at h
  split at h
  next w hname =>
    cases h
    exact ⟨hs, hs.get? henv hname⟩
  next =>
    cases h
    exact ⟨hs.spend, trivial⟩

/-- What is no exit is not left, so its answer is looked at as it is. -/
theorem AgreeTamely.plain {x : Eval Value} {y : Throwing Value} {E : Value → Prop}
    (h : AgreeTamely R false (Value.Tame R) y (leaving x)) :
    Agree (·.Region R (Value.Tame R)) (Value.Tame R) E y (liftM x) := by
  intro s hs
  obtain ⟨heq, hends⟩ := h s hs
  match hx : x s with
  | none => exact agreeAt_none (heq.trans (ofEval_of_none hx)) (lift_of_none hx)
  | some (v, s') =>
      have hy : y s = some (left v, s') := heq.trans (ofEval_of_some hx)
      obtain ⟨hs', hv⟩ := hends _ _ hy
      cases v with
      | returned id w => cases hv.1
      | _ => exact agreeAt_some hy (lift_of_some hx) hs' hv

theorem agree_unlessError {x : Eval Value} {y : Throwing Value} {f : Value → Throwing Value}
    {k : Value → Eval Value} (hx : AgreeTamely R false (Value.Tame R) y (leaving x))
    (hk : ∀ v, v.Tame R → AgreeTamely R exits (Value.Tame R) (f v) (leaving (k v))) :
    AgreeTamely R exits (Value.Tame R) (unlessError y f) (leaving (x.unlessError k)) := by
  rw [unlessError, Eval.unlessError, leaving_bind]
  refine hx.plain.bind fun v hv => ?_
  split
  · exact agree_pure hv
  · exact hk v hv

variable {ap rap : Value → List Value → Eval Value}

/-- The two functions agree on the application of tame values. -/
def ApplyAgree (R : FrameId → Prop) (rap ap : Value → List Value → Eval Value) : Prop :=
  ∀ f vs, f.Tame R → (∀ v ∈ vs, v.Tame R) →
    AgreeTamely R false (Value.Tame R) (liftM (rap f vs)) (leaving (ap f vs))

/-- Tame values of arguments, or an error among them. -/
def TameArgs (R : FrameId → Prop) : Except Value (List Value) → Prop
  | .error v => v.isError
  | .ok vs => ∀ v ∈ vs, v.Tame R

mutual

theorem agree_evalExpr (hap : ApplyAgree R rap ap) (henv : R env) (exits : Bool)
    {e : Expr Unit} (he : e.Disciplined exits) :
    AgreeTamely R exits (Value.Tame R) (evalExpr rap env e)
      (leaving (Monkey.evalExpr ap env e)) := by
  match e with
  | .ident id => exact agree_getName henv
  | .int t n => exact agree_operator givesScalar_newInt
  | .bool t b => exact agree_pure trivial
  | .unary t op e =>
      rw [evalExpr, Monkey.evalExpr]
      refine agree_unlessError (agree_evalExpr hap henv _ he) fun v hv => ?_
      exact agree_operator givesScalar_evalUnary
  | .binary t op l r =>
      rw [evalExpr, Monkey.evalExpr]
      refine agree_unlessError (agree_evalExpr hap henv _ he.1) fun v hv => ?_
      refine agree_unlessError (agree_evalExpr hap henv _ he.2) fun w hw => ?_
      exact agree_operator givesScalar_evalBinary
  | .cond t c b none =>
      rw [evalExpr, Monkey.evalExpr]
      refine agree_unlessError (agree_evalExpr hap henv _ he.1) fun v hv => ?_
      split
      · exact agree_evalBlock hap henv _ he.2
      · exact agree_pure trivial
  | .cond t c b (some a) =>
      rw [evalExpr, Monkey.evalExpr]
      refine agree_unlessError (agree_evalExpr hap henv _ he.1) fun v hv => ?_
      split
      · exact agree_evalBlock hap henv _ he.2.1
      · exact agree_evalBlock hap henv _ he.2.2
  | .function t ids b =>
      rw [evalExpr, Monkey.evalExpr, leaving_bind]
      exact agree_freshId.bind fun id _ => agree_pure ⟨henv, he⟩
  | .call t f es =>
      rw [evalExpr, Monkey.evalExpr]
      refine agree_unlessError (agree_evalExpr hap henv _ he.1) fun f hf => ?_
      rw [leaving_bind]
      refine (agree_evalArgs hap henv _ he.2).bind fun r hr => ?_
      cases r with
      | error v => exact agree_pure (Value.tame_of_isError hr)
      | ok vs => exact (hap f vs hf hr).imp nofun

theorem agree_evalArgs (hap : ApplyAgree R rap ap) (henv : R env) (exits : Bool)
    {es : List (Expr Unit)} (hes : Expr.AllDisciplined es) :
    AgreeTamely R exits (TameArgs R) (evalArgs rap env es)
      (liftM (Monkey.evalArgs ap env es)) := by
  match es with
  | [] => exact .pure (List.forall_mem_nil _)
  | e :: es =>
      rw [evalArgs, Monkey.evalArgs, liftM_bind]
      refine (agree_evalExpr hap henv _ hes.1).plain.bind fun v hv => ?_
      split
      next herror => exact .pure herror
      next =>
        rw [liftM_bind]
        refine (agree_evalArgs hap henv _ hes.2).bind fun r hr => ?_
        cases r with
        | error w => exact .pure hr
        | ok vs => exact .pure (List.forall_mem_cons.mpr ⟨hv, hr⟩)

theorem agree_evalStmt (hap : ApplyAgree R rap ap) (henv : R env) (exits : Bool)
    {st : Stmt Unit} (hst : st.Disciplined exits) :
    AgreeTamely R exits (Value.Tame R) (evalStmt rap env st)
      (leaving (Monkey.evalStmt ap env st)) := by
  match st with
  | .let_ t id e =>
      rw [evalStmt, Monkey.evalStmt]
      refine agree_unlessError (agree_evalExpr hap henv _ hst) fun v hv => ?_
      rw [leaving_bind]
      exact (agree_bindName hv).bind fun _ _ => agree_pure trivial
  | .return_ t e =>
      rw [evalStmt, Monkey.evalStmt]
      refine agree_unlessError (agree_evalExpr hap henv _ hst.2) fun v hv => ?_
      rw [newReturned, leaving_bind]
      exact agree_freshId.bind fun _ _ => .throw ⟨hst.1, hv⟩
  | .expr t e =>
      rw [evalStmt, Monkey.evalStmt]
      exact agree_evalExpr hap henv _ hst
  | .block b =>
      rw [evalStmt, Monkey.evalStmt]
      exact agree_evalBlock hap henv _ hst

theorem agree_evalStmts (hap : ApplyAgree R rap ap) (henv : R env) (exits : Bool)
    (last : Value) (hlast : last.Tame R) {ss : List (Stmt Unit)}
    (hss : Stmt.AllDisciplined exits ss) :
    AgreeTamely R exits (Value.Tame R) (evalStmts rap env last ss)
      (leaving (Monkey.evalStmts ap env last ss)) := by
  match ss with
  | [] => exact agree_pure hlast
  | st :: ss =>
      rw [evalStmts, Monkey.evalStmts, leaving_bind_of_stops fun _ _ => if_pos rfl]
      refine (agree_evalStmt hap henv _ hss.1).bind fun v hv => ?_
      by_cases herror : v.isError
      · rw [if_pos herror, if_pos (hv.stops_iff.mpr herror)]
        exact agree_pure hv
      · rw [if_neg herror, if_neg fun hstops => herror (hv.stops_iff.mp hstops)]
        exact agree_evalStmts hap henv _ v hv hss.2

theorem agree_evalBlock (hap : ApplyAgree R rap ap) (henv : R env) (exits : Bool)
    {b : Block Unit} (hb : b.Disciplined exits) :
    AgreeTamely R exits (Value.Tame R) (evalBlock rap env b)
      (leaving (Monkey.evalBlock ap env b)) := by
  match b with
  | .mk t ss =>
      rw [evalBlock, Monkey.evalBlock]
      exact agree_evalStmts hap henv _ .null trivial hb

end

theorem unwrap_of_ends (h : Ends (Value.Tame R) (fun w => exits = true ∧ w.Tame R) (left v)) :
    v.unwrap.Tame R := by
  cases v with
  | returned id w => exact h.2
  | _ => exact h

/-- What is caught at the end of a body is the value without its wrapper. -/
theorem caught_eq {x : Eval Value} {y : Throwing Value}
    (h : AgreeTamely R exits (Value.Tame R) y (leaving x)) (hs : s.Region R (Value.Tame R)) :
    caught y s = (Value.unwrap <$> x) s := by
  rw [caught_congr (h s hs).1, caught_leaving]

theorem agree_caught {x : Eval Value} {y : Throwing Value}
    (h : AgreeTamely R true (Value.Tame R) y (leaving x)) :
    AgreeTamely R false (Value.Tame R) (liftM (caught y)) (leaving (Value.unwrap <$> x)) := by
  intro s hs
  refine AgreeAt.congr (agreeAt_lift fun v s' hv => ?_) (lift_congr (caught_eq h hs)) rfl
  obtain ⟨w, hw, rfl⟩ := map_eq_some_iff.mp hv
  obtain ⟨heq, hends⟩ := h s hs
  obtain ⟨hs', hw⟩ := hends _ _ (heq.trans (ofEval_of_some hw))
  exact ⟨hs', unwrap_of_ends hw⟩

theorem applyAgree_apply (depth : Nat) : ApplyAgree R (apply depth) (Monkey.apply depth) := by
  induction depth with
  | zero => exact fun f vs _ _ s _ => agreeAt_none rfl rfl
  | succ depth ih =>
      intro f vs hf hvs
      cases f with
      | closure c =>
          rw [apply, Monkey.apply]
          split
          · have hbs : ∀ b ∈ c.params.zip vs, b.2.Tame R :=
              fun b hb => hvs b.2 (List.of_mem_zip hb).2
            rw [liftM_bind, leaving_bind]
            refine (agree_enclose hf.1).bind fun env henv => ?_
            rw [liftM_bind, leaving_bind]
            refine (agree_bindAll hbs).bind fun _ _ => ?_
            exact agree_caught (agree_evalBlock ih henv true hf.2)
          · exact agree_operator givesScalar_newError
      | _ => exact agree_operator givesScalar_newError

end Leaving

/-! ## Programs -/

/-- For a disciplined program, in a frame from which one gets to no wrapped value and to
no undisciplined function, it is the same whether `return` statements wrap their values or
leave the body with them: the evaluation comes to the same end or to none, with calls
nested up to any depth. -/
theorem returns_leave {p : Program Unit} {env : FrameId} {s : Store} (hp : p.Disciplined)
    (hs : ∀ i f b, s.Reaches env i → s.frames[i]? = some f → b ∈ f.bindings →
      b.2.type ≠ .returnValue ∧ ∀ c, b.2 = .closure c → c.body.Disciplined true)
    (depth : Nat) :
    evaluate depth p env s = Leaving.evaluate depth p env s := by
  have hregion : s.Region (s.ReachedFrom env) (Value.Tame (s.ReachedFrom env)) := by
    refine Store.region_reachedFrom fun i f b hi hf hb => ?_
    obtain ⟨htype, hbody⟩ := hs i f b hi hf hb
    refine Value.tame_of_type_ne htype fun c hc => ⟨?_, hbody c hc⟩
    exact .inl (.captured hi hf hb (by rw [hc]; rfl))
  have hap := Leaving.applyAgree_apply (R := s.ReachedFrom env) depth
  have hagree := Leaving.agree_evalStmts hap (.inl .self) true .null trivial hp
  exact (Leaving.caught_eq hagree hregion).symm

/-- `let a = fn(x) { if (true) { { return 5; } } 6 }(1); if (false) {} else { return 2; } 3` -/
def returnInBlock : Program Unit :=
  ⟨[.let_ () ⟨(), "a"⟩ (.call ()
      (.function () [⟨(), "x"⟩]
        ⟨(), [.expr () (.cond () (.bool () true)
            ⟨(), [.block ⟨(), [.return_ () (.int () 5)]⟩]⟩ none),
          .expr () (.int () 6)]⟩)
      [.int () 1]),
    .expr () (.cond () (.bool () false) ⟨(), []⟩
      (some ⟨(), [.return_ () (.int () 2)]⟩)),
    .expr () (.int () 3)]⟩

/-- A `return` statement in a block leaves the function that it is in, and the one in a
branch at the top the program. -/
theorem returnInBlock_leaves :
    returnInBlock.Disciplined ∧
    (∀ i f b, Store.single.Reaches 0 i → Store.single.frames[i]? = some f →
      b ∈ f.bindings → b.2.type ≠ .returnValue ∧
        ∀ c, b.2 = .closure c → c.body.Disciplined true) ∧
    ∃ s', Leaving.evaluate 1 returnInBlock 0 Store.single = some (.int 4 2, s') ∧
      (s'.getLocal? 0 "a") = some (.int 2 5) := by
  have hp : returnInBlock.Disciplined := by
    simp [returnInBlock, Program.Disciplined, Stmt.AllDisciplined, Stmt.Disciplined,
      Expr.Disciplined, Expr.AllDisciplined, Block.Disciplined]
  have hs : ∀ i f b, Store.single.Reaches 0 i → Store.single.frames[i]? = some f →
      b ∈ f.bindings → b.2.type ≠ .returnValue ∧
        ∀ c, b.2 = .closure c → c.body.Disciplined true :=
    fun i f b _ hf hb => absurd hb (Store.not_mem_bindings_single hf)
  have h : evaluate 1 returnInBlock 0 Store.single = some (_, _) := rfl
  exact ⟨hp, hs, _, (returns_leave hp hs 1).symm.trans h, rfl⟩

end Monkey
