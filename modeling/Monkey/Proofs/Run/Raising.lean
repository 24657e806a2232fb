import Monkey.Proofs.Run.Throwing
import Monkey.Proofs.Run.Visits

/-!
# Errors are exceptions

`Raising.evaluate` runs programs as `evaluate` does, but throws an error when it is made,
and never looks for errors in what it is given. From a frame from which no error can be
reached, both give the same result and leave the same store. So whatever error is made on
the way is the result, nothing happens any more once it is made, and it gets under no
name, into no wrapper and into no call (`errors_are_thrown`).
-/

namespace Monkey

open Eval Throwing

/-! ## Evaluation with exceptions -/

namespace Raising

/-- An error is thrown, any other value is an answer. -/
def raised (v : Value) : Except Value Value :=
  if v.isError then .error v else .ok v

/-- The evaluation, with an error that it makes thrown. -/
def raising (x : Eval Value) : Throwing Value :=
  ofEval raised x

/-- The value that a frame sees under a name. -/
def getName (env : FrameId) (name : String) : Throwing Value := do
  match (← get).get? env name with
  | some v => return v
  | none => raising (newError (.unboundName name))

section

variable (apply : Value → List Value → Throwing Value) (env : FrameId)

mutual

/-- The value of an expression. -/
def evalExpr : Expr Unit → Throwing Value
  | .ident id => getName env id.name
  | .int _ n => newInt n
  | .bool _ b => return .bool b
  | .unary _ op operand => do
      let v ← evalExpr operand
      raising (evalUnary op v)
  | .binary _ op left right => do
      let l ← evalExpr left
      let r ← evalExpr right
      raising (evalBinary op l r)
  | .cond _ condition consequence none => do
      let c ← evalExpr condition
      if c.isTruthy then evalBlock consequence else return .null
  | .cond _ condition consequence (some alternative) => do
      let c ← evalExpr condition
      if c.isTruthy then evalBlock consequence else evalBlock alternative
  | .function _ params body =>
      return .closure ⟨← freshId, params.map Ident.name, body, env⟩
  | .call _ callee args => do
      let f ← evalExpr callee
      let vs ← evalArgs args
      apply f vs

/-- The values of arguments from left to right. -/
def evalArgs : List (Expr Unit) → Throwing (List Value)
  | [] => return []
  | e :: es => do
      let v ← evalExpr e
      let vs ← evalArgs es
      return v :: vs

/-- What a statement results in. -/
def evalStmt : Stmt Unit → Throwing Value
  | .let_ _ id value => do
      let v ← evalExpr value
      bindName env id.name v
      return .null
  | .return_ _ value => do
      let v ← evalExpr value
      newReturned v
  | .expr _ value => evalExpr value
  | .block body => evalBlock body

/-- What statements in a row result in; only a wrapper ends them early. -/
def evalStmts (last : Value) : List (Stmt Unit) → Throwing Value
  | [] => return last
  | s :: ss => do
      let v ← evalStmt s
      if v.type = .returnValue then return v else evalStmts v ss

/-- What a block results in. -/
def evalBlock : Block Unit → Throwing Value
  | .mk _ statements => evalStmts .null statements

end

end

/-- Apply a value to arguments. -/
def apply : Nat → Value → List Value → Throwing Value
  | 0, _, _ => liftM (unfinished : Eval Value)
  | depth + 1, .closure c, args =>
      if c.params.length = args.length then do
        let env ← enclose c.env
        bindAll env (c.params.zip args)
        return (← evalBlock (apply depth) env c.body).unwrap
      else raising (newError (.wrongArgumentCount c.params.length args.length))
  | _ + 1, v, _ => raising (newError (.notAFunction v.type))

/-- Run a program in a frame. An error that was thrown is caught here. -/
def evaluate (depth : Nat) (p : Program Unit) (env : FrameId) : Eval Value :=
  caught do return (← evalStmts (apply depth) env .null p.statements).unwrap

end Raising

/-! ## Clean values -/

/-- The value is an error, or has one in its wrappers. -/
def Value.HasError : Value → Prop
  | error _ _ => True
  | returned _ result => result.HasError
  | _ => False

/-- No error, not even a wrapped one, and no function from outside the region. -/
def Value.Clean (R : FrameId → Prop) : Value → Prop
  | error _ _ => False
  | returned _ result => result.Clean R
  | closure c => R c.env
  | _ => True

variable {R : FrameId → Prop} {env : FrameId} {v : Value} {s s' : Store}

namespace Value

theorem clean_iff : v.Clean R ↔ ¬v.HasError ∧ ∀ i, v.Captures i → R i := by
  induction v with
  | returned id w ih => exact ih
  | closure c => simp [Clean, HasError, Captures]
  | _ => simp [Clean, HasError, Captures]

theorem Clean.not_isError (h : v.Clean R) : ¬v.isError := by
  cases v with
  | error id fault => cases h
  | _ => exact Bool.false_ne_true

theorem Clean.unwrap (h : v.Clean R) : v.unwrap.Clean R := by
  cases v with
  | returned id w => exact h
  | _ => exact h

theorem unwrap_of_isError (h : v.isError) : v.unwrap = v := by
  cases v with
  | error id fault => rfl
  | _ => cases h

theorem stops_of_isError (h : v.isError) : v.stops := by
  cases v with
  | error id fault => rfl
  | _ => cases h

/-- Nothing clean but a wrapper ends a block. -/
theorem Clean.stops_iff (h : v.Clean R) : v.stops ↔ v.type = .returnValue := by
  cases v with
  | error id fault => cases h
  | _ => simp [stops, type]

theorem IsScalar.clean (h : v.IsScalar) (hv : ¬v.isError) : v.Clean R := by
  cases v with
  | returned id w => cases h
  | closure c => cases h
  | error id fault => exact absurd rfl hv
  | _ => trivial

end Value

namespace Raising

theorem raised_of_isError (hv : v.isError) : raised v = .error v :=
  if_pos hv

theorem raised_of_not_isError (hv : ¬v.isError) : raised v = .ok v :=
  if_neg hv

theorem raising_pure (hv : ¬v.isError) : raising (pure v) = pure v := by
  rw [raising, ofEval_pure, raised_of_not_isError hv]
  rfl

theorem raising_pure_of_isError (hv : v.isError) : raising (pure v) = throw v := by
  rw [raising, ofEval_pure, raised_of_isError hv]
  rfl

theorem raising_lift_bind {α : Type} {x : Eval α} {f : α → Eval Value} :
    raising (x >>= f) = liftM x >>= fun a => raising (f a) :=
  ofEval_bind

theorem raising_bind_eq {α : Type} {x : Eval Value} {f : Value → Throwing α} :
    raising x >>= f = liftM x >>= fun v => if v.isError then throw v else f v := by
  refine ofEval_bind_eq.trans (bind_congr fun v => ?_)
  split
  next hv =>
    rw [raised_of_isError hv]
    rfl
  next hv =>
    rw [raised_of_not_isError hv]
    rfl

/-- What is not done for errors is done for what is not thrown. -/
theorem raising_bind {x : Eval Value} {f : Value → Eval Value}
    (hf : ∀ v, v.isError → f v = pure v) :
    raising (x >>= f) = raising x >>= fun v => raising (f v) := by
  refine ofEval_bind_of_stops fun v => ?_
  by_cases hv : v.isError
  · exact .inr ⟨⟨v, raised_of_isError hv⟩, hf v hv⟩
  · exact .inl (raised_of_not_isError hv)

theorem raising_unlessError {x : Eval Value} {k : Value → Eval Value} :
    raising (x.unlessError k) = raising x >>= fun v => raising (k v) := by
  rw [raising_bind_eq]
  refine raising_lift_bind.trans (bind_congr fun v => ?_)
  split
  next hv => exact raising_pure_of_isError hv
  next => rfl

theorem caught_raising {x : Eval Value} : caught (raising x) = x := by
  have hraised : ∀ v, caught (ExceptT.mk (pure (raised v))) = pure v := by
    intro v
    unfold raised
    split <;> rfl
  change (raised <$> x >>= fun r => caught (ExceptT.mk (pure r))) = x
  rw [bind_map_left]
  exact (bind_congr hraised).trans (bind_pure x)

/-! ## The two evaluations agree -/

/-- The two computations agree while nothing but clean values is bound in the region: they
come to a clean value, or throw an error. -/
def AgreeCleanly (R : FrameId → Prop) {α : Type} (P : α → Prop) (x y : Throwing α) : Prop :=
  Agree (·.Region R (Value.Clean R)) P (·.isError) x y

theorem ends_raised (hv : ¬v.isError → v.Clean R) :
    Ends (Value.Clean R) (·.isError) (raised v) := by
  unfold raised
  split
  next h => exact h
  next h => exact hv h

theorem agree_operator {x : Eval Value} (hx : x.GivesScalar) :
    AgreeCleanly R (Value.Clean R) (raising x) (raising x) := by
  refine .ofEval fun s v s' hs h => ?_
  obtain ⟨hscalar, hframes⟩ := hx s v s' h
  exact ⟨hs.of_frames_eq hframes, ends_raised hscalar.clean⟩

theorem agree_pure (hv : v.Clean R) :
    AgreeCleanly R (Value.Clean R) (pure v) (raising (pure v)) := by
  rw [raising_pure hv.not_isError]
  exact .pure hv

/-- Something new that is no error is made in both in the same way. -/
theorem agree_lift {x : Eval Value}
    (h : ∀ s, ∃ v s', x s = some (v, s') ∧ v.Clean R ∧ s'.frames = s.frames) :
    AgreeCleanly R (Value.Clean R) (liftM x) (raising x) := by
  intro s hs
  obtain ⟨v, s₁, hx, hv, hframes⟩ := h s
  have hraising : raising x s = some (.ok v, s₁) :=
    map_eq_some_iff.mpr ⟨v, hx, raised_of_not_isError hv.not_isError⟩
  exact agreeAt_some (lift_of_some hx) hraising (hs.of_frames_eq hframes) hv

/-- The value of a name is no error if nothing but clean values is bound. -/
theorem agree_getName {name : String} (henv : R env) :
    AgreeCleanly R (Value.Clean R) (getName env name) (raising (Eval.getName env name)) := by
  intro s hs
  have hget : getName env name s =
      (match s.get? env name with
        | some v => pure v
        | none => raising (newError (.unboundName name)) : Throwing Value) s := rfl
  cases hname : s.get? env name with
  | none =>
      have heq : Eval.getName env name s = newError (.unboundName name) s := by
        rw [Eval.getName, hname]
      rw [hname] at hget
      exact (agree_operator givesScalar_newError s hs).congr hget (ofEval_congr heq)
  | some v =>
      have heq : Eval.getName env name s = (pure v : Eval Value) s := by
        rw [Eval.getName, hname]
        rfl
      rw [hname] at hget
      exact (agree_pure (hs.get? henv hname) s hs).congr hget (ofEval_congr heq)

/-- What is done with arguments, unless there is an error among them. -/
theorem agree_args {α : Type} {P : α → Prop} {x : Eval (Except Value α)} {y : Throwing α}
    {f : α → Throwing Value} {g : Except Value α → Eval Value}
    (hx : AgreeCleanly R P y (ExceptT.mk x)) (herror : ∀ v, g (.error v) = pure v)
    (hok : ∀ a, P a → AgreeCleanly R (Value.Clean R) (f a) (raising (g (.ok a)))) :
    AgreeCleanly R (Value.Clean R) (y >>= f) (raising (x >>= g)) := by
  intro s hs
  obtain ⟨heq, hends⟩ := hx s hs
  have heq : x s = y s := heq.symm
  rw [raising_lift_bind]
  match hr : y s with
  | none => exact agreeAt_none (bind_of_none hr) (bind_of_none (lift_of_none (heq.trans hr)))
  | some (.error v, s₁) =>
      obtain ⟨hs₁, hv⟩ := hends _ _ hr
      refine agreeAt_some (bind_of_error hr) ?_ hs₁ hv
      rw [bind_of_ok (lift_of_some (heq.trans hr)), herror]
      exact congrFun (raising_pure_of_isError hv) s₁
  | some (.ok a, s₁) =>
      obtain ⟨hs₁, ha⟩ := hends _ _ hr
      exact (hok a ha s₁ hs₁).congr (bind_of_ok hr) (bind_of_ok (lift_of_some (heq.trans hr)))

variable {ap : Value → List Value → Eval Value} {rap : Value → List Value → Throwing Value}

/-- The two functions agree on the application of clean values. -/
def ApplyAgree (R : FrameId → Prop) (rap : Value → List Value → Throwing Value)
    (ap : Value → List Value → Eval Value) : Prop :=
  ∀ f vs, f.Clean R → (∀ v ∈ vs, v.Clean R) →
    AgreeCleanly R (Value.Clean R) (rap f vs) (raising (ap f vs))

/-- Arguments are evaluated one after another, and an error among them is thrown. -/
theorem mk_evalArgs_cons {e : Expr Unit} {es : List (Expr Unit)} :
    (ExceptT.mk (Monkey.evalArgs ap env (e :: es)) : Throwing (List Value)) = do
      let v ← raising (Monkey.evalExpr ap env e)
      let vs ← ExceptT.mk (Monkey.evalArgs ap env es)
      return v :: vs := by
  rw [Monkey.evalArgs, mk_bind, raising_bind_eq]
  refine bind_congr fun v => ?_
  split
  next => rfl
  next =>
    funext s
    change (Monkey.evalArgs ap env es s).bind _ = (Monkey.evalArgs ap env es s).bind _
    rcases Monkey.evalArgs ap env es s with _ | ⟨_ | _, _⟩ <;> rfl

mutual

theorem agree_evalExpr (hap : ApplyAgree R rap ap) (henv : R env) (e : Expr Unit) :
    AgreeCleanly R (Value.Clean R) (evalExpr rap env e)
      (raising (Monkey.evalExpr ap env e)) := by
  match e with
  | .ident id =>
      rw [evalExpr, Monkey.evalExpr]
      exact agree_getName henv
  | .int t n => exact agree_lift fun s => ⟨_, _, rfl, trivial, rfl⟩
  | .bool t b => exact agree_pure trivial
  | .unary t op e =>
      rw [evalExpr, Monkey.evalExpr, raising_unlessError]
      refine (agree_evalExpr hap henv e).bind fun v hv => ?_
      exact agree_operator givesScalar_evalUnary
  | .binary t op l r =>
      rw [evalExpr, Monkey.evalExpr, raising_unlessError]
      refine (agree_evalExpr hap henv l).bind fun v hv => ?_
      rw [raising_unlessError]
      refine (agree_evalExpr hap henv r).bind fun w hw => ?_
      exact agree_operator givesScalar_evalBinary
  | .cond t c b none =>
      rw [evalExpr, Monkey.evalExpr, raising_unlessError]
      refine (agree_evalExpr hap henv c).bind fun v hv => ?_
      split
      · exact agree_evalBlock hap henv b
      · exact agree_pure trivial
  | .cond t c b (some a) =>
      rw [evalExpr, Monkey.evalExpr, raising_unlessError]
      refine (agree_evalExpr hap henv c).bind fun v hv => ?_
      split
      · exact agree_evalBlock hap henv b
      · exact agree_evalBlock hap henv a
  | .function t ids b =>
      rw [evalExpr, Monkey.evalExpr, raising_lift_bind]
      refine Agree.bind (agree_freshId) fun id _ => agree_pure henv
  | .call t f es =>
      rw [evalExpr, Monkey.evalExpr, raising_unlessError]
      refine (agree_evalExpr hap henv f).bind fun v hv => ?_
      exact agree_args (agree_evalArgs hap henv es) (fun _ => rfl) fun vs hvs => hap v vs hv hvs

theorem agree_evalArgs (hap : ApplyAgree R rap ap) (henv : R env) (es : List (Expr Unit)) :
    AgreeCleanly R (fun vs => ∀ v ∈ vs, v.Clean R) (evalArgs rap env es)
      (ExceptT.mk (Monkey.evalArgs ap env es)) := by
  match es with
  | [] => exact .pure (List.forall_mem_nil _)
  | e :: es =>
      rw [evalArgs, mk_evalArgs_cons]
      refine (agree_evalExpr hap henv e).bind fun v hv => ?_
      refine (agree_evalArgs hap henv es).bind fun vs hvs => ?_
      exact .pure (List.forall_mem_cons.mpr ⟨hv, hvs⟩)

theorem agree_evalStmt (hap : ApplyAgree R rap ap) (henv : R env) (st : Stmt Unit) :
    AgreeCleanly R (Value.Clean R) (evalStmt rap env st)
      (raising (Monkey.evalStmt ap env st)) := by
  match st with
  | .let_ t id e =>
      rw [evalStmt, Monkey.evalStmt, raising_unlessError]
      refine (agree_evalExpr hap henv e).bind fun v hv => ?_
      rw [raising_lift_bind]
      exact (agree_bindName hv).bind fun _ _ => agree_pure trivial
  | .return_ t e =>
      rw [evalStmt, Monkey.evalStmt, raising_unlessError]
      refine (agree_evalExpr hap henv e).bind fun v hv => ?_
      exact agree_lift fun s => ⟨_, _, rfl, hv, rfl⟩
  | .expr t e =>
      rw [evalStmt, Monkey.evalStmt]
      exact agree_evalExpr hap henv e
  | .block b =>
      rw [evalStmt, Monkey.evalStmt]
      exact agree_evalBlock hap henv b

theorem agree_evalStmts (hap : ApplyAgree R rap ap) (henv : R env) (last : Value)
    (hlast : last.Clean R) (ss : List (Stmt Unit)) :
    AgreeCleanly R (Value.Clean R) (evalStmts rap env last ss)
      (raising (Monkey.evalStmts ap env last ss)) := by
  match ss with
  | [] => exact agree_pure hlast
  | st :: ss =>
      rw [evalStmts, Monkey.evalStmts, raising_bind fun v hv => if_pos (Value.stops_of_isError hv)]
      refine (agree_evalStmt hap henv st).bind fun v hv => ?_
      by_cases hreturned : v.type = .returnValue
      · rw [if_pos hreturned, if_pos (hv.stops_iff.mpr hreturned)]
        exact agree_pure hv
      · rw [if_neg hreturned, if_neg fun hstops => hreturned (hv.stops_iff.mp hstops)]
        exact agree_evalStmts hap henv v hv ss

theorem agree_evalBlock (hap : ApplyAgree R rap ap) (henv : R env) (b : Block Unit) :
    AgreeCleanly R (Value.Clean R) (evalBlock rap env b)
      (raising (Monkey.evalBlock ap env b)) := by
  match b with
  | .mk t ss =>
      rw [evalBlock, Monkey.evalBlock]
      exact agree_evalStmts hap henv .null trivial ss

end

theorem applyAgree_apply (depth : Nat) : ApplyAgree R (apply depth) (Monkey.apply depth) := by
  induction depth with
  | zero => exact fun f vs _ _ s _ => agreeAt_none rfl rfl
  | succ depth ih =>
      intro f vs hf hvs
      cases f with
      | closure c =>
          rw [apply, Monkey.apply]
          split
          · have hbs : ∀ b ∈ c.params.zip vs, b.2.Clean R :=
              fun b hb => hvs b.2 (List.of_mem_zip hb).2
            rw [raising_lift_bind]
            refine (agree_enclose hf).bind fun env henv => ?_
            rw [raising_lift_bind]
            refine (agree_bindAll hbs).bind fun _ _ => ?_
            rw [raising_bind fun v hv => by rw [Value.unwrap_of_isError hv]]
            refine (agree_evalBlock ih henv c.body).bind fun v hv => ?_
            exact agree_pure hv.unwrap
          · exact agree_operator givesScalar_newError
      | _ => exact agree_operator givesScalar_newError

theorem evaluate_eq {depth : Nat} {p : Program Unit} (henv : R env)
    (hs : s.Region R (Value.Clean R)) :
    Monkey.evaluate depth p env s = evaluate depth p env s := by
  have hagree : AgreeCleanly R (Value.Clean R)
      (do return (← evalStmts (apply depth) env .null p.statements).unwrap)
      (raising (Monkey.evaluate depth p env)) := by
    rw [Monkey.evaluate, raising_bind fun v hv => by rw [Value.unwrap_of_isError hv]]
    refine (agree_evalStmts (applyAgree_apply depth) henv .null trivial _).bind fun v hv => ?_
    exact agree_pure hv.unwrap
  calc Monkey.evaluate depth p env s
      = caught (raising (Monkey.evaluate depth p env)) s := by rw [caught_raising]
    _ = evaluate depth p env s := caught_congr (hagree s hs).1.symm

/-- What an evaluation comes to that agrees with one in which errors are thrown. -/
theorem AgreeCleanly.clean {x : Eval Value} {y : Throwing Value}
    (h : AgreeCleanly R (Value.Clean R) y (raising x)) (hs : s.Region R (Value.Clean R))
    (hx : x s = some (v, s')) :
    s'.Region R (Value.Clean R) ∧ (¬v.isError → v.Clean R) := by
  obtain ⟨heq, hends⟩ := h s hs
  obtain ⟨hs', hv⟩ := hends _ _ (heq.trans (map_eq_some_iff.mpr ⟨v, hx, rfl⟩))
  refine ⟨hs', fun herror => ?_⟩
  rw [raised_of_not_isError herror] at hv
  exact hv

end Raising

/-! ## Runs -/

/-- What the task has been given is clean. -/
def Task.Clean (R : FrameId → Prop) : Task → Prop
  | .stmts last _ => last.Clean R
  | .call f vs => f.Clean R ∧ ∀ v ∈ vs, v.Clean R
  | _ => True

/-- An error, or something clean. -/
def Outcome.Clean (R : FrameId → Prop) : Outcome → Prop
  | .value v => ¬v.isError → v.Clean R
  | .values vs => ∀ v ∈ vs, v.Clean R

variable {φ ψ : Task} {o : Outcome}

/-- A run binds nothing but clean values if no others are bound at first, and comes to a
clean value or to an error. -/
theorem Runs.clean (h : Runs env φ s o s') (henv : R env) (hs : s.Region R (Value.Clean R))
    (hφ : φ.Clean R) : s'.Region R (Value.Clean R) ∧ o.Clean R := by
  obtain ⟨depth, heval⟩ := runs_iff.mp h
  have hap := Raising.applyAgree_apply (R := R) depth
  cases φ with
  | expr e =>
      obtain ⟨v, hv, rfl⟩ := map_eq_some_iff.mp heval
      exact (Raising.agree_evalExpr hap henv e).clean hs hv
  | args es =>
      obtain ⟨r, hr, rfl⟩ := map_eq_some_iff.mp heval
      obtain ⟨heq, hends⟩ := Raising.agree_evalArgs hap henv es s hs
      obtain ⟨hs', hr⟩ := hends _ _ (heq.trans hr)
      refine ⟨hs', ?_⟩
      cases r with
      | error v => exact fun herror => absurd hr herror
      | ok vs => exact hr
  | stmt st =>
      obtain ⟨v, hv, rfl⟩ := map_eq_some_iff.mp heval
      exact (Raising.agree_evalStmt hap henv st).clean hs hv
  | stmts last ss =>
      obtain ⟨v, hv, rfl⟩ := map_eq_some_iff.mp heval
      exact (Raising.agree_evalStmts hap henv last hφ ss).clean hs hv
  | block b =>
      obtain ⟨v, hv, rfl⟩ := map_eq_some_iff.mp heval
      exact (Raising.agree_evalBlock hap henv b).clean hs hv
  | call f vs =>
      obtain ⟨v, hv, rfl⟩ := map_eq_some_iff.mp heval
      exact (hap f vs hφ.1 hφ.2).clean hs hv

namespace Moment

variable {m m' : Moment} {t : Store}

/-- An evaluation in the region, of clean values where nothing else is bound. -/
structure Clean (R : FrameId → Prop) (m : Moment) : Prop where
  frame : R m.env
  store : m.store.Region R (Value.Clean R)
  task : m.task.Clean R

theorem Enters.clean (h : m.Enters m') (hm : m.Clean R) : m'.Clean R := by
  obtain ⟨henv, hs, hφ⟩ := hm
  cases h with
  | head hheads => exact ⟨henv, hs, by cases hheads <;> trivial⟩
  | expr | inner | stmt | block => exact ⟨henv, hs, trivial⟩
  | right hrun | then_ hrun | else_ hrun | args hrun | later hrun =>
      exact ⟨henv, (hrun.clean henv hs trivial).1, trivial⟩
  | call hf herror hes =>
      obtain ⟨hs₁, hv⟩ := hf.clean henv hs trivial
      obtain ⟨hs₂, hvs⟩ := hes.clean henv hs₁ trivial
      exact ⟨henv, hs₂, hv herror, hvs⟩
  | next hrun hstops =>
      obtain ⟨hs₁, hv⟩ := hrun.clean henv hs trivial
      exact ⟨henv, hs₁, hv fun herror => hstops (Value.stops_of_isError herror)⟩
  | @body _ c vs s =>
      obtain ⟨hcaptured, hvs⟩ := hφ
      have hbound : ∀ b ∈ c.params.zip vs, b.2.Clean R :=
        fun b hb => hvs b.2 (List.of_mem_zip hb).2
      have hframe : R (s.newFrame (some c.env)).1 := hs.newFrame_mem
      exact ⟨hframe, (hs.newFrame hcaptured).bindAll hbound, trivial⟩

theorem Visits.clean (h : m.Visits m') (hm : m.Clean R) : m'.Clean R := by
  induction h with
  | refl => exact hm
  | tail _ henters ih => exact henters.clean ih

theorem Passes.clean (h : m.Passes t) (hm : m.Clean R) : t.Region R (Value.Clean R) := by
  cases h with
  | start hvisits => exact (hvisits.clean hm).store
  | stop hvisits hrun =>
      obtain ⟨henv, hs, hφ⟩ := hvisits.clean hm
      exact (hrun.clean henv hs hφ).1
  | @binding env c vs s bs bs' hvisits hcount hsplit =>
      obtain ⟨-, hs, hcaptured, hvs⟩ := hvisits.clean hm
      refine (hs.newFrame hcaptured).bindAll fun b hb => ?_
      have hmem : b ∈ c.params.zip vs := hsplit ▸ List.mem_append_left bs' hb
      exact hvs b.2 (List.of_mem_zip hmem).2

/-- An error that a part of an evaluation results in is what the evaluation results in,
and nothing is done behind it. -/
theorem Enters.runs_of_isError (h : m.Enters m') (hv : v.isError)
    (hrun : Runs m'.env m'.task m'.store (.value v) t) :
    Runs m.env m.task m.store (.value v) t := by
  cases h with
  | head hheads => exact .error hheads hrun hv
  | right hl hlv => exact .rightError hl hlv hrun hv
  | then_ hc hcv htruthy => exact .then_ hc hcv htruthy hrun
  | else_ hc hcv htruthy => exact .else_ hc hcv htruthy hrun
  | args hf hfv => exact .argsError hf hfv hrun
  | call hf hfv hes => exact .call hf hfv hes hrun
  | later he hev => exact .laterError he hev hrun
  | expr => exact .expr hrun
  | inner => exact .inner hrun
  | stmt => exact .stop hrun (Value.stops_of_isError hv)
  | next hst hstops => exact .next hst hstops hrun
  | block => exact .block hrun
  | body hcount =>
      rw [← Value.unwrap_of_isError hv]
      exact .apply hcount hrun

theorem Visits.runs_of_isError (h : m.Visits m') (hv : v.isError)
    (hrun : Runs m'.env m'.task m'.store (.value v) t) :
    Runs m.env m.task m.store (.value v) t := by
  induction h using Relation.ReflTransGen.head_induction_on with
  | refl => exact hrun
  | head henters _ ih => exact henters.runs_of_isError hv ih

end Moment

/-! ## Programs -/

/-- The evaluation of a program in a frame from which no error can be reached:

* It is what it is when the error that is made is thrown.
* If a part of it, however deep inside, results in an error, this very error is the
  result, and the store is left as it was then.
* No store on the way binds an error in a frame that is reached, wrapped or not.
* No wrapper has an error inside, and no call is given one. -/
theorem errors_are_thrown {p : Program Unit}
    (hs : ∀ i f b, s.Reaches env i → s.frames[i]? = some f → b ∈ f.bindings →
      ¬b.2.HasError) :
    (∀ depth, evaluate depth p env s = Raising.evaluate depth p env s) ∧
    (∀ depth v s', evaluate depth p env s = some (v, s') →
      ∀ m, Moment.Visits ⟨env, .stmts .null p.statements, s⟩ m → ∀ id fault t,
        Runs m.env m.task m.store (.value (.error id fault)) t →
          v = .error id fault ∧ s' = t) ∧
    (∀ t, Moment.Passes ⟨env, .stmts .null p.statements, s⟩ t →
      ∀ i f b, s.ReachedFrom env i → t.frames[i]? = some f → b ∈ f.bindings →
        ¬b.2.HasError) ∧
    ∀ m, Moment.Visits ⟨env, .stmts .null p.statements, s⟩ m →
      (∀ id w t, Runs m.env m.task m.store (.value (.returned id w)) t → ¬w.HasError) ∧
      ∀ f vs, m.task = .call f vs → ∀ v ∈ vs, ¬v.HasError := by
  have hregion : s.Region (s.ReachedFrom env) (Value.Clean (s.ReachedFrom env)) := by
    refine Store.region_reachedFrom fun i f b hi hf hb => ?_
    refine Value.clean_iff.mpr ⟨hs i f b hi hf hb, fun j hj => ?_⟩
    exact .inl (.captured hi hf hb hj)
  have hclean : Moment.Clean (s.ReachedFrom env) ⟨env, .stmts .null p.statements, s⟩ :=
    ⟨.inl .self, hregion, trivial⟩
  refine ⟨fun depth => Raising.evaluate_eq (.inl .self) hregion, ?_, ?_, ?_⟩
  · intro depth v s' h m hvisits id fault t hrun
    obtain ⟨w, hw, rfl⟩ := evaluate_eq_some_iff.mp ⟨depth, h⟩
    obtain ⟨heq, rfl⟩ := hw.unique (hvisits.runs_of_isError rfl hrun)
    cases heq
    exact ⟨rfl, rfl⟩
  · intro t ht i f b hi hf hb
    exact (Value.clean_iff.mp ((ht.clean hclean).bound i f b hi hf hb)).1
  · intro m hvisits
    obtain ⟨henv, hs, hφ⟩ := hvisits.clean hclean
    refine ⟨fun id w t hrun => ?_, fun f vs hcall v hv => ?_⟩
    · exact (Value.clean_iff.mp ((hrun.clean henv hs hφ).2 Bool.false_ne_true)).1
    · rw [hcall] at hφ
      exact (Value.clean_iff.mp (hφ.2 v hv)).1

/-- `let a = 1; let b = fn(x) { let y = if (true) { return 1 + true }; 2 }(1); let c = 3;` -/
def errorInBody : Program Unit :=
  ⟨[.let_ () ⟨(), "a"⟩ (.int () 1),
    .let_ () ⟨(), "b"⟩ (.call ()
      (.function () [⟨(), "x"⟩]
        ⟨(), [.let_ () ⟨(), "y"⟩ (.cond () (.bool () true)
          ⟨(), [.return_ () (.binary () .add (.int () 1) (.bool () true))]⟩ none),
          .expr () (.int () 2)]⟩)
      [.int () 1]),
    .let_ () ⟨(), "c"⟩ (.int () 3)]⟩

/-- An error in a `return` statement in the value of a `let` statement in a body ends the
program, and the names behind it are never bound. -/
theorem errorInBody_is_thrown :
    (∀ i f b, Store.single.Reaches 0 i → Store.single.frames[i]? = some f →
      b ∈ f.bindings → ¬b.2.HasError) ∧
    ∃ s', Raising.evaluate 1 errorInBody 0 Store.single =
        some (.error 4 (.typeMismatch .add .integer .boolean), s') ∧
      (s'.frames[0]?.map Frame.names) = some ["a"] := by
  have hs : ∀ i f b, Store.single.Reaches 0 i → Store.single.frames[i]? = some f →
      b ∈ f.bindings → ¬b.2.HasError :=
    fun i f b _ hf hb => absurd hb (Store.not_mem_bindings_single hf)
  have h : evaluate 1 errorInBody 0 Store.single = some (_, _) := rfl
  exact ⟨hs, _, ((errors_are_thrown hs).1 1).symm.trans h, rfl⟩

end Monkey
