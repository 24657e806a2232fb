import Mathlib.Order.Filter.AtTopBot.Basic
import Monkey.Proofs.Run

/-!
# Runs are what evaluation does

A task runs from one store to an outcome and another store if and only if evaluation
gives this answer once calls may be nested deeply enough (`runs_iff`), and it gives no
other answer for any depth (`Runs.unique`).
-/

namespace Monkey

namespace Eval

variable {α β : Type} {x : Eval α} {s : Store}

theorem bind_eq_some_iff {f : α → Eval β} {r : β × Store} :
    (x >>= f) s = some r ↔ ∃ a s', x s = some (a, s') ∧ f a s' = some r := by
  change (x s).bind (fun p => f p.1 p.2) = some r ↔ _
  rw [Option.bind_eq_some_iff]
  exact ⟨fun ⟨p, hp, hf⟩ => ⟨p.1, p.2, hp, hf⟩, fun ⟨a, s', ha, hf⟩ => ⟨(a, s'), ha, hf⟩⟩

theorem map_eq_some_iff {f : α → β} {b : β} {s' : Store} :
    (f <$> x) s = some (b, s') ↔ ∃ a, x s = some (a, s') ∧ f a = b := by
  change (x >>= fun a => pure (f a)) s = some (b, s') ↔ _
  rw [bind_eq_some_iff]
  constructor
  · rintro ⟨a, t, ha, hf⟩
    cases hf
    exact ⟨a, ha, rfl⟩
  · rintro ⟨a, ha, rfl⟩
    exact ⟨a, s', ha, rfl⟩

theorem unlessError_eq_some_iff {x : Eval Value} {k : Value → Eval Value}
    {r : Value × Store} :
    x.unlessError k s = some r ↔
      ∃ v s', x s = some (v, s') ∧
        (v.isError ∧ r = (v, s') ∨ ¬v.isError ∧ k v s' = some r) := by
  unfold unlessError
  rw [bind_eq_some_iff]
  constructor
  · rintro ⟨v, s', hx, hk⟩
    refine ⟨v, s', hx, ?_⟩
    split at hk
    next herror => exact .inl ⟨herror, (Option.some.inj hk).symm⟩
    next herror => exact .inr ⟨herror, hk⟩
  · rintro ⟨v, s', hx, ⟨herror, rfl⟩ | ⟨herror, hk⟩⟩
    · exact ⟨v, s', hx, by rw [if_pos herror]; rfl⟩
    · exact ⟨v, s', hx, by rw [if_neg herror, hk]⟩

theorem bind_apply {f : α → Eval β} {a : α} {s' : Store} (h : x s = some (a, s')) :
    (x >>= f) s = f a s' := by
  change (x s).bind (fun p => f p.1 p.2) = _
  rw [h]
  rfl

theorem unlessError_apply {x : Eval Value} {k : Value → Eval Value} {v : Value} {s' : Store}
    (h : x s = some (v, s')) (hv : ¬v.isError) : x.unlessError k s = k v s' := by
  rw [unlessError, bind_apply h, if_neg hv]

theorem unlessError_apply_of_isError {x : Eval Value} {k : Value → Eval Value} {v : Value}
    {s' : Store} (h : x s = some (v, s')) (hv : v.isError) :
    x.unlessError k s = some (v, s') := by
  rw [unlessError, bind_apply h, if_pos hv]
  rfl

theorem enclose_apply {outer : FrameId} :
    enclose outer s = some ((s.newFrame (some outer)).1, (s.newFrame (some outer)).2) := rfl

theorem bindAll_apply {env : FrameId} {bs : List (String × Value)} :
    bindAll env bs s = some ((), s.bindAll env bs) := by
  induction bs generalizing s with
  | nil => rfl
  | cons b bs ih => exact ih

end Eval

open Eval Filter

/-- Arguments as an outcome. -/
def Outcome.ofArgs : Except Value (List Value) → Outcome
  | .error v => .value v
  | .ok vs => .values vs

/-- The evaluation of a task, with calls nested up to the given depth. -/
def Task.eval (depth : Nat) (env : FrameId) : Task → Eval Outcome
  | .expr e => .value <$> evalExpr (Monkey.apply depth) env e
  | .args es => .ofArgs <$> evalArgs (Monkey.apply depth) env es
  | .stmt s => .value <$> evalStmt (Monkey.apply depth) env s
  | .stmts last ss => .value <$> evalStmts (Monkey.apply depth) env last ss
  | .block b => .value <$> evalBlock (Monkey.apply depth) env b
  | .call f vs => .value <$> Monkey.apply depth f vs

namespace Task

variable {depth : Nat} {env : FrameId} {s s' : Store} {v : Value}

theorem eval_expr {e : Expr Unit} :
    (expr e).eval depth env s = some (.value v, s') ↔
      evalExpr (Monkey.apply depth) env e s = some (v, s') := by
  simp [eval, map_eq_some_iff]

theorem eval_args {es : List (Expr Unit)} {vs : List Value} :
    (args es).eval depth env s = some (.values vs, s') ↔
      evalArgs (Monkey.apply depth) env es s = some (.ok vs, s') := by
  rw [eval, map_eq_some_iff]
  constructor
  · rintro ⟨r, hr, heq⟩
    cases r with
    | error v => cases heq
    | ok vs => cases heq; exact hr
  · intro h
    exact ⟨_, h, rfl⟩

theorem eval_args_error {es : List (Expr Unit)} :
    (args es).eval depth env s = some (.value v, s') ↔
      evalArgs (Monkey.apply depth) env es s = some (.error v, s') := by
  rw [eval, map_eq_some_iff]
  constructor
  · rintro ⟨r, hr, heq⟩
    cases r with
    | error v => cases heq; exact hr
    | ok vs => cases heq
  · intro h
    exact ⟨_, h, rfl⟩

theorem eval_stmt {st : Stmt Unit} :
    (stmt st).eval depth env s = some (.value v, s') ↔
      evalStmt (Monkey.apply depth) env st s = some (v, s') := by
  simp [eval, map_eq_some_iff]

theorem eval_stmts {last : Value} {ss : List (Stmt Unit)} :
    (stmts last ss).eval depth env s = some (.value v, s') ↔
      evalStmts (Monkey.apply depth) env last ss s = some (v, s') := by
  simp [eval, map_eq_some_iff]

theorem eval_block {b : Block Unit} :
    (block b).eval depth env s = some (.value v, s') ↔
      evalBlock (Monkey.apply depth) env b s = some (v, s') := by
  simp [eval, map_eq_some_iff]

theorem eval_call {f : Value} {vs : List Value} :
    (call f vs).eval depth env s = some (.value v, s') ↔
      Monkey.apply depth f vs s = some (v, s') := by
  simp [eval, map_eq_some_iff]

end Task

/-! ## From runs to evaluation -/

/-- The first step of a task decides for the whole of it if it is an error. -/
theorem Task.Heads.eval {φ ψ : Task} {depth : Nat} {env : FrameId} {s s' : Store} {v : Value}
    (h : φ.Heads ψ) (hφ : φ.eval depth env s = some (.value v, s')) (hv : v.isError) :
    ψ.eval depth env s = some (.value v, s') := by
  cases h
  all_goals rw [Task.eval_expr] at hφ
  case operand | left | callee =>
    rw [Task.eval_expr, evalExpr]
    exact unlessError_apply_of_isError hφ hv
  case condition t c b a =>
    rw [Task.eval_expr]
    cases a <;> exact unlessError_apply_of_isError hφ hv
  case arg =>
    rw [Task.eval_args_error, evalArgs, bind_apply hφ, if_pos hv]
    rfl
  case bound | returned =>
    rw [Task.eval_stmt, evalStmt]
    exact unlessError_apply_of_isError hφ hv

/-- What is so for every positive depth is so for every depth that is large enough. -/
theorem eventually_of_succ {P : Nat → Prop} (h : ∀ᶠ depth in atTop, P (depth + 1)) :
    ∀ᶠ depth in atTop, P depth := by
  filter_upwards [(tendsto_sub_atTop_nat 1).eventually h, eventually_ge_atTop 1] with
    depth h hdepth
  rwa [Nat.sub_add_cancel hdepth] at h

/-- What runs is what evaluation answers, as soon as calls may be nested deeply enough. -/
theorem Runs.eventually_eval {env : FrameId} {φ : Task} {s s' : Store} {o : Outcome}
    (h : Runs env φ s o s') : ∀ᶠ depth in atTop, φ.eval depth env s = some (o, s') := by
  induction h with
  | error hheads _ hv ih =>
      filter_upwards [ih] with depth h
      exact hheads.eval h hv
  | ident hname =>
      refine .of_forall fun depth => Task.eval_expr.mpr ?_
      rw [evalExpr, getName, hname]
  | unbound hname =>
      refine .of_forall fun depth => Task.eval_expr.mpr ?_
      rw [evalExpr, getName, hname]
      rfl
  | int | bool | function | noArgs | done => exact .of_forall fun depth => rfl
  | unary _ hv hop ih =>
      filter_upwards [ih] with depth h
      rw [Task.eval_expr] at h ⊢
      rw [evalExpr, unlessError_apply h hv, hop]
  | rightError _ hv _ hw ihl ihr =>
      filter_upwards [ihl, ihr] with depth hl hr
      rw [Task.eval_expr] at hl hr ⊢
      rw [evalExpr, unlessError_apply hl hv, unlessError_apply_of_isError hr hw]
  | binary _ hv _ hw hop ihl ihr =>
      filter_upwards [ihl, ihr] with depth hl hr
      rw [Task.eval_expr] at hl hr ⊢
      rw [evalExpr, unlessError_apply hl hv, unlessError_apply hr hw, hop]
  | @then_ _ _ _ _ a _ _ _ _ _ _ hv htruthy _ ihc ihb =>
      filter_upwards [ihc, ihb] with depth hc hb
      rw [Task.eval_expr] at hc ⊢
      rw [Task.eval_block] at hb
      cases a <;> rw [evalExpr, unlessError_apply hc hv, if_pos htruthy, hb]
  | else_ _ hv htruthy _ ihc iha =>
      filter_upwards [ihc, iha] with depth hc ha
      rw [Task.eval_expr] at hc ⊢
      rw [Task.eval_block] at ha
      rw [evalExpr, unlessError_apply hc hv, if_neg htruthy, ha]
  | noElse _ hv htruthy ihc =>
      filter_upwards [ihc] with depth hc
      rw [Task.eval_expr] at hc ⊢
      rw [evalExpr, unlessError_apply hc hv, if_neg htruthy]
      rfl
  | argsError _ hv _ ihf ihes =>
      filter_upwards [ihf, ihes] with depth hf hes
      rw [Task.eval_expr] at hf ⊢
      rw [Task.eval_args_error] at hes
      rw [evalExpr, unlessError_apply hf hv, bind_apply hes]
      rfl
  | call _ hv _ _ ihf ihes ihcall =>
      filter_upwards [ihf, ihes, ihcall] with depth hf hes hcall
      rw [Task.eval_expr] at hf ⊢
      rw [Task.eval_args] at hes
      rw [Task.eval_call] at hcall
      rw [evalExpr, unlessError_apply hf hv, bind_apply hes]
      exact hcall
  | laterError _ hv _ ihe ihes =>
      filter_upwards [ihe, ihes] with depth he hes
      rw [Task.eval_expr] at he
      rw [Task.eval_args_error] at hes ⊢
      rw [evalArgs, bind_apply he, if_neg hv, bind_apply hes]
      rfl
  | moreArgs _ hv _ ihe ihes =>
      filter_upwards [ihe, ihes] with depth he hes
      rw [Task.eval_expr] at he
      rw [Task.eval_args] at hes ⊢
      rw [evalArgs, bind_apply he, if_neg hv, bind_apply hes]
      rfl
  | let_ _ hv ih | return_ _ hv ih =>
      filter_upwards [ih] with depth h
      rw [Task.eval_expr] at h
      rw [Task.eval_stmt, evalStmt, unlessError_apply h hv]
      rfl
  | expr _ ih =>
      filter_upwards [ih] with depth h
      rw [Task.eval_expr] at h
      rw [Task.eval_stmt, evalStmt, h]
  | inner _ ih =>
      filter_upwards [ih] with depth h
      rw [Task.eval_block] at h
      rw [Task.eval_stmt, evalStmt, h]
  | stop _ hv ih =>
      filter_upwards [ih] with depth h
      rw [Task.eval_stmt] at h
      rw [Task.eval_stmts, evalStmts, bind_apply h, if_pos hv]
      rfl
  | next _ hv _ ih ihs =>
      filter_upwards [ih, ihs] with depth h hs
      rw [Task.eval_stmt] at h
      rw [Task.eval_stmts] at hs ⊢
      rw [evalStmts, bind_apply h, if_neg hv, hs]
  | block _ ih =>
      filter_upwards [ih] with depth h
      rw [Task.eval_stmts] at h
      rw [Task.eval_block, evalBlock, h]
  | apply hcount _ ih =>
      -- the body may nest its calls one level less deeply than the call does
      refine eventually_of_succ ?_
      filter_upwards [ih] with depth h
      rw [Task.eval_block] at h
      rw [Task.eval_call, Monkey.apply, if_pos hcount, bind_apply enclose_apply,
        bind_apply bindAll_apply, bind_apply h]
      rfl
  | wrongCount hcount =>
      refine eventually_of_succ (.of_forall fun depth => ?_)
      rw [Task.eval_call, Monkey.apply, if_neg hcount]
      rfl
  | @notAFunction _ f _ _ hf =>
      refine eventually_of_succ (.of_forall fun depth => ?_)
      rw [Task.eval_call]
      cases f with
      | closure c => exact absurd rfl hf
      | _ => rfl

/-! ## From evaluation to runs -/

/-- What the function answers for a call is what runs. -/
def AppliesLikeRuns (ap : Value → List Value → Eval Value) : Prop :=
  ∀ env f vs s v s', ap f vs s = some (v, s') → Runs env (.call f vs) s (.value v) s'

/-- Go on behind the first step of a task: either it is an error, or it is not and the
rest of the task is evaluated. -/
theorem runs_of_unlessError {ψ : Task} {e : Expr Unit} {env : FrameId} {x : Eval Value}
    {k : Value → Eval Value} {s s' : Store} {w : Value} (hheads : Task.Heads (.expr e) ψ)
    (h : x.unlessError k s = some (w, s'))
    (hx : ∀ v s₁, x s = some (v, s₁) → Runs env (.expr e) s (.value v) s₁)
    (hk : ∀ v s₁, Runs env (.expr e) s (.value v) s₁ → ¬v.isError →
      k v s₁ = some (w, s') → Runs env ψ s (.value w) s') :
    Runs env ψ s (.value w) s' := by
  obtain ⟨v, s₁, hv, ⟨herror, heq⟩ | ⟨herror, hrest⟩⟩ := unlessError_eq_some_iff.mp h
  · cases heq
    exact .error hheads (hx w s' hv) herror
  · exact hk v s₁ (hx v s₁ hv) herror hrest

-- The recursion is on the program. A body that is called is no part of it: what calls do is
-- left to the hypothesis, which then follows by induction on the depth.
mutual

theorem runs_of_evalExpr {ap : Value → List Value → Eval Value} {env : FrameId}
    (hap : AppliesLikeRuns ap) {e : Expr Unit} {s s' : Store} {v : Value}
    (h : evalExpr ap env e s = some (v, s')) : Runs env (.expr e) s (.value v) s' := by
  match e with
  | .ident id =>
      rw [evalExpr, getName] at h
      split at h
      next hname =>
        cases h
        exact .ident hname
      next hname =>
        cases h
        exact .unbound hname
  | .int t n =>
      cases h
      exact .int
  | .bool t b =>
      cases h
      exact .bool
  | .unary t op operand =>
      rw [evalExpr] at h
      refine runs_of_unlessError .operand h (fun v s₁ => runs_of_evalExpr hap) ?_
      intro v s₁ hv herror hop
      exact .unary hv herror hop
  | .binary t op l r =>
      rw [evalExpr] at h
      refine runs_of_unlessError .left h (fun v s₁ => runs_of_evalExpr hap) ?_
      intro v s₁ hv herror hrest
      obtain ⟨w, s₂, hw, ⟨hwerror, heq⟩ | ⟨hwerror, hop⟩⟩ := unlessError_eq_some_iff.mp hrest
      · cases heq
        exact .rightError hv herror (runs_of_evalExpr hap hw) hwerror
      · exact .binary hv herror (runs_of_evalExpr hap hw) hwerror hop
  | .cond t c b none =>
      rw [evalExpr] at h
      refine runs_of_unlessError .condition h (fun v s₁ => runs_of_evalExpr hap) ?_
      intro v s₁ hv herror hrest
      split at hrest
      next htruthy => exact .then_ hv herror htruthy (runs_of_evalBlock hap hrest)
      next htruthy =>
        cases hrest
        exact .noElse hv herror htruthy
  | .cond t c b (some a) =>
      rw [evalExpr] at h
      refine runs_of_unlessError .condition h (fun v s₁ => runs_of_evalExpr hap) ?_
      intro v s₁ hv herror hrest
      split at hrest
      next htruthy => exact .then_ hv herror htruthy (runs_of_evalBlock hap hrest)
      next htruthy => exact .else_ hv herror htruthy (runs_of_evalBlock hap hrest)
  | .function t ids b =>
      cases h
      exact .function
  | .call t f es =>
      rw [evalExpr] at h
      refine runs_of_unlessError .callee h (fun v s₁ => runs_of_evalExpr hap) ?_
      intro f s₁ hf herror hrest
      obtain ⟨r, s₂, hes, hcall⟩ := bind_eq_some_iff.mp hrest
      cases r with
      | error w =>
          cases hcall
          exact .argsError hf herror (runs_of_evalArgs hap hes)
      | ok vs => exact .call hf herror (runs_of_evalArgs hap hes) (hap env f vs s₂ v s' hcall)

theorem runs_of_evalArgs {ap : Value → List Value → Eval Value} {env : FrameId}
    (hap : AppliesLikeRuns ap) {es : List (Expr Unit)} {s s' : Store}
    {r : Except Value (List Value)} (h : evalArgs ap env es s = some (r, s')) :
    Runs env (.args es) s (.ofArgs r) s' := by
  match es with
  | [] =>
      cases h
      exact .noArgs
  | e :: es =>
      rw [evalArgs, bind_eq_some_iff] at h
      obtain ⟨v, s₁, hv, hrest⟩ := h
      split at hrest
      next herror =>
        cases hrest
        exact .error .arg (runs_of_evalExpr hap hv) herror
      next herror =>
        obtain ⟨r', s₂, hes, heq⟩ := bind_eq_some_iff.mp hrest
        cases heq
        have hargs := runs_of_evalArgs hap hes
        cases r' with
        | error w => exact .laterError (runs_of_evalExpr hap hv) herror hargs
        | ok vs => exact .moreArgs (runs_of_evalExpr hap hv) herror hargs

theorem runs_of_evalStmt {ap : Value → List Value → Eval Value} {env : FrameId}
    (hap : AppliesLikeRuns ap) {st : Stmt Unit} {s s' : Store} {v : Value}
    (h : evalStmt ap env st s = some (v, s')) : Runs env (.stmt st) s (.value v) s' := by
  match st with
  | .let_ t id e =>
      rw [evalStmt] at h
      refine runs_of_unlessError .bound h (fun v s₁ => runs_of_evalExpr hap) ?_
      intro v s₁ hv herror hrest
      cases hrest
      exact .let_ hv herror
  | .return_ t e =>
      rw [evalStmt] at h
      refine runs_of_unlessError .returned h (fun v s₁ => runs_of_evalExpr hap) ?_
      intro v s₁ hv herror hrest
      cases hrest
      exact .return_ hv herror
  | .expr t e =>
      rw [evalStmt] at h
      exact .expr (runs_of_evalExpr hap h)
  | .block b =>
      rw [evalStmt] at h
      exact .inner (runs_of_evalBlock hap h)

theorem runs_of_evalStmts {ap : Value → List Value → Eval Value} {env : FrameId}
    (hap : AppliesLikeRuns ap) {last : Value} {ss : List (Stmt Unit)} {s s' : Store} {v : Value}
    (h : evalStmts ap env last ss s = some (v, s')) :
    Runs env (.stmts last ss) s (.value v) s' := by
  match ss with
  | [] =>
      cases h
      exact .done
  | st :: ss =>
      rw [evalStmts, bind_eq_some_iff] at h
      obtain ⟨w, s₁, hw, hrest⟩ := h
      split at hrest
      next hstops =>
        cases hrest
        exact .stop (runs_of_evalStmt hap hw) hstops
      next hstops => exact .next (runs_of_evalStmt hap hw) hstops (runs_of_evalStmts hap hrest)

theorem runs_of_evalBlock {ap : Value → List Value → Eval Value} {env : FrameId}
    (hap : AppliesLikeRuns ap) {b : Block Unit} {s s' : Store} {v : Value}
    (h : evalBlock ap env b s = some (v, s')) : Runs env (.block b) s (.value v) s' := by
  match b with
  | .mk t ss =>
      rw [evalBlock] at h
      exact .block (runs_of_evalStmts hap h)

end

theorem appliesLikeRuns_apply (depth : Nat) : AppliesLikeRuns (Monkey.apply depth) := by
  induction depth with
  | zero =>
      intro env f vs s v s' h
      cases h
  | succ depth ih =>
      intro env f vs s v s' h
      cases f with
      | closure c =>
          rw [Monkey.apply] at h
          split at h
          next hcount =>
            obtain ⟨i, s₁, hframe, hrest⟩ := bind_eq_some_iff.mp h
            cases hframe
            obtain ⟨u, s₂, hbind, hrest⟩ := bind_eq_some_iff.mp hrest
            rw [bindAll_apply] at hbind
            cases hbind
            obtain ⟨w, s₃, hbody, heq⟩ := bind_eq_some_iff.mp hrest
            cases heq
            exact .apply hcount (runs_of_evalBlock ih hbody)
          next hcount =>
            cases h
            exact .wrongCount hcount
      | _ =>
          cases h
          exact .notAFunction (by simp [Value.type])

/-- What evaluation answers is what runs, whatever the depth. -/
theorem runs_of_eval {depth : Nat} {env : FrameId} {φ : Task} {s s' : Store} {o : Outcome}
    (h : φ.eval depth env s = some (o, s')) : Runs env φ s o s' := by
  have hap := appliesLikeRuns_apply depth
  cases φ with
  | expr e =>
      obtain ⟨v, hv, rfl⟩ := map_eq_some_iff.mp h
      exact runs_of_evalExpr hap hv
  | args es =>
      obtain ⟨r, hr, rfl⟩ := map_eq_some_iff.mp h
      exact runs_of_evalArgs hap hr
  | stmt st =>
      obtain ⟨v, hv, rfl⟩ := map_eq_some_iff.mp h
      exact runs_of_evalStmt hap hv
  | stmts last ss =>
      obtain ⟨v, hv, rfl⟩ := map_eq_some_iff.mp h
      exact runs_of_evalStmts hap hv
  | block b =>
      obtain ⟨v, hv, rfl⟩ := map_eq_some_iff.mp h
      exact runs_of_evalBlock hap hv
  | call f vs =>
      obtain ⟨v, hv, rfl⟩ := map_eq_some_iff.mp h
      exact hap env f vs s v s' hv

/-- Runs are what evaluation answers for some depth. -/
theorem runs_iff {env : FrameId} {φ : Task} {s s' : Store} {o : Outcome} :
    Runs env φ s o s' ↔ ∃ depth, φ.eval depth env s = some (o, s') :=
  ⟨fun h => h.eventually_eval.exists, fun ⟨_, h⟩ => runs_of_eval h⟩

/-- A task has one outcome and leaves one store. -/
theorem Runs.unique {env : FrameId} {φ : Task} {s s₁ s₂ : Store} {o₁ o₂ : Outcome}
    (h₁ : Runs env φ s o₁ s₁) (h₂ : Runs env φ s o₂ s₂) : o₁ = o₂ ∧ s₁ = s₂ := by
  obtain ⟨depth, hd₁, hd₂⟩ := (h₁.eventually_eval.and h₂.eventually_eval).exists
  rw [hd₁] at hd₂
  cases hd₂
  exact ⟨rfl, rfl⟩

/-- A program is run in a frame like statements in a row, and its result is the value of
the last one that ran, without one wrapper. -/
theorem evaluate_eq_some_iff {p : Program Unit} {env : FrameId} {s s' : Store} {v : Value} :
    (∃ depth, evaluate depth p env s = some (v, s')) ↔
      ∃ w, Runs env (.stmts .null p.statements) s (.value w) s' ∧ w.unwrap = v := by
  constructor
  · rintro ⟨depth, h⟩
    obtain ⟨w, s₁, hw, heq⟩ := bind_eq_some_iff.mp h
    cases heq
    exact ⟨w, runs_of_evalStmts (appliesLikeRuns_apply depth) hw, rfl⟩
  · rintro ⟨w, hw, rfl⟩
    obtain ⟨depth, h⟩ := runs_iff.mp hw
    refine ⟨depth, bind_eq_some_iff.mpr ⟨w, s', Task.eval_stmts.mp h, rfl⟩⟩

/-- A program that comes to an end does so as soon as calls may be nested deeply enough. -/
theorem eventually_evaluate {p : Program Unit} {env : FrameId} {s s' : Store} {v : Value}
    {depth : Nat} (h : evaluate depth p env s = some (v, s')) :
    ∀ᶠ depth in atTop, evaluate depth p env s = some (v, s') := by
  obtain ⟨w, hrun, rfl⟩ := evaluate_eq_some_iff.mp ⟨depth, h⟩
  filter_upwards [hrun.eventually_eval] with depth heval
  exact bind_eq_some_iff.mpr ⟨w, s', Task.eval_stmts.mp heval, rfl⟩

/-- A program has one result, whatever the depth. -/
theorem evaluate_unique {p : Program Unit} {env : FrameId} {s s₁ s₂ : Store} {v₁ v₂ : Value}
    {depth₁ depth₂ : Nat} (h₁ : evaluate depth₁ p env s = some (v₁, s₁))
    (h₂ : evaluate depth₂ p env s = some (v₂, s₂)) : v₁ = v₂ ∧ s₁ = s₂ := by
  obtain ⟨w₁, hrun₁, rfl⟩ := evaluate_eq_some_iff.mp ⟨depth₁, h₁⟩
  obtain ⟨w₂, hrun₂, rfl⟩ := evaluate_eq_some_iff.mp ⟨depth₂, h₂⟩
  obtain ⟨heq, rfl⟩ := hrun₁.unique hrun₂
  cases heq
  exact ⟨rfl, rfl⟩

end Monkey
