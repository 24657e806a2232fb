import Mathlib.Logic.Relation
import Mathlib.Order.WellFounded
import Monkey.Proofs.Run.Adequacy

/-!
# What an evaluation goes through

An evaluation that never ends has no run, but the evaluations it is made of can be
followed one after another: each begins where the one before it ended. A store is passed
on the way if one of them begins or ends with it, or if it is met while the parameters of
a call are bound. No part is left out: what has no end goes from part to part forever
(`exists_enters_forever`).
-/

namespace Monkey

/-- The beginning of an evaluation. -/
structure Moment where
  env : FrameId
  task : Task
  store : Store

namespace Moment

/-- The evaluation that begins at the first moment has one for a part of it that begins at
the second one. -/
inductive Enters : Moment → Moment → Prop where
  | head {env φ ψ s} : φ.Heads ψ → Enters ⟨env, ψ, s⟩ ⟨env, φ, s⟩
  | right {env t op l r s v s₁} : Runs env (.expr l) s (.value v) s₁ → ¬v.isError →
      Enters ⟨env, .expr (.binary t op l r), s⟩ ⟨env, .expr r, s₁⟩
  | then_ {env t c b a s v s₁} : Runs env (.expr c) s (.value v) s₁ → ¬v.isError →
      v.isTruthy → Enters ⟨env, .expr (.cond t c b a), s⟩ ⟨env, .block b, s₁⟩
  | else_ {env t c b a s v s₁} : Runs env (.expr c) s (.value v) s₁ → ¬v.isError →
      ¬v.isTruthy → Enters ⟨env, .expr (.cond t c b (some a)), s⟩ ⟨env, .block a, s₁⟩
  | args {env t f es s v s₁} : Runs env (.expr f) s (.value v) s₁ → ¬v.isError →
      Enters ⟨env, .expr (.call t f es), s⟩ ⟨env, .args es, s₁⟩
  | call {env t f es s v s₁ vs s₂} : Runs env (.expr f) s (.value v) s₁ → ¬v.isError →
      Runs env (.args es) s₁ (.values vs) s₂ →
      Enters ⟨env, .expr (.call t f es), s⟩ ⟨env, .call v vs, s₂⟩
  | later {env e es s v s₁} : Runs env (.expr e) s (.value v) s₁ → ¬v.isError →
      Enters ⟨env, .args (e :: es), s⟩ ⟨env, .args es, s₁⟩
  | expr {env t e s} : Enters ⟨env, .stmt (.expr t e), s⟩ ⟨env, .expr e, s⟩
  | inner {env b s} : Enters ⟨env, .stmt (.block b), s⟩ ⟨env, .block b, s⟩
  | stmt {env last st ss s} : Enters ⟨env, .stmts last (st :: ss), s⟩ ⟨env, .stmt st, s⟩
  | next {env last st ss s v s₁} : Runs env (.stmt st) s (.value v) s₁ → ¬v.stops →
      Enters ⟨env, .stmts last (st :: ss), s⟩ ⟨env, .stmts v ss, s₁⟩
  | block {env t ss s} : Enters ⟨env, .block (.mk t ss), s⟩ ⟨env, .stmts .null ss, s⟩
  | body {env c vs s} : c.params.length = vs.length →
      Enters ⟨env, .call (.closure c) vs, s⟩
        ⟨(s.newFrame (some c.env)).1, .block c.body,
          (s.newFrame (some c.env)).2.bindAll (s.newFrame (some c.env)).1 (c.params.zip vs)⟩

/-- One evaluation is a part of the other, however deep inside. -/
def Visits : Moment → Moment → Prop :=
  Relation.ReflTransGen Enters

/-- The store is met on the way of the evaluation. -/
inductive Passes (m : Moment) : Store → Prop where
  | start {m'} : m.Visits m' → m.Passes m'.store
  | stop {m' o t} : m.Visits m' → Runs m'.env m'.task m'.store o t → m.Passes t
  /-- The frame of a call has been made, and some of the parameters are bound. -/
  | binding {env c vs s bs bs'} : m.Visits ⟨env, .call (.closure c) vs, s⟩ →
      c.params.length = vs.length → c.params.zip vs = bs ++ bs' →
      m.Passes ((s.newFrame (some c.env)).2.bindAll (s.newFrame (some c.env)).1 bs)

end Moment

/-! ## Frames are there to stay -/

variable {env : FrameId} {φ : Task} {s s' : Store} {o : Outcome}

theorem Runs.size_le (h : Runs env φ s o s') : s.frames.size ≤ s'.frames.size := by
  induction h with
  | error _ _ _ ih | noElse _ _ _ ih | return_ _ _ ih | expr _ ih | inner _ ih | stop _ _ ih
  | block _ ih => exact ih
  | ident | unbound | int | bool | function | noArgs | done | wrongCount | notAFunction =>
      exact Nat.le_refl _
  | unary _ _ hop ih =>
      rw [(givesScalar_evalUnary _ _ _ hop).2]
      exact ih
  | binary _ _ _ _ hop ihl ihr =>
      rw [(givesScalar_evalBinary _ _ _ hop).2]
      exact Nat.le_trans ihl ihr
  | rightError _ _ _ _ ih₁ ih₂ | then_ _ _ _ _ ih₁ ih₂ | else_ _ _ _ _ ih₁ ih₂
  | argsError _ _ _ ih₁ ih₂ | laterError _ _ _ ih₁ ih₂ | moreArgs _ _ _ ih₁ ih₂
  | next _ _ _ ih₁ ih₂ => exact Nat.le_trans ih₁ ih₂
  | call _ _ _ _ ih₁ ih₂ ih₃ => exact Nat.le_trans ih₁ (Nat.le_trans ih₂ ih₃)
  | let_ _ _ ih =>
      rw [Store.size_set]
      exact ih
  | apply _ _ ih =>
      rw [Store.size_bindAll, Store.size_newFrame] at ih
      exact Nat.le_of_succ_le ih

namespace Moment

variable {m m' : Moment}

/-- The frame of the evaluation is in the store. -/
def HasFrame (m : Moment) : Prop :=
  m.env < m.store.frames.size

theorem Enters.hasFrame (h : m.Enters m') (hm : m.HasFrame) : m'.HasFrame := by
  cases h with
  | head | expr | inner | stmt | block => exact hm
  | right hrun | then_ hrun | else_ hrun | args hrun | later hrun | next hrun =>
      exact Nat.lt_of_lt_of_le hm hrun.size_le
  | call hf _ hes => exact Nat.lt_of_lt_of_le hm (Nat.le_trans hf.size_le hes.size_le)
  | body =>
      unfold HasFrame
      rw [Store.size_bindAll, Store.size_newFrame]
      exact Nat.lt_succ_self _

theorem Visits.hasFrame (h : m.Visits m') (hm : m.HasFrame) : m'.HasFrame := by
  induction h with
  | refl => exact hm
  | tail _ henters ih => exact henters.hasFrame ih

end Moment

/-! ## Evaluations without an end -/

theorem exists_evalUnary {op : UnaryOp} {v : Value} : ∃ w s', evalUnary op v s = some (w, s') := by
  cases op with
  | not => exact ⟨_, _, rfl⟩
  | negate => cases v <;> exact ⟨_, _, rfl⟩

theorem exists_evalInts {op : BinaryOp} {m n : Int64} :
    ∃ w s', evalInts op m n s = some (w, s') := by
  cases op with
  | divide =>
      rw [evalInts]
      split <;> exact ⟨_, _, rfl⟩
  | _ => exact ⟨_, _, rfl⟩

theorem exists_evalBinary {op : BinaryOp} {v w : Value} :
    ∃ u s', evalBinary op v w s = some (u, s') := by
  unfold evalBinary
  split
  · exact exists_evalInts
  split
  · exact ⟨_, _, rfl⟩
  · exact ⟨_, _, rfl⟩
  · split <;> exact ⟨_, _, rfl⟩

/-- Only arguments can result in several values. -/
theorem Runs.exists_value (h : Runs env φ s o s') (hφ : ∀ es, φ ≠ .args es) :
    ∃ v, o = .value v := by
  cases h with
  | noArgs => exact absurd rfl (hφ [])
  | moreArgs => exact absurd rfl (hφ _)
  | _ => exact ⟨_, rfl⟩

namespace Moment

/-- The evaluation comes to an end. -/
def Ends (m : Moment) : Prop :=
  ∃ o s', Runs m.env m.task m.store o s'

theorem Ends.exists_value {s : Store} (h : Ends ⟨env, φ, s⟩) (hφ : ∀ es, φ ≠ .args es) :
    ∃ v s', Runs env φ s (.value v) s' := by
  obtain ⟨o, s', hrun⟩ := h
  obtain ⟨v, rfl⟩ := hrun.exists_value hφ
  exact ⟨v, s', hrun⟩

/-- Go on behind the first step, unless it results in an error. -/
theorem ends_of_head {ψ : Task} {e : Expr Unit} {s : Store} (hheads : Task.Heads (.expr e) ψ)
    (h : ∀ m', Enters ⟨env, ψ, s⟩ m' → m'.Ends)
    (hrest : ∀ v s₁, Runs env (.expr e) s (.value v) s₁ → ¬v.isError → Ends ⟨env, ψ, s⟩) :
    Ends ⟨env, ψ, s⟩ := by
  obtain ⟨v, s₁, hrun⟩ := (h _ (.head hheads)).exists_value nofun
  by_cases herror : v.isError
  · exact ⟨_, _, .error hheads hrun herror⟩
  · exact hrest v s₁ hrun herror

theorem ends_expr {e : Expr Unit} {s : Store}
    (h : ∀ m', Enters ⟨env, .expr e, s⟩ m' → m'.Ends) : Ends ⟨env, .expr e, s⟩ := by
  cases e with
  | ident id =>
      cases hname : s.get? env id.name with
      | none => exact ⟨_, _, .unbound hname⟩
      | some v => exact ⟨_, _, .ident hname⟩
  | int t n => exact ⟨_, _, .int⟩
  | bool t b => exact ⟨_, _, .bool⟩
  | function t ids b => exact ⟨_, _, .function⟩
  | unary t op e =>
      refine ends_of_head .operand h fun v s₁ hv herror => ?_
      obtain ⟨w, s₂, hop⟩ := exists_evalUnary
      exact ⟨_, _, .unary hv herror hop⟩
  | binary t op l r =>
      refine ends_of_head .left h fun v s₁ hv herror => ?_
      obtain ⟨w, s₂, hw⟩ := (h _ (.right hv herror)).exists_value nofun
      by_cases hwerror : w.isError
      · exact ⟨_, _, .rightError hv herror hw hwerror⟩
      · obtain ⟨u, s₃, hop⟩ := exists_evalBinary
        exact ⟨_, _, .binary hv herror hw hwerror hop⟩
  | cond t c b a =>
      refine ends_of_head .condition h fun v s₁ hv herror => ?_
      by_cases htruthy : v.isTruthy
      · obtain ⟨w, s₂, hw⟩ := (h _ (.then_ hv herror htruthy)).exists_value nofun
        exact ⟨_, _, .then_ hv herror htruthy hw⟩
      · cases a with
        | none => exact ⟨_, _, .noElse hv herror htruthy⟩
        | some a =>
            obtain ⟨w, s₂, hw⟩ := (h _ (.else_ hv herror htruthy)).exists_value nofun
            exact ⟨_, _, .else_ hv herror htruthy hw⟩
  | call t f es =>
      refine ends_of_head .callee h fun v s₁ hv herror => ?_
      obtain ⟨o, s₂, hes⟩ := h _ (.args hv herror)
      cases o with
      | value w => exact ⟨_, _, .argsError hv herror hes⟩
      | values vs =>
          obtain ⟨w, s₃, hw⟩ := (h _ (.call hv herror hes)).exists_value nofun
          exact ⟨_, _, .call hv herror hes hw⟩

theorem ends_args {es : List (Expr Unit)} {s : Store}
    (h : ∀ m', Enters ⟨env, .args es, s⟩ m' → m'.Ends) : Ends ⟨env, .args es, s⟩ := by
  cases es with
  | nil => exact ⟨_, _, .noArgs⟩
  | cons e es =>
      refine ends_of_head .arg h fun v s₁ hv herror => ?_
      obtain ⟨o, s₂, hes⟩ := h _ (.later hv herror)
      cases o with
      | value w => exact ⟨_, _, .laterError hv herror hes⟩
      | values vs => exact ⟨_, _, .moreArgs hv herror hes⟩

theorem ends_stmt {st : Stmt Unit} {s : Store}
    (h : ∀ m', Enters ⟨env, .stmt st, s⟩ m' → m'.Ends) : Ends ⟨env, .stmt st, s⟩ := by
  cases st with
  | let_ t id e =>
      exact ends_of_head .bound h fun v s₁ hv herror => ⟨_, _, .let_ hv herror⟩
  | return_ t e =>
      exact ends_of_head .returned h fun v s₁ hv herror => ⟨_, _, .return_ hv herror⟩
  | expr t e =>
      obtain ⟨v, s₁, hv⟩ := (h _ .expr).exists_value nofun
      exact ⟨_, _, .expr hv⟩
  | block b =>
      obtain ⟨v, s₁, hv⟩ := (h _ .inner).exists_value nofun
      exact ⟨_, _, .inner hv⟩

/-- An evaluation comes to an end if all its parts do. -/
theorem ends_of_enters {m : Moment} (h : ∀ m', m.Enters m' → m'.Ends) : m.Ends := by
  obtain ⟨env, φ, s⟩ := m
  cases φ with
  | expr e => exact ends_expr h
  | args es => exact ends_args h
  | stmt st => exact ends_stmt h
  | stmts last ss =>
      cases ss with
      | nil => exact ⟨_, _, .done⟩
      | cons st ss =>
          obtain ⟨v, s₁, hv⟩ := (h _ .stmt).exists_value nofun
          by_cases hstops : v.stops
          · exact ⟨_, _, .stop hv hstops⟩
          · obtain ⟨w, s₂, hw⟩ := (h _ (.next hv hstops)).exists_value nofun
            exact ⟨_, _, .next hv hstops hw⟩
  | block b =>
      obtain ⟨t, ss⟩ := b
      obtain ⟨v, s₁, hv⟩ := (h _ .block).exists_value nofun
      exact ⟨_, _, .block hv⟩
  | call f vs =>
      cases f with
      | closure c =>
          by_cases hcount : c.params.length = vs.length
          · obtain ⟨v, s₁, hv⟩ := (h _ (.body hcount)).exists_value nofun
            exact ⟨_, _, .apply hcount hv⟩
          · exact ⟨_, _, .wrongCount hcount⟩
      | _ => exact ⟨_, _, .notAFunction nofun⟩

/-- An evaluation that does not come to an end goes from part to part forever. -/
theorem exists_enters_forever {m : Moment} (h : ¬m.Ends) :
    ∃ f : ℕ → Moment, f 0 = m ∧ ∀ n, (f n).Enters (f (n + 1)) := by
  refine (not_acc_iff_exists_descending_chain (r := fun m' m => Enters m m')).mp ?_
  -- if there were no way on forever, there would be an induction over the parts
  intro hacc
  apply h
  clear h
  induction hacc with
  | intro m _ ih => exact ends_of_enters ih

end Moment

end Monkey
