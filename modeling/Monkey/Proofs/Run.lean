import Monkey.Eval
import Monkey.Proofs.Store.Region

/-!
# Runs

A run is an evaluation that comes to an end, said without a bound on how deeply calls
are nested. The rules follow the program: there is one for each way in which what is
evaluated first decides what is evaluated next. All kinds of tasks are in one relation,
so that a property of every run is proved by one induction.

That runs are what evaluation does is `Run.Adequacy`.
-/

namespace Monkey

/-! ## Operators -/

/-- A value without parts: nothing that was made before can be reached through it. -/
def Value.IsScalar : Value → Prop
  | returned _ _ | closure _ => False
  | _ => True

/-- The answer is a value without parts, and no frame was changed for it. -/
def Eval.GivesScalar (x : Eval Value) : Prop :=
  ∀ s v s', x s = some (v, s') → v.IsScalar ∧ s'.frames = s.frames

theorem givesScalar_pure {v : Value} (h : v.IsScalar) : Eval.GivesScalar (pure v) := by
  intro s w s' hw
  cases hw
  exact ⟨h, rfl⟩

theorem givesScalar_newInt {n : Int64} : (Eval.newInt n).GivesScalar := by
  intro s w s' hw
  cases hw
  exact ⟨trivial, rfl⟩

theorem givesScalar_newError {fault : Fault} : (Eval.newError fault).GivesScalar := by
  intro s w s' hw
  cases hw
  exact ⟨trivial, rfl⟩

theorem givesScalar_evalUnary {op : UnaryOp} {v : Value} : (evalUnary op v).GivesScalar := by
  cases op with
  | not => exact givesScalar_pure trivial
  | negate =>
      cases v with
      | int id n => exact givesScalar_newInt
      | _ => exact givesScalar_newError

theorem givesScalar_evalInts {op : BinaryOp} {m n : Int64} : (evalInts op m n).GivesScalar := by
  cases op with
  | add | subtract | multiply => exact givesScalar_newInt
  | divide =>
      rw [evalInts]
      split
      · exact givesScalar_newError
      · exact givesScalar_newInt
  | less | greater | equal | notEqual => exact givesScalar_pure trivial

/-- Values that are not both integers are compared, or do not go with the operator. -/
theorem evalBinary_of_not_integers {op : BinaryOp} {v w : Value}
    (h : ¬(v.type = .integer ∧ w.type = .integer)) :
    evalBinary op v w =
      match op with
      | .equal => pure (.bool (v.same w))
      | .notEqual => pure (.bool !v.same w)
      | op =>
          if v.type = w.type then Eval.newError (.unknownOperator op v.type)
          else Eval.newError (.typeMismatch op v.type w.type) := by
  unfold evalBinary
  split
  · exact absurd ⟨rfl, rfl⟩ h
  · rfl

theorem givesScalar_evalBinary {op : BinaryOp} {l r : Value} :
    (evalBinary op l r).GivesScalar := by
  unfold evalBinary
  split
  · exact givesScalar_evalInts
  split
  · exact givesScalar_pure trivial
  · exact givesScalar_pure trivial
  split
  · exact givesScalar_newError
  · exact givesScalar_newError

/-! ## Tasks -/

/-- What can be evaluated in a frame. -/
inductive Task where
  | expr (e : Expr Unit)
  | args (es : List (Expr Unit))
  | stmt (s : Stmt Unit)
  /-- Statements behind one that resulted in `last`. -/
  | stmts (last : Value) (ss : List (Stmt Unit))
  | block (b : Block Unit)
  /-- The application of a value to arguments. -/
  | call (f : Value) (vs : List Value)

/-- What a task results in: arguments that are no error in as many values, anything else
in one value. -/
inductive Outcome where
  | value (v : Value)
  | values (vs : List Value)

/-- The first of the tasks is what the second one evaluates first, and if it results in
an error, so does the second one. -/
inductive Task.Heads : Task → Task → Prop where
  | operand {t op e} : Heads (.expr e) (.expr (.unary t op e))
  | left {t op l r} : Heads (.expr l) (.expr (.binary t op l r))
  | condition {t c b a} : Heads (.expr c) (.expr (.cond t c b a))
  | callee {t f es} : Heads (.expr f) (.expr (.call t f es))
  | arg {e es} : Heads (.expr e) (.args (e :: es))
  | bound {t id e} : Heads (.expr e) (.stmt (.let_ t id e))
  | returned {t e} : Heads (.expr e) (.stmt (.return_ t e))

/-- In the frame, the task starts with the one store and ends with the outcome and the
other store. -/
inductive Runs : FrameId → Task → Store → Outcome → Store → Prop where
  | error {env φ ψ s v s'} : φ.Heads ψ → Runs env φ s (.value v) s' → v.isError →
      Runs env ψ s (.value v) s'
  | ident {env id s v} : s.get? env id.name = some v →
      Runs env (.expr (.ident id)) s (.value v) s
  | unbound {env id s} : s.get? env id.name = none →
      Runs env (.expr (.ident id)) s
        (.value (.error s.nextObject (.unboundName id.name))) s.spend
  | int {env t n s} : Runs env (.expr (.int t n)) s (.value (.int s.nextObject n)) s.spend
  | bool {env t b s} : Runs env (.expr (.bool t b)) s (.value (.bool b)) s
  | function {env t ids b s} :
      Runs env (.expr (.function t ids b)) s
        (.value (.closure ⟨s.nextObject, ids.map Ident.name, b, env⟩)) s.spend
  | unary {env t op e s v s₁ w s₂} : Runs env (.expr e) s (.value v) s₁ → ¬v.isError →
      evalUnary op v s₁ = some (w, s₂) → Runs env (.expr (.unary t op e)) s (.value w) s₂
  | rightError {env t op l r s v s₁ w s₂} : Runs env (.expr l) s (.value v) s₁ →
      ¬v.isError → Runs env (.expr r) s₁ (.value w) s₂ → w.isError →
      Runs env (.expr (.binary t op l r)) s (.value w) s₂
  | binary {env t op l r s v s₁ w s₂ u s₃} : Runs env (.expr l) s (.value v) s₁ →
      ¬v.isError → Runs env (.expr r) s₁ (.value w) s₂ → ¬w.isError →
      evalBinary op v w s₂ = some (u, s₃) →
      Runs env (.expr (.binary t op l r)) s (.value u) s₃
  | then_ {env t c b a s v s₁ w s₂} : Runs env (.expr c) s (.value v) s₁ → ¬v.isError →
      v.isTruthy → Runs env (.block b) s₁ (.value w) s₂ →
      Runs env (.expr (.cond t c b a)) s (.value w) s₂
  | else_ {env t c b a s v s₁ w s₂} : Runs env (.expr c) s (.value v) s₁ → ¬v.isError →
      ¬v.isTruthy → Runs env (.block a) s₁ (.value w) s₂ →
      Runs env (.expr (.cond t c b (some a))) s (.value w) s₂
  | noElse {env t c b s v s₁} : Runs env (.expr c) s (.value v) s₁ → ¬v.isError →
      ¬v.isTruthy → Runs env (.expr (.cond t c b none)) s (.value .null) s₁
  | argsError {env t f es s v s₁ w s₂} : Runs env (.expr f) s (.value v) s₁ → ¬v.isError →
      Runs env (.args es) s₁ (.value w) s₂ → Runs env (.expr (.call t f es)) s (.value w) s₂
  | call {env t f es s v s₁ vs s₂ w s₃} : Runs env (.expr f) s (.value v) s₁ → ¬v.isError →
      Runs env (.args es) s₁ (.values vs) s₂ → Runs env (.call v vs) s₂ (.value w) s₃ →
      Runs env (.expr (.call t f es)) s (.value w) s₃
  | noArgs {env s} : Runs env (.args []) s (.values []) s
  | laterError {env e es s v s₁ w s₂} : Runs env (.expr e) s (.value v) s₁ → ¬v.isError →
      Runs env (.args es) s₁ (.value w) s₂ → Runs env (.args (e :: es)) s (.value w) s₂
  | moreArgs {env e es s v s₁ vs s₂} : Runs env (.expr e) s (.value v) s₁ → ¬v.isError →
      Runs env (.args es) s₁ (.values vs) s₂ →
      Runs env (.args (e :: es)) s (.values (v :: vs)) s₂
  | let_ {env t id e s v s₁} : Runs env (.expr e) s (.value v) s₁ → ¬v.isError →
      Runs env (.stmt (.let_ t id e)) s (.value .null) (s₁.set env id.name v)
  | return_ {env t e s v s₁} : Runs env (.expr e) s (.value v) s₁ → ¬v.isError →
      Runs env (.stmt (.return_ t e)) s (.value (.returned s₁.nextObject v)) s₁.spend
  | expr {env t e s v s₁} : Runs env (.expr e) s (.value v) s₁ →
      Runs env (.stmt (.expr t e)) s (.value v) s₁
  | inner {env b s v s₁} : Runs env (.block b) s (.value v) s₁ →
      Runs env (.stmt (.block b)) s (.value v) s₁
  | done {env last s} : Runs env (.stmts last []) s (.value last) s
  | stop {env last st ss s v s₁} : Runs env (.stmt st) s (.value v) s₁ → v.stops →
      Runs env (.stmts last (st :: ss)) s (.value v) s₁
  | next {env last st ss s v s₁ w s₂} : Runs env (.stmt st) s (.value v) s₁ → ¬v.stops →
      Runs env (.stmts v ss) s₁ (.value w) s₂ →
      Runs env (.stmts last (st :: ss)) s (.value w) s₂
  | block {env t ss s v s₁} : Runs env (.stmts .null ss) s (.value v) s₁ →
      Runs env (.block (.mk t ss)) s (.value v) s₁
  | apply {env c vs s v s₁} : c.params.length = vs.length →
      Runs (s.newFrame (some c.env)).1 (.block c.body)
        ((s.newFrame (some c.env)).2.bindAll (s.newFrame (some c.env)).1 (c.params.zip vs))
        (.value v) s₁ →
      Runs env (.call (.closure c) vs) s (.value v.unwrap) s₁
  | wrongCount {env c vs s} : c.params.length ≠ vs.length →
      Runs env (.call (.closure c) vs) s
        (.value (.error s.nextObject (.wrongArgumentCount c.params.length vs.length))) s.spend
  | notAFunction {env f vs s} : f.type ≠ .function →
      Runs env (.call f vs) s (.value (.error s.nextObject (.notAFunction f.type))) s.spend

end Monkey
