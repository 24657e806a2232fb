import Monkey.Proofs.Program.Erase
import Monkey.Proofs.Run
import Monkey.Proofs.Run.Tagged

/-!
# Tags do not matter to a run

Values, frames and stores lose their tags node by node, and each step of an evaluation with
tags becomes the step of the evaluation without them (`evaluate_erases`). What a user can see
of a value or of a scope is the same before and after. So two programs that say the same run
alike, whatever their tags are.
-/

namespace Monkey.Tagged

variable {α β γ : Type}

/-! ## Values and stores without tags -/

/-- The function without its tags. -/
def Closure.erase (c : Closure α) : Monkey.Closure :=
  ⟨c.id, c.params.map Ident.name, c.body.erase, c.env⟩

/-- The value without its tags. -/
def Value.erase : Value α → Monkey.Value
  | int id n => .int id n
  | bool b => .bool b
  | null => .null
  | returned id result => .returned id result.erase
  | error id fault => .error id fault
  | closure c => .closure c.erase

/-- The frame without tags in its values. -/
def Frame.erase (f : Frame α) : Monkey.Frame :=
  ⟨f.outer, f.bindings.map (Prod.map id Value.erase)⟩

/-- The store without tags in its values. -/
def Store.erase (s : Store α) : Monkey.Store :=
  ⟨s.frames.map Frame.erase, s.nextObject⟩

namespace Value

variable {v w : Value α}

@[simp] theorem type_erase (v : Value α) : v.erase.type = v.type := by
  cases v <;> rfl

@[simp] theorem isError_erase (v : Value α) : v.erase.isError = v.isError := by
  cases v <;> rfl

@[simp] theorem stops_erase (v : Value α) : v.erase.stops = v.stops := by
  cases v <;> rfl

@[simp] theorem isTruthy_erase (v : Value α) : v.erase.isTruthy = v.isTruthy := by
  cases v <;> rfl

@[simp] theorem unwrap_erase (v : Value α) : v.erase.unwrap = v.unwrap.erase := by
  cases v <;> rfl

@[simp] theorem same_erase (v w : Value α) : v.erase.same w.erase = v.same w := by
  cases v <;> cases w <;> rfl

@[simp] theorem inspect_erase (v : Value α) : v.erase.inspect = v.inspect := by
  induction v with
  | returned id result ih => exact ih
  | closure c =>
      obtain ⟨id, params, ⟨tag, statements⟩, env⟩ := c
      have htext : Stmt.render ∘ Stmt.erase = @Stmt.render α := funext Stmt.render_erase
      simp only [erase, Closure.erase, Value.inspect, Monkey.Value.inspect, Closure.inspect,
        Monkey.Closure.inspect, Block.erase_mk, Block.statements, List.map_map, htext]
  | _ => rfl

@[simp] theorem debug_erase (v : Value α) : v.erase.debug = v.debug := by
  induction v with
  | returned id result ih =>
      exact congrArg (fun text => "ReturnValue(" ++ text ++ ")") ih
  | _ => rfl

end Value

namespace Frame

@[simp] theorem get?_erase (f : Frame α) (name : String) :
    f.erase.get? name = (f.get? name).map Value.erase := by
  obtain ⟨outer, bindings⟩ := f
  simp only [get?, Monkey.Frame.get?, erase]
  induction bindings with
  | nil => rfl
  | cons b bs ih =>
      rw [List.map_cons, List.lookup_cons, List.lookup_cons, ih]
      change (match name == b.1 with | true => _ | false => _) = _
      cases name == b.1 <;> rfl

theorem set_erase (f : Frame α) (name : String) (v : Value α) :
    f.erase.set name v.erase = (f.set name v).erase := by
  simp only [set, Monkey.Frame.set, erase, List.map_cons, List.filter_map]
  rfl

@[simp] theorem names_erase (f : Frame α) : f.erase.names = f.names := by
  simp [names, Monkey.Frame.names, erase, Function.comp_def]

end Frame

namespace Store

variable (s : Store α) (i : FrameId) (name : String)

@[simp] theorem getElem?_erase : s.erase.frames[i]? = s.frames[i]?.map Frame.erase := by
  simp [erase]

@[simp] theorem outer?_erase : s.erase.outer? i = s.outer? i := by
  have houter : s.erase.frames[i]?.bind Monkey.Frame.outer = s.frames[i]?.bind Frame.outer := by
    rw [getElem?_erase]
    cases s.frames[i]? <;> rfl
  unfold outer? Monkey.Store.outer?
  cases hframe : s.frames[i]?.bind Frame.outer with
  | none => simp only [houter, hframe]
  | some o => simp only [houter, hframe]

theorem get?_erase (i : FrameId) : s.erase.get? i name = (s.get? i name).map Value.erase := by
  have hlocal : s.erase.getLocal? i name =
      (s.frames[i]?.bind (·.get? name)).map Value.erase := by
    rw [Monkey.Store.getLocal?, getElem?_erase]
    cases s.frames[i]? with
    | none => rfl
    | some f => exact f.get?_erase name
  rw [get?, Monkey.Store.get?, hlocal, outer?_erase]
  cases s.frames[i]?.bind (·.get? name) with
  | some v => rfl
  | none =>
      cases s.outer? i with
      | none => rfl
      | some o => exact get?_erase o.1
termination_by i
decreasing_by exact o.2

theorem visible_erase (i : FrameId) : s.erase.visible i = s.visible i := by
  have hnames : s.erase.frames[i]?.elim [] Monkey.Frame.names =
      s.frames[i]?.elim [] Frame.names := by
    rw [getElem?_erase]
    cases s.frames[i]? with
    | none => rfl
    | some f => exact f.names_erase
  rw [visible, Monkey.Store.visible, hnames, outer?_erase]
  cases s.outer? i with
  | none => rfl
  | some o => exact congrArg _ (visible_erase o.1)
termination_by i
decreasing_by exact o.2

@[simp] theorem names_erase : s.erase.names i = s.names i := by
  rw [names, Monkey.Store.names, visible_erase]

theorem set_erase (v : Value α) : s.erase.set i name v.erase = (s.set i name v).erase := by
  simp only [erase, set, Monkey.Store.set]
  congr 1
  refine Array.ext_getElem? fun j => ?_
  simp only [Array.getElem?_modify, Array.getElem?_map]
  split
  · cases s.frames[j]? with
    | none => rfl
    | some f => exact congrArg some (f.set_erase name v)
  · rfl

end Store

/-! ## Steps of an evaluation -/

/-- The computation without tags does what the one with tags does, and answers what this one
answers, without tags as well. -/
def Erases (erase : β → γ) (x : Eval α β) (y : Monkey.Eval γ) : Prop :=
  ∀ s : Store α, y s.erase = (x s).map (Prod.map erase Store.erase)

/-- The computation of a value without tags does what the one with tags does. -/
abbrev ErasesValue (x : Eval α (Value α)) (y : Monkey.Eval Monkey.Value) : Prop :=
  Erases Value.erase x y

namespace Erases

variable {δ ε : Type} {f : β → γ} {g : δ → ε}

theorem pure (b : β) : Erases f (Pure.pure b : Eval α β) (Pure.pure (f b)) :=
  fun _ => rfl

theorem bind {x : Eval α β} {y : Monkey.Eval γ} {k : β → Eval α δ} {l : γ → Monkey.Eval ε}
    (hx : Erases f x y) (hk : ∀ b, Erases g (k b) (l (f b))) : Erases g (x >>= k) (y >>= l) := by
  intro s
  change (y s.erase).bind (fun r => l r.1 r.2) = ((x s).bind fun r => k r.1 r.2).map _
  rw [hx s]
  cases x s with
  | none => rfl
  | some r => exact hk r.1 r.2

theorem freshId : Erases id (Eval.freshId : Eval α ObjectId) Monkey.Eval.freshId :=
  fun _ => rfl

theorem newInt (n : Int64) : ErasesValue (Eval.newInt n : Eval α (Value α)) (.newInt n) :=
  freshId.bind fun id => pure (Value.int id n)

theorem newError (fault : Fault) :
    ErasesValue (Eval.newError fault : Eval α (Value α)) (.newError fault) :=
  freshId.bind fun id => pure (Value.error id fault)

theorem newReturned (v : Value α) : ErasesValue (Eval.newReturned v) (.newReturned v.erase) :=
  freshId.bind fun id => pure (Value.returned id v)

theorem enclose (outer : FrameId) :
    Erases id (Eval.enclose outer : Eval α FrameId) (.enclose outer) := by
  intro s
  simp [Eval.enclose, Monkey.Eval.enclose, Monkey.Store.newFrame, Store.erase, Frame.erase,
    Monkey.Frame.empty]

theorem bindName (env : FrameId) (name : String) (v : Value α) :
    Erases id (Eval.bindName env name v) (.bindName env name v.erase) :=
  fun s => congrArg (fun t => some ((), t)) (s.set_erase env name v)

theorem bindAll (env : FrameId) (ids : List (Ident α)) (vs : List (Value α)) :
    Erases id (Eval.bindAll env (ids.zip vs))
      (.bindAll env ((ids.map Ident.name).zip (vs.map Value.erase))) := by
  induction ids generalizing vs with
  | nil => exact pure ()
  | cons id ids ih =>
      cases vs with
      | nil => exact pure ()
      | cons v vs => exact (bindName env id.name v).bind fun _ => ih vs

theorem getName (env : FrameId) (name : String) :
    ErasesValue (Eval.getName env name : Eval α (Value α)) (.getName env name) := by
  intro s
  rw [Monkey.Eval.getName, Eval.getName, s.get?_erase name env]
  cases s.get? env name with
  | none => exact newError _ s
  | some v => rfl

theorem unlessError {x : Eval α (Value α)} {y : Monkey.Eval Monkey.Value}
    {k : Value α → Eval α (Value α)} {l : Monkey.Value → Monkey.Eval Monkey.Value}
    (hx : ErasesValue x y) (hk : ∀ v, ErasesValue (k v) (l v.erase)) :
    ErasesValue (x.unlessError k) (y.unlessError l) := by
  refine hx.bind fun v => ?_
  rw [Value.isError_erase]
  split
  · exact pure v
  · exact hk v

end Erases

/-! ## Operators -/

theorem evalUnary_erases (op : UnaryOp) (v : Value α) :
    ErasesValue (evalUnary op v) (Monkey.evalUnary op v.erase) := by
  cases op with
  | not =>
      rw [Monkey.evalUnary, Value.isTruthy_erase]
      exact .pure (Value.bool !v.isTruthy)
  | negate =>
      cases v with
      | int id n => exact .newInt (-n)
      | _ => exact .newError _

theorem evalInts_erases (op : BinaryOp) (m n : Int64) :
    ErasesValue (evalInts op m n : Eval α (Value α)) (Monkey.evalInts op m n) := by
  cases op with
  | add | subtract | multiply => exact .newInt _
  | divide =>
      rw [evalInts, Monkey.evalInts]
      split
      · exact .newError .divisionByZero
      · exact .newInt (m / n)
  | less | greater | equal | notEqual => exact .pure (Value.bool _)

/-- Values that are not both integers are compared, or do not go with the operator. -/
theorem evalBinary_of_not_integers {op : BinaryOp} {v w : Value α}
    (h : ¬(v.type = .integer ∧ w.type = .integer)) :
    evalBinary op v w =
      match op with
      | .equal => pure (.bool (v.same w))
      | .notEqual => pure (.bool !v.same w)
      | op =>
          if v.type = w.type then Eval.newError (.unknownOperator op v.type)
          else Eval.newError (.typeMismatch op v.type w.type) := by
  unfold evalBinary
  split
  · exact absurd ⟨rfl, rfl⟩ h
  · rfl

theorem evalBinary_erases (op : BinaryOp) (v w : Value α) :
    ErasesValue (evalBinary op v w) (Monkey.evalBinary op v.erase w.erase) := by
  by_cases hints : v.type = .integer ∧ w.type = .integer
  · obtain ⟨hv, hw⟩ := hints
    cases v with
    | int => cases w with
      | int => exact evalInts_erases op _ _
      | _ => cases hw
    | _ => cases hv
  · have herased : ¬(v.erase.type = .integer ∧ w.erase.type = .integer) := by simpa using hints
    rw [evalBinary_of_not_integers hints, Monkey.evalBinary_of_not_integers herased,
      Value.same_erase, Value.type_erase, Value.type_erase]
    cases op with
    | equal | notEqual => exact .pure (Value.bool _)
    | _ =>
        dsimp only
        split <;> exact .newError _

/-! ## Expressions and statements -/

/-- Values of arguments, or the first error among them, without tags. -/
def eraseArgs : Except (Value α) (List (Value α)) → Except Monkey.Value (List Monkey.Value)
  | .error e => .error e.erase
  | .ok vs => .ok (vs.map Value.erase)

/-- Applied to values without tags, the second function does what the first one does. -/
def ApplyErases (apply : Value α → List (Value α) → Eval α (Value α))
    (apply' : Monkey.Value → List Monkey.Value → Monkey.Eval Monkey.Value) : Prop :=
  ∀ f vs, ErasesValue (apply f vs) (apply' f.erase (vs.map Value.erase))

variable {apply : Value α → List (Value α) → Eval α (Value α)}
  {apply' : Monkey.Value → List Monkey.Value → Monkey.Eval Monkey.Value}

mutual

theorem evalExpr_erases (h : ApplyErases apply apply') (env : FrameId) : (e : Expr α) →
    ErasesValue (evalExpr apply env e) (Monkey.evalExpr apply' env e.erase)
  | .ident id => by
      rw [Expr.erase_ident, evalExpr, Monkey.evalExpr]
      exact .getName env id.name
  | .int tag n => by
      rw [Expr.erase_int, evalExpr, Monkey.evalExpr]
      exact .newInt n
  | .bool tag b => by
      rw [Expr.erase_bool, evalExpr, Monkey.evalExpr]
      exact .pure (Value.bool b)
  | .unary tag op operand => by
      rw [Expr.erase_unary, evalExpr, Monkey.evalExpr]
      exact .unlessError (evalExpr_erases h env operand) fun v => evalUnary_erases op v
  | .binary tag op left right => by
      rw [Expr.erase_binary, evalExpr, Monkey.evalExpr]
      refine .unlessError (evalExpr_erases h env left) fun v => ?_
      exact .unlessError (evalExpr_erases h env right) fun w => evalBinary_erases op v w
  | .cond tag condition consequence none => by
      rw [Expr.erase_cond, Option.map_none, evalExpr, Monkey.evalExpr]
      refine .unlessError (evalExpr_erases h env condition) fun v => ?_
      rw [Value.isTruthy_erase]
      split
      · exact evalBlock_erases h env consequence
      · exact .pure Value.null
  | .cond tag condition consequence (some alternative) => by
      rw [Expr.erase_cond, Option.map_some, evalExpr, Monkey.evalExpr]
      refine .unlessError (evalExpr_erases h env condition) fun v => ?_
      rw [Value.isTruthy_erase]
      split
      · exact evalBlock_erases h env consequence
      · exact evalBlock_erases h env alternative
  | .function tag params body => by
      rw [Expr.erase_function, evalExpr, Monkey.evalExpr, List.map_map]
      exact Erases.freshId.bind fun id => .pure (Value.closure ⟨id, params, body, env⟩)
  | .call tag callee args => by
      rw [Expr.erase_call, evalExpr, Monkey.evalExpr]
      refine .unlessError (evalExpr_erases h env callee) fun f => ?_
      refine (evalArgs_erases h env args).bind fun r => ?_
      cases r with
      | error e => exact .pure e
      | ok vs => exact h f vs

theorem evalArgs_erases (h : ApplyErases apply apply') (env : FrameId) : (es : List (Expr α)) →
    Erases eraseArgs (evalArgs apply env es) (Monkey.evalArgs apply' env (es.map Expr.erase))
  | [] => by
      rw [List.map_nil, evalArgs, Monkey.evalArgs]
      exact .pure (Except.ok [])
  | e :: es => by
      rw [List.map_cons, evalArgs, Monkey.evalArgs]
      refine (evalExpr_erases h env e).bind fun v => ?_
      rw [Value.isError_erase]
      split
      · exact .pure (Except.error v)
      · refine (evalArgs_erases h env es).bind fun r => ?_
        cases r with
        | error e => exact .pure (Except.error e)
        | ok vs => exact .pure (Except.ok (v :: vs))

theorem evalStmt_erases (h : ApplyErases apply apply') (env : FrameId) : (s : Stmt α) →
    ErasesValue (evalStmt apply env s) (Monkey.evalStmt apply' env s.erase)
  | .let_ tag id value => by
      rw [Stmt.erase_let, evalStmt, Monkey.evalStmt]
      refine .unlessError (evalExpr_erases h env value) fun v => ?_
      exact (Erases.bindName env id.name v).bind fun _ => .pure Value.null
  | .return_ tag value => by
      rw [Stmt.erase_return, evalStmt, Monkey.evalStmt]
      exact .unlessError (evalExpr_erases h env value) fun v => .newReturned v
  | .expr tag value => by
      rw [Stmt.erase_expr, evalStmt, Monkey.evalStmt]
      exact evalExpr_erases h env value
  | .block body => by
      rw [Stmt.erase_block, evalStmt, Monkey.evalStmt]
      exact evalBlock_erases h env body

theorem evalStmts_erases (h : ApplyErases apply apply') (env : FrameId) :
    (last : Value α) → (ss : List (Stmt α)) →
    ErasesValue (evalStmts apply env last ss)
      (Monkey.evalStmts apply' env last.erase (ss.map Stmt.erase))
  | last, [] => by
      rw [List.map_nil, evalStmts, Monkey.evalStmts]
      exact .pure last
  | last, s :: ss => by
      rw [List.map_cons, evalStmts, Monkey.evalStmts]
      refine (evalStmt_erases h env s).bind fun v => ?_
      rw [Value.stops_erase]
      split
      · exact .pure v
      · exact evalStmts_erases h env v ss

theorem evalBlock_erases (h : ApplyErases apply apply') (env : FrameId) : (b : Block α) →
    ErasesValue (evalBlock apply env b) (Monkey.evalBlock apply' env b.erase)
  | .mk tag statements => by
      rw [Block.erase_mk, evalBlock, Monkey.evalBlock]
      exact evalStmts_erases h env .null statements

end

/-! ## Calls and programs -/

theorem apply_erases (depth : Nat) :
    ApplyErases (Tagged.apply depth : Value α → _) (Monkey.apply depth) := by
  induction depth with
  | zero => exact fun _ _ _ => rfl
  | succ depth ih =>
      intro f vs
      cases f with
      | closure c =>
          rw [Tagged.apply, Value.erase, Monkey.apply]
          simp only [Closure.erase, List.length_map]
          split
          · refine (Erases.enclose c.env).bind fun env => ?_
            refine (Erases.bindAll env c.params vs).bind fun _ => ?_
            refine (evalBlock_erases ih env c.body).bind fun v => ?_
            rw [Value.unwrap_erase]
            exact .pure v.unwrap
          · exact .newError _
      | _ => exact .newError _

/-- Running a program with its tags and leaving them out of what it comes to is running the
program without its tags. -/
theorem evaluate_erases (depth : Nat) (p : Program α) (env : FrameId) :
    ErasesValue (evaluate depth p env) (Monkey.evaluate depth p.erase env) := by
  rw [evaluate, Monkey.evaluate, Program.statements_erase]
  refine (evalStmts_erases (apply_erases depth) env .null p.statements).bind fun v => ?_
  rw [Value.unwrap_erase]
  exact .pure v.unwrap

/-- A user sees the same: in the values, and in the frames of the stores. -/
structure SeenAlike (a : Value α × Store α) (b : Value β × Store β) : Prop where
  type : a.1.type = b.1.type
  inspect : a.1.inspect = b.1.inspect
  debug : a.1.debug = b.1.debug
  names : ∀ i, a.2.names i = b.2.names i
  store : a.2.erase = b.2.erase

theorem SeenAlike.of_erase {a : Value α × Store α} {b : Value β × Store β}
    (h : Prod.map Value.erase Store.erase a = Prod.map Value.erase Store.erase b) :
    SeenAlike a b := by
  obtain ⟨v, s⟩ := a
  obtain ⟨w, t⟩ := b
  have hvalue : v.erase = w.erase := congrArg Prod.fst h
  have hstore : s.erase = t.erase := congrArg Prod.snd h
  constructor
  · rw [← v.type_erase, hvalue, w.type_erase]
  · rw [← v.inspect_erase, hvalue, w.inspect_erase]
  · rw [← v.debug_erase, hvalue, w.debug_erase]
  · intro i
    rw [← s.names_erase, hstore, t.names_erase]
  · exact hstore

/-- Two programs that say the same, in stores with the same content, come to an end both or
not at all, and to the same end. -/
theorem seenAlike_of_erase {p : Program α} {q : Program β} {s : Store α} {t : Store β}
    (hp : p.erase = q.erase) (hs : s.erase = t.erase) (depth : Nat) (env : FrameId) :
    Option.Rel SeenAlike (evaluate depth p env s) (evaluate depth q env t) := by
  have herased : (evaluate depth p env s).map (Prod.map Value.erase Store.erase) =
      (evaluate depth q env t).map (Prod.map Value.erase Store.erase) := by
    rw [← evaluate_erases depth p env s, ← evaluate_erases depth q env t, hp, hs]
  cases hx : evaluate depth p env s with
  | none =>
      cases hy : evaluate depth q env t with
      | none => exact .none
      | some b =>
          rw [hx, hy] at herased
          cases herased
  | some a =>
      cases hy : evaluate depth q env t with
      | none =>
          rw [hx, hy] at herased
          cases herased
      | some b =>
          rw [hx, hy] at herased
          exact .some (.of_erase (Option.some.inj herased))

end Monkey.Tagged
