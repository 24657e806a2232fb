import Monkey.Proofs.Run.Adequacy
import Monkey.Proofs.Store.Pairing

/-!
# Evaluations side by side

Code and its counterpart are evaluated in frames that correspond. Either both evaluations
come to an end or none does, with calls nested up to any depth; what they come to
corresponds, and so do the stores, by a pairing that has grown (`parallel_evalExpr`,
`parallelApply_apply`).
-/

namespace Monkey

open Eval Pairing

variable {α β γ δ : Type} {p q : String} {w w' : Pairing}

/-- In stores between which the pairing holds, or one that it has grown to, both
computations have an answer or none has, and by then the pairing has grown to one that
relates the answers. -/
def Eval.Parallel (p q : String) (w : Pairing) (R : Pairing → α → β → Prop) (x : Eval α)
    (y : Eval β) : Prop :=
  ∀ w' s t, w.Grows w' → w'.Holds p q s t →
    Option.Rel (fun a b => ∃ w'', w'.Grows w'' ∧ w''.Holds p q a.2 b.2 ∧ R w'' a.1 b.1)
      (x s) (y t)

/-! ## Steps -/

namespace Eval.Parallel

variable {R : Pairing → α → β → Prop} {Q : Pairing → γ → δ → Prop} {x : Eval α} {y : Eval β}

theorem pure {a : α} {b : β} (h : ∀ w', w.Grows w' → R w' a b) :
    Parallel p q w R (pure a) (pure b) :=
  fun w' _ _ hw hst => .some ⟨w', .refl, hst, h w' hw⟩

theorem bind {f : α → Eval γ} {g : β → Eval δ} (hx : Parallel p q w R x y)
    (hf : ∀ w' a b, w.Grows w' → R w' a b → Parallel p q w' Q (f a) (g b)) :
    Parallel p q w Q (x >>= f) (y >>= g) := by
  intro w' s t hw hst
  change Option.Rel _ ((x s).bind fun r => f r.1 r.2) ((y t).bind fun r => g r.1 r.2)
  refine rel_bind (hx w' s t hw hst) ?_
  rintro ⟨a, s₁⟩ ⟨b, t₁⟩ ⟨w₁, hw₁, hst₁, hab⟩
  refine rel_imp ?_ (hf w₁ a b (hw.trans hw₁) hab w₁ s₁ t₁ .refl hst₁)
  rintro c d ⟨w₂, hw₂, h⟩
  exact ⟨w₂, hw₁.trans hw₂, h⟩

end Eval.Parallel

variable {v v' u u' : Value} {side : Side} {i j : FrameId}

theorem parallel_value (h : w.Values p q v u) :
    Parallel p q w (Values p q) (pure v) (pure u) :=
  .pure fun _ hw => hw.values h

theorem parallel_freshId : Parallel p q w (fun w i j => w.object i j) freshId freshId :=
  fun _ _ _ _ hst => .some ⟨_, .addObject hst.objects, hst.addObject, Matching.add_self⟩

theorem parallel_newInt {n : Int64} :
    Parallel p q w (Values p q) (newInt n) (newInt n) :=
  parallel_freshId.bind fun _ _ _ _ h => parallel_value (.int h)

theorem parallel_newError {fault : Fault} :
    Parallel p q w (Values p q) (newError fault) (newError fault) :=
  parallel_freshId.bind fun _ _ _ _ h => parallel_value (.error h)

theorem parallel_newReturned (h : w.Values p q v u) :
    Parallel p q w (Values p q) (newReturned v) (newReturned u) :=
  parallel_freshId.bind fun _ _ _ hw hobject => parallel_value (.returned hobject (hw.values h))

theorem parallel_unlessError {x y : Eval Value} {f g : Value → Eval Value}
    (hx : Parallel p q w (Values p q) x y)
    (hf : ∀ w' v u, w.Grows w' → w'.Values p q v u →
      Parallel p q w' (Values p q) (f v) (g u)) :
    Parallel p q w (Values p q) (x.unlessError f) (y.unlessError g) := by
  refine hx.bind fun w' v u hw h => ?_
  rw [h.isError_eq]
  split
  · exact parallel_value h
  · exact hf w' v u hw h

theorem parallel_getName {m : String} (hij : w.Frames side i j) (hm : side.Mentions q m) :
    Parallel p q w (Values p q) (getName i m) (getName j (side.rename p q m)) := by
  intro w' s t hw hst
  have hij' : w'.Frames side i j := hw.frames side i j hij
  unfold getName
  match hs : s.get? i m, t.get? j _, hst.get? hij' hm with
  | _, _, .some hvu => exact .some ⟨w', .refl, hst, hvu⟩
  | _, _, .none =>
      have hname : side.rename p q m = m := by
        cases side with
        | outside => rfl
        | inside =>
            refine Side.rename_of_ne fun heq => ?_
            have hsome := hst.isSome_get? hij'
            rw [← heq, hs] at hsome
            cases hsome
      rw [hname]
      exact parallel_newError w' s t .refl hst

theorem parallel_bindName {m : String} (hij : w.Frames side i j) (hm : side.Mentions q m)
    (h : w.Values p q v u) :
    Parallel p q w (fun _ _ _ => True) (bindName i m v) (bindName j (side.rename p q m) u) :=
  fun w' _ _ hw hst =>
    .some ⟨w', .refl, hst.set (hw.frames side i j hij) hm (hw.values h), trivial⟩

/-! ## Operators -/

theorem parallel_evalUnary {op : UnaryOp} (h : w.Values p q v u) :
    Parallel p q w (Values p q) (evalUnary op v) (evalUnary op u) := by
  cases op with
  | not =>
      rw [evalUnary, evalUnary, h.isTruthy_eq]
      exact parallel_value .bool
  | negate =>
      cases h with
      | int => exact parallel_newInt
      | _ => exact parallel_newError

theorem parallel_evalInts {op : BinaryOp} {m n : Int64} :
    Parallel p q w (Values p q) (evalInts op m n) (evalInts op m n) := by
  cases op with
  | divide =>
      rw [evalInts]
      split
      · exact parallel_newError
      · exact parallel_newInt
  | add | subtract | multiply => exact parallel_newInt
  | less | greater | equal | notEqual => exact parallel_value .bool

theorem parallel_evalBinary {op : BinaryOp} (h : w.Values p q v u)
    (h' : w.Values p q v' u') :
    Parallel p q w (Values p q) (evalBinary op v v') (evalBinary op u u') := by
  by_cases hints : v.type = .integer ∧ v'.type = .integer
  · obtain ⟨hv, hv'⟩ := hints
    cases h with
    | int => cases h' with
      | int => exact parallel_evalInts
      | _ => cases hv'
    | _ => cases hv
  · rw [evalBinary_of_not_integers hints, h.type_eq, h'.type_eq,
      h.same_eq w.object.biUnique h']
    rw [h.type_eq, h'.type_eq] at hints
    rw [evalBinary_of_not_integers hints]
    cases op with
    | equal | notEqual => exact parallel_value .bool
    | _ =>
        dsimp only
        split <;> exact parallel_newError

/-! ## Expressions and statements -/

/-- Applied to values that correspond, the two functions do the same. -/
def ParallelApply (p q : String) (ap ap' : Value → List Value → Eval Value) : Prop :=
  ∀ w v u vs us, w.Values p q v u → List.Forall₂ (w.Values p q) vs us →
    Parallel p q w (Values p q) (ap v vs) (ap' u us)

/-- The values of arguments correspond, or the errors among them. -/
inductive Pairing.Args (p q : String) (w : Pairing) :
    Except Value (List Value) → Except Value (List Value) → Prop
  | error {v u : Value} : w.Values p q v u → Pairing.Args p q w (.error v) (.error u)
  | ok {vs us : List Value} : List.Forall₂ (w.Values p q) vs us →
      Pairing.Args p q w (.ok vs) (.ok us)

variable {ap ap' : Value → List Value → Eval Value}

mutual

theorem parallel_evalExpr {w : Pairing} (hap : ParallelApply p q ap ap')
    (hij : w.Frames side i j) {e e' : Expr Unit} (he : e.Counterpart p q side e') :
    Parallel p q w (Values p q) (evalExpr ap i e) (evalExpr ap' j e') := by
  match e with
  | .ident id =>
      obtain ⟨hm, rfl⟩ := he.ident
      exact parallel_getName hij hm
  | .int t n =>
      obtain rfl := he.int
      exact parallel_newInt
  | .bool t b =>
      obtain rfl := he.bool
      exact parallel_value .bool
  | .unary t op e =>
      obtain ⟨o, rfl, ho⟩ := he.unary
      rw [evalExpr, evalExpr]
      refine parallel_unlessError (parallel_evalExpr hap hij ho) fun w' v u hw h => ?_
      exact parallel_evalUnary h
  | .binary t op l r =>
      obtain ⟨l', r', rfl, hl, hr⟩ := he.binary
      rw [evalExpr, evalExpr]
      refine parallel_unlessError (parallel_evalExpr hap hij hl) fun w₁ v u hw₁ h => ?_
      have hij₁ : w₁.Frames side i j := hw₁.frames side i j hij
      refine parallel_unlessError (parallel_evalExpr hap hij₁ hr) fun w₂ v' u' hw₂ h' => ?_
      exact parallel_evalBinary (hw₂.values h) h'
  | .cond t c b none =>
      obtain ⟨c', b', rfl, hc, hb⟩ := he.cond
      rw [evalExpr, evalExpr]
      refine parallel_unlessError (parallel_evalExpr hap hij hc) fun w' v u hw h => ?_
      rw [h.isTruthy_eq]
      split
      · exact parallel_evalBlock hap (hw.frames side i j hij) hb
      · exact parallel_value .null
  | .cond t c b (some a) =>
      obtain ⟨c', b', a', rfl, hc, hb, ha⟩ := he.condElse
      rw [evalExpr, evalExpr]
      refine parallel_unlessError (parallel_evalExpr hap hij hc) fun w' v u hw h => ?_
      rw [h.isTruthy_eq]
      split
      · exact parallel_evalBlock hap (hw.frames side i j hij) hb
      · exact parallel_evalBlock hap (hw.frames side i j hij) ha
  | .function t ids b =>
      obtain ⟨ids', b', inner, rfl, hopens, hfunction⟩ := he.function
      rw [evalExpr, evalExpr]
      refine parallel_freshId.bind fun w' a b hw h => parallel_value (.closure h ?_)
      exact ⟨side, inner, hw.frames side i j hij, hopens, hfunction⟩
  | .call t f es =>
      obtain ⟨f', es', rfl, hf, hes⟩ := he.call
      rw [evalExpr, evalExpr]
      refine parallel_unlessError (parallel_evalExpr hap hij hf) fun w₁ v u hw₁ h => ?_
      have hij₁ : w₁.Frames side i j := hw₁.frames side i j hij
      refine (parallel_evalArgs hap hij₁ hes).bind fun w₂ r r' hw₂ hr => ?_
      cases hr with
      | error h => exact parallel_value h
      | ok hvs => exact hap w₂ v u _ _ (hw₂.values h) hvs
termination_by structural e

theorem parallel_evalArgs {w : Pairing} (hap : ParallelApply p q ap ap')
    (hij : w.Frames side i j) {es es' : List (Expr Unit)}
    (hes : List.Forall₂ (Expr.Counterpart p q side) es es') :
    Parallel p q w (Args p q) (evalArgs ap i es) (evalArgs ap' j es') := by
  match es, hes with
  | [], .nil => exact .pure fun _ _ => .ok .nil
  | e :: es, .cons he hes =>
      rw [evalArgs, evalArgs]
      refine (parallel_evalExpr hap hij he).bind fun w₁ v u hw₁ h => ?_
      rw [h.isError_eq]
      split
      · exact .pure fun w' hw => .error (hw.values h)
      · have hij₁ : w₁.Frames side i j := hw₁.frames side i j hij
        refine (parallel_evalArgs hap hij₁ hes).bind fun w₂ r r' hw₂ hr => .pure ?_
        intro w' hw
        cases hr with
        | error h => exact .error (hw.values h)
        | ok hvs =>
            refine .ok (.cons (hw.values (hw₂.values h)) ?_)
            exact hvs.imp fun _ _ => hw.values
termination_by structural es

theorem parallel_evalStmt {w : Pairing} (hap : ParallelApply p q ap ap')
    (hij : w.Frames side i j) {st st' : Stmt Unit} (hst : st.Counterpart p q side st') :
    Parallel p q w (Values p q) (evalStmt ap i st) (evalStmt ap' j st') := by
  match st with
  | .let_ t id e =>
      obtain ⟨e', rfl, hm, he⟩ := hst.let_
      rw [evalStmt, evalStmt]
      refine parallel_unlessError (parallel_evalExpr hap hij he) fun w' v u hw h => ?_
      refine (parallel_bindName (hw.frames side i j hij) hm h).bind fun _ _ _ _ _ => ?_
      exact parallel_value .null
  | .return_ t e =>
      obtain ⟨e', rfl, he⟩ := hst.return_
      rw [evalStmt, evalStmt]
      refine parallel_unlessError (parallel_evalExpr hap hij he) fun w' v u hw h => ?_
      exact parallel_newReturned h
  | .expr t e =>
      obtain ⟨e', rfl, he⟩ := hst.expr
      rw [evalStmt, evalStmt]
      exact parallel_evalExpr hap hij he
  | .block b =>
      obtain ⟨b', rfl, hb⟩ := hst.block
      rw [evalStmt, evalStmt]
      exact parallel_evalBlock hap hij hb
termination_by structural st

theorem parallel_evalStmts {w : Pairing} (hap : ParallelApply p q ap ap')
    (hij : w.Frames side i j) {last last' : Value} (hlast : w.Values p q last last')
    {ss ss' : List (Stmt Unit)}     (hss : List.Forall₂ (Stmt.Counterpart p q side) ss ss') :
    Parallel p q w (Values p q) (evalStmts ap i last ss) (evalStmts ap' j last' ss') := by
  match ss, hss with
  | [], .nil => exact parallel_value hlast
  | st :: ss, .cons hst hss =>
      rw [evalStmts, evalStmts]
      refine (parallel_evalStmt hap hij hst).bind fun w' v u hw h => ?_
      rw [h.stops_eq]
      split
      · exact parallel_value h
      · exact parallel_evalStmts hap (hw.frames side i j hij) h hss
termination_by structural ss

theorem parallel_evalBlock {w : Pairing} (hap : ParallelApply p q ap ap')
    (hij : w.Frames side i j) {b b' : Block Unit} (hb : b.Counterpart p q side b') :
    Parallel p q w (Values p q) (evalBlock ap i b) (evalBlock ap' j b') := by
  match b with
  | .mk t ss =>
      obtain ⟨ss', rfl, hss⟩ := hb.mk
      rw [evalBlock, evalBlock]
      exact parallel_evalStmts hap hij .null hss
termination_by structural b

end

/-! ## Calls and programs -/

theorem call_apply {k : FrameId → Eval α} {outer : FrameId} {bs : List (String × Value)}
    {s : Store} :
    (enclose outer >>= fun env => bindAll env bs >>= fun _ => k env) s =
      k s.frames.size (s.openFrame outer bs) :=
  (bind_apply enclose_apply).trans (bind_apply bindAll_apply)

/-- A call does in its new frame what the other call does in its own. -/
theorem parallel_call {inner : Side} {c d : Closure} {vs us : List Value}
    {k l : FrameId → Eval Value} (henv : w.Frames side c.env d.env)
    (hopens : side.Opens (p ∈ c.params) inner)
    (hfunction : FunctionCounterpart p q inner c.params c.body d.params d.body)
    (hvs : List.Forall₂ (w.Values p q) vs us) (hcount : c.params.length = vs.length)
    (hbody : ∀ w' i j, w.Grows w' → w'.Frames inner i j →
      Parallel p q w' (Values p q) (k i) (l j)) :
    Parallel p q w (Values p q)
      (enclose c.env >>= fun env => bindAll env (c.params.zip vs) >>= fun _ => k env)
      (enclose d.env >>= fun env => bindAll env (d.params.zip us) >>= fun _ => l env) := by
  intro w' s t hw hst
  rw [call_apply, call_apply]
  have hgrows : w'.Grows (w'.addFrame inner s.frames.size t.frames.size) :=
    .addFrame hst.frames
  have hcall := hst.openFrame (hw.frames _ _ _ henv) hopens hfunction
    (hvs.imp fun _ _ => hw.values) hcount
  refine rel_imp ?_ (hbody _ _ _ (hw.trans hgrows) frames_addFrame _ _ _ .refl hcall)
  rintro a b ⟨w'', hw'', h⟩
  exact ⟨w'', hgrows.trans hw'', h⟩

theorem parallelApply_apply (depth : Nat) : ParallelApply p q (apply depth) (apply depth) := by
  induction depth with
  | zero => exact fun _ _ _ _ _ _ _ _ _ _ _ _ => .none
  | succ depth ih =>
      intro w v u vs us h hvs
      cases h with
      | @closure c d hobject hcd =>
          obtain ⟨side, inner, henv, hopens, hfunction⟩ := hcd
          have hcounts : d.params.length = c.params.length := by
            rw [hfunction.params, List.length_map]
          rw [apply, apply, hcounts, ← hvs.length_eq]
          split
          next hcount =>
            refine parallel_call henv hopens hfunction hvs hcount fun w' i j hw hij => ?_
            refine (parallel_evalBlock ih hij hfunction.body).bind fun _ _ _ _ h => ?_
            exact parallel_value h.unwrap
          next => exact parallel_newError
      | _ => exact parallel_newError

theorem parallel_evaluate {P P' : Program Unit} (depth : Nat) (hij : w.Frames side i j)
    (h : List.Forall₂ (Stmt.Counterpart p q side) P.statements P'.statements) :
    Parallel p q w (Values p q) (evaluate depth P i) (evaluate depth P' j) := by
  refine (parallel_evalStmts (parallelApply_apply depth) hij .null h).bind ?_
  exact fun _ _ _ _ h => parallel_value h.unwrap

end Monkey
