import Monkey.Proofs.Run.Wrappers

/-!
# Disciplined programs

In a disciplined program a `return` statement ends nothing but the statements around it:
it stands among the statements of a body, of a block, or of a branch whose `if` is a
statement by itself. Where a value is asked for, no `return` statement can be met without
a call. Then no value ever keeps a wrapper, and none gets under a name
(`Runs.tame`).

What a run of any program results in is wrapped exactly if two wrappers are left on the
way of the value with which the program ends (`result_wrapped_iff`).
-/

namespace Monkey

variable {α : Type}

mutual

/-- Function bodies are disciplined, and `return` statements of the expression itself only
stand where they can end what the expression stands in, if it is one of its `exits`. -/
def Expr.Disciplined (exits : Bool) : Expr α → Prop
  | .ident _ | .int _ _ | .bool _ _ => True
  | .unary _ _ operand => operand.Disciplined false
  | .binary _ _ left right => left.Disciplined false ∧ right.Disciplined false
  | .cond _ condition consequence none =>
      condition.Disciplined false ∧ consequence.Disciplined exits
  | .cond _ condition consequence (some alternative) =>
      condition.Disciplined false ∧ consequence.Disciplined exits ∧
        alternative.Disciplined exits
  | .function _ _ body => body.Disciplined true
  | .call _ callee args => callee.Disciplined false ∧ Expr.AllDisciplined args

/-- Each of several expressions is disciplined, and none is an exit. -/
def Expr.AllDisciplined : List (Expr α) → Prop
  | [] => True
  | e :: es => e.Disciplined false ∧ Expr.AllDisciplined es

/-- As for expressions: a `return` statement has to be an exit, and the value of an
expression statement is where the statement is. -/
def Stmt.Disciplined (exits : Bool) : Stmt α → Prop
  | .let_ _ _ value => value.Disciplined false
  | .return_ _ value => exits = true ∧ value.Disciplined false
  | .expr _ value => value.Disciplined exits
  | .block body => body.Disciplined exits

/-- `Stmt.Disciplined` for each of several statements. -/
def Stmt.AllDisciplined (exits : Bool) : List (Stmt α) → Prop
  | [] => True
  | s :: ss => s.Disciplined exits ∧ Stmt.AllDisciplined exits ss

/-- As for the statements of the block. -/
def Block.Disciplined (exits : Bool) : Block α → Prop
  | .mk _ statements => Stmt.AllDisciplined exits statements

end

/-- The statements of the program may end it. -/
def Program.Disciplined (p : Program α) : Prop :=
  Stmt.AllDisciplined true p.statements

/-- No wrapper, and functions of disciplined bodies that were made in the region. -/
def Value.Tame (R : FrameId → Prop) : Value → Prop
  | returned _ _ => False
  | closure c => R c.env ∧ c.body.Disciplined true
  | _ => True

/-- What a disciplined task results in: an exit may wrap the value once. -/
def Outcome.Tame (R : FrameId → Prop) (exits : Bool) : Outcome → Prop
  | .value v => v.Tame R ∨ exits = true ∧ ∃ id w, v = .returned id w ∧ w.Tame R
  | .values vs => ∀ v ∈ vs, v.Tame R

/-- What the task evaluates is disciplined, and what it has been given is tame. -/
def Task.Disciplined (R : FrameId → Prop) (exits : Bool) : Task → Prop
  | .expr e => e.Disciplined exits
  | .args es => Expr.AllDisciplined es
  | .stmt s => s.Disciplined exits
  | .stmts last ss => last.Tame R ∧ Stmt.AllDisciplined exits ss
  | .block b => b.Disciplined exits
  | .call f vs => f.Tame R ∧ ∀ v ∈ vs, v.Tame R

variable {R : FrameId → Prop} {exits : Bool} {v w : Value} {φ ψ : Task}

theorem Value.IsScalar.tame (h : v.IsScalar) : v.Tame R := by
  cases v with
  | returned id w => cases h
  | closure c => cases h
  | _ => trivial

theorem Value.Tame.wrappers (h : v.Tame R) : v.wrappers = 0 := by
  cases v with
  | returned id w => cases h
  | _ => rfl

theorem Value.Tame.type_ne (h : v.Tame R) : v.type ≠ .returnValue := by
  rw [Ne, type_eq_returnValue_iff, h.wrappers]
  exact Nat.lt_irrefl 0

theorem Value.tame_of_type_ne (htype : v.type ≠ .returnValue)
    (hclosure : ∀ c, v = .closure c → R c.env ∧ c.body.Disciplined true) : v.Tame R := by
  cases v with
  | returned id w => exact absurd rfl htype
  | closure c => exact hclosure c rfl
  | _ => trivial

theorem Value.tame_of_isError (h : v.isError) : v.Tame R := by
  cases v with
  | error id fault => trivial
  | _ => cases h

theorem Outcome.tame_value (h : v.Tame R) : (Outcome.value v).Tame R exits :=
  .inl h

theorem Outcome.tame_of_not_exits (h : (Outcome.value v).Tame R false) : v.Tame R := by
  obtain h | ⟨hexits, _⟩ := h
  · exact h
  · cases hexits

theorem Outcome.Tame.of_not_stops (h : (Outcome.value v).Tame R exits) (hv : ¬v.stops) :
    v.Tame R := by
  obtain h | ⟨-, id, w, rfl, -⟩ := h
  · exact h
  · exact absurd rfl hv

theorem Outcome.Tame.unwrap (h : (Outcome.value v).Tame R exits) : v.unwrap.Tame R := by
  obtain h | ⟨-, id, w, rfl, hw⟩ := h
  · cases v with
    | returned id w => cases h
    | _ => exact h
  · exact hw

/-- The first step of a disciplined task is disciplined, and no exit. -/
theorem Task.Heads.disciplined (h : φ.Heads ψ) (hψ : ψ.Disciplined R exits) :
    φ.Disciplined R false := by
  cases h with
  | operand => exact hψ
  | left => exact hψ.1
  | @condition _ _ _ a => cases a <;> exact hψ.1
  | callee => exact hψ.1
  | arg => exact hψ.1
  | bound => exact hψ
  | returned => exact hψ.2

/-- Where nothing but tame values is bound, a disciplined task comes to a tame outcome, and
binds nothing but tame values. -/
theorem Runs.tame {env : FrameId} {s s' : Store} {o : Outcome} (h : Runs env φ s o s') :
    ∀ exits, R env → s.Region R (Value.Tame R) → φ.Disciplined R exits →
      s'.Region R (Value.Tame R) ∧ o.Tame R exits := by
  induction h with
  | error hheads _ herror ih =>
      intro exits henv hs hφ
      obtain ⟨hs', -⟩ := ih _ henv hs (hheads.disciplined hφ)
      exact ⟨hs', Outcome.tame_value (Value.tame_of_isError herror)⟩
  | ident hname =>
      intro exits henv hs _
      exact ⟨hs, Outcome.tame_value (hs.get? henv hname)⟩
  | unbound | int | wrongCount | notAFunction =>
      intro exits _ hs _
      exact ⟨hs.spend, Outcome.tame_value trivial⟩
  | bool =>
      intro exits _ hs _
      exact ⟨hs, Outcome.tame_value trivial⟩
  | function =>
      intro exits henv hs hφ
      exact ⟨hs.spend, Outcome.tame_value ⟨henv, hφ⟩⟩
  | unary _ _ hop ih =>
      intro exits henv hs hφ
      obtain ⟨hs₁, -⟩ := ih _ henv hs (Task.Heads.operand.disciplined hφ)
      obtain ⟨hscalar, hframes⟩ := givesScalar_evalUnary _ _ _ hop
      exact ⟨hs₁.of_frames_eq hframes, Outcome.tame_value hscalar.tame⟩
  | rightError _ _ _ herror ihl ihr =>
      intro exits henv hs hφ
      obtain ⟨hs₁, -⟩ := ihl _ henv hs hφ.1
      obtain ⟨hs₂, -⟩ := ihr _ henv hs₁ hφ.2
      exact ⟨hs₂, Outcome.tame_value (Value.tame_of_isError herror)⟩
  | binary _ _ _ _ hop ihl ihr =>
      intro exits henv hs hφ
      obtain ⟨hs₁, -⟩ := ihl _ henv hs hφ.1
      obtain ⟨hs₂, -⟩ := ihr _ henv hs₁ hφ.2
      obtain ⟨hscalar, hframes⟩ := givesScalar_evalBinary _ _ _ hop
      exact ⟨hs₂.of_frames_eq hframes, Outcome.tame_value hscalar.tame⟩
  | @then_ _ _ _ _ a _ _ _ _ _ _ _ _ _ ihc ihb =>
      intro exits henv hs hφ
      obtain ⟨hs₁, -⟩ := ihc _ henv hs (Task.Heads.condition.disciplined hφ)
      cases a with
      | none => exact ihb _ henv hs₁ hφ.2
      | some a => exact ihb _ henv hs₁ hφ.2.1
  | else_ _ _ _ _ ihc iha =>
      intro exits henv hs hφ
      obtain ⟨hs₁, -⟩ := ihc _ henv hs hφ.1
      exact iha _ henv hs₁ hφ.2.2
  | noElse _ _ _ ihc =>
      intro exits henv hs hφ
      obtain ⟨hs₁, -⟩ := ihc _ henv hs hφ.1
      exact ⟨hs₁, Outcome.tame_value trivial⟩
  | argsError _ _ hes ihf ihes =>
      intro exits henv hs hφ
      obtain ⟨hs₁, -⟩ := ihf _ henv hs hφ.1
      obtain ⟨hs₂, -⟩ := ihes false henv hs₁ hφ.2
      exact ⟨hs₂, Outcome.tame_value (Value.tame_of_isError hes.isError_of_args)⟩
  | call _ _ _ _ ihf ihes ihcall =>
      intro exits henv hs hφ
      obtain ⟨hs₁, hf⟩ := ihf _ henv hs hφ.1
      obtain ⟨hs₂, hvs⟩ := ihes false henv hs₁ hφ.2
      obtain ⟨hs₃, hw⟩ := ihcall _ henv hs₂ ⟨Outcome.tame_of_not_exits hf, hvs⟩
      exact ⟨hs₃, Outcome.tame_value (Outcome.tame_of_not_exits hw)⟩
  | noArgs =>
      intro exits _ hs _
      exact ⟨hs, List.forall_mem_nil _⟩
  | laterError _ _ hes ihe ihes =>
      intro exits henv hs hφ
      obtain ⟨hs₁, -⟩ := ihe _ henv hs hφ.1
      obtain ⟨hs₂, -⟩ := ihes false henv hs₁ hφ.2
      exact ⟨hs₂, Outcome.tame_value (Value.tame_of_isError hes.isError_of_args)⟩
  | moreArgs _ _ _ ihe ihes =>
      intro exits henv hs hφ
      obtain ⟨hs₁, hv⟩ := ihe _ henv hs hφ.1
      obtain ⟨hs₂, hvs⟩ := ihes false henv hs₁ hφ.2
      exact ⟨hs₂, List.forall_mem_cons.mpr ⟨Outcome.tame_of_not_exits hv, hvs⟩⟩
  | let_ _ _ ih =>
      intro exits henv hs hφ
      obtain ⟨hs₁, hv⟩ := ih _ henv hs hφ
      exact ⟨hs₁.set (Outcome.tame_of_not_exits hv), Outcome.tame_value trivial⟩
  | return_ _ _ ih =>
      intro exits henv hs hφ
      obtain ⟨hs₁, hv⟩ := ih _ henv hs hφ.2
      exact ⟨hs₁.spend, .inr ⟨hφ.1, _, _, rfl, Outcome.tame_of_not_exits hv⟩⟩
  | expr _ ih | inner _ ih =>
      intro exits henv hs hφ
      exact ih _ henv hs hφ
  | done =>
      intro exits _ hs hφ
      exact ⟨hs, Outcome.tame_value hφ.1⟩
  | stop _ _ ih =>
      intro exits henv hs hφ
      exact ih _ henv hs hφ.2.1
  | next _ hstops _ ih ihs =>
      -- a wrapped value would have stopped the statements
      intro exits henv hs hφ
      obtain ⟨hs₁, hv⟩ := ih _ henv hs hφ.2.1
      exact ihs _ henv hs₁ ⟨hv.of_not_stops hstops, hφ.2.2⟩
  | block _ ih =>
      intro exits henv hs hφ
      exact ih _ henv hs ⟨trivial, hφ⟩
  | @apply _ c vs _ _ _ _ _ ih =>
      intro exits _ hs hφ
      obtain ⟨⟨hcaptured, hbody⟩, hvs⟩ := hφ
      -- the body runs in a new frame, inside the one that the function was made in
      have hframe := hs.newFrame hcaptured
      have hbound : ∀ b ∈ c.params.zip vs, b.2.Tame R :=
        fun b hb => hvs b.2 (List.of_mem_zip hb).2
      obtain ⟨hs₁, hv⟩ := ih _ hs.newFrame_mem (hframe.bindAll hbound) hbody
      exact ⟨hs₁, Outcome.tame_value hv.unwrap⟩

/-! ## Programs -/

/-- The result of a program is wrapped exactly if two wrappers are left on the way of the
value that the program ends with. This cannot happen in a disciplined program, in a frame
from which one gets to no wrapped value and to no undisciplined function. -/
theorem result_wrapped_iff {depth : Nat} {p : Program Unit} {env : FrameId} {s s' : Store}
    (h : evaluate depth p env s = some (v, s')) :
    (v.type = .returnValue ↔ Leaves 2 env (.stmts .null p.statements) s) ∧
    (p.Disciplined →
      (∀ i f b, s.Reaches env i → s.frames[i]? = some f → b ∈ f.bindings →
        b.2.type ≠ .returnValue ∧ ∀ c, b.2 = .closure c → c.body.Disciplined true) →
      v.type ≠ .returnValue) := by
  obtain ⟨w, hw, rfl⟩ := evaluate_eq_some_iff.mp ⟨depth, h⟩
  constructor
  · rw [Value.type_eq_returnValue_iff, Value.wrappers_unwrap, hw.leaves_iff Bool.false_ne_true]
    omega
  · intro hp hs
    have hregion : s.Region (s.ReachedFrom env) (Value.Tame (s.ReachedFrom env)) := by
      refine Store.region_reachedFrom fun i f b hi hf hb => ?_
      obtain ⟨htype, hbody⟩ := hs i f b hi hf hb
      refine Value.tame_of_type_ne htype fun c hc => ⟨?_, hbody c hc⟩
      have hcaptures : b.2.Captures c.env := by rw [hc]; rfl
      exact .inl (.captured hi hf hb hcaptures)
    exact (hw.tame true (.inl .self) hregion ⟨trivial, hp⟩).2.unwrap.type_ne

/-- `return if (true) { return 1 };` -/
def returnOfReturn : Program Unit :=
  ⟨[.return_ () (.cond () (.bool () true) ⟨(), [.return_ () (.int () 1)]⟩ none)]⟩

/-- `if (true) { return 1 }` -/
def returnInBranch : Program Unit :=
  ⟨[.expr () (.cond () (.bool () true) ⟨(), [.return_ () (.int () 1)]⟩ none)]⟩

/-- One of two wrappers is left, although nothing was bound before. -/
theorem returnOfReturn_is_wrapped :
    Store.single.Unwrapped ∧
      ∃ v s', evaluate 0 returnOfReturn 0 Store.single = some (v, s') ∧
        v.type = .returnValue :=
  ⟨Store.unwrapped_single, _, _, rfl, rfl⟩

/-- Two wrappers are left where a `return` statement returns another one, and none where
the branch is a statement. -/
theorem returnInBranch_is_not_wrapped :
    Leaves 2 0 (.stmts .null returnOfReturn.statements) Store.single ∧
    ∃ v s', evaluate 0 returnInBranch 0 Store.single = some (v, s') ∧
      v.type ≠ .returnValue := by
  have hwrapped : evaluate 0 returnOfReturn 0 Store.single = some (_, _) := rfl
  have hplain : evaluate 0 returnInBranch 0 Store.single = some (_, _) := rfl
  refine ⟨(result_wrapped_iff hwrapped).1.mp rfl, _, _, hplain, ?_⟩
  refine (result_wrapped_iff hplain).2 ?_ ?_
  · simp [returnInBranch, Program.Disciplined, Stmt.AllDisciplined, Stmt.Disciplined,
      Expr.Disciplined, Block.Disciplined]
  · intro i f b _ hf hb
    exact absurd hb (Store.not_mem_bindings_single hf)

end Monkey
