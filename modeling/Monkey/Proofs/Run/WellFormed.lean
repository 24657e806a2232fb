import Monkey.Proofs.Run.Footprint
import Monkey.Proofs.Store.WellFormed

/-!
# Evaluation keeps stores well formed

What is evaluated in a region of a well-formed store stays in the region: all that it binds
and results in was made in the store, and refers to frames of the region or to new ones
(`Runs.sound`). Numbers that were given away are never given away again.
-/

namespace Monkey

/-! ## Operators -/

/-- What an operator answers: a truth value, a new integer or a new error. -/
inductive Eval.Plain : Eval Value → Prop where
  | bool (b : Bool) : Plain (pure (.bool b))
  | int (n : Int64) : Plain (newInt n)
  | error (fault : Fault) : Plain (newError fault)

theorem plain_evalUnary (op : UnaryOp) (v : Value) : (evalUnary op v).Plain := by
  cases op with
  | not => exact .bool _
  | negate =>
      cases v with
      | int id n => exact .int _
      | _ => exact .error _

theorem plain_evalInts (op : BinaryOp) (m n : Int64) : (evalInts op m n).Plain := by
  cases op with
  | add | subtract | multiply => exact .int _
  | divide =>
      rw [evalInts]
      split
      · exact .error _
      · exact .int _
  | less | greater | equal | notEqual => exact .bool _

theorem plain_evalBinary (op : BinaryOp) (v w : Value) : (evalBinary op v w).Plain := by
  unfold evalBinary
  split
  · exact plain_evalInts op _ _
  split
  · exact .bool _
  · exact .bool _
  split
  · exact .error _
  · exact .error _

variable {R : FrameId → Prop} {v : Value} {s s' : Store}

theorem Value.belongsTo_bool {b : Bool} : (bool b).BelongsTo s R :=
  ⟨trivial, fun _ hi => hi.elim⟩

theorem Value.belongsTo_null : null.BelongsTo s R :=
  ⟨trivial, fun _ hi => hi.elim⟩

theorem Value.belongsTo_error {fault : Fault} :
    (error s.nextObject fault).BelongsTo s.spend R :=
  ⟨Nat.lt_succ_self _, fun _ hi => hi.elim⟩

/-- The answer of an operator was made by it. -/
theorem Eval.Plain.sound {x : Eval Value} (h : x.Plain) (hx : x s = some (v, s'))
    (hs : s.Sound R) : s.Before s' ∧ s'.Sound R ∧ v.BelongsTo s' R := by
  cases h with
  | bool b =>
      cases hx
      exact ⟨.refl, hs, Value.belongsTo_bool⟩
  | int n =>
      cases hx
      exact ⟨.spend, hs.spend, Nat.lt_succ_self _, fun _ hi => hi.elim⟩
  | error fault =>
      cases hx
      exact ⟨.spend, hs.spend, Value.belongsTo_error⟩

/-! ## Runs -/

/-- What the outcome consists of was made in the store, and belongs to the region. -/
def Outcome.BelongsTo (s : Store) (R : FrameId → Prop) : Outcome → Prop
  | .value v => v.BelongsTo s R
  | .values vs => ∀ v ∈ vs, v.BelongsTo s R

/-- What the task has been given was made in the store, and belongs to the region. -/
def Task.BelongsTo (s : Store) (R : FrameId → Prop) : Task → Prop
  | .stmts last _ => last.BelongsTo s R
  | .call f vs => f.BelongsTo s R ∧ ∀ v ∈ vs, v.BelongsTo s R
  | _ => True

/-- What is evaluated first has been given nothing. -/
theorem Task.Heads.belongsTo {φ ψ : Task} (h : φ.Heads ψ) : φ.BelongsTo s R := by
  cases h <;> trivial

/-- A run in a frame of a region stays in the region, and keeps the store well formed. -/
theorem Runs.sound {env : FrameId} {φ : Task} {o : Outcome} (h : Runs env φ s o s')
    (henv : R env) (hlt : env < s.frames.size) (hs : s.Sound R) (hφ : φ.BelongsTo s R) :
    s.Before s' ∧ s'.Sound R ∧ o.BelongsTo s' R := by
  induction h with
  | error hheads _ _ ih => exact ih henv hlt hs hheads.belongsTo
  | ident hname => exact ⟨.refl, hs, hs.get? henv hname⟩
  | unbound | wrongCount | notAFunction => exact ⟨.spend, hs.spend, Value.belongsTo_error⟩
  | int => exact ⟨.spend, hs.spend, Nat.lt_succ_self _, fun _ hi => hi.elim⟩
  | bool => exact ⟨.refl, hs, Value.belongsTo_bool⟩
  | function =>
      refine ⟨.spend, hs.spend, ⟨Nat.lt_succ_self _, hlt⟩, ?_⟩
      rintro i rfl
      exact henv
  | unary _ _ hop ih =>
      obtain ⟨hbefore, hs₁, -⟩ := ih henv hlt hs trivial
      obtain ⟨hbefore', hs₂, hw⟩ := (plain_evalUnary _ _).sound hop hs₁
      exact ⟨hbefore.trans hbefore', hs₂, hw⟩
  | binary _ _ _ _ hop ihl ihr =>
      obtain ⟨hbefore₁, hs₁, -⟩ := ihl henv hlt hs trivial
      obtain ⟨hbefore₂, hs₂, -⟩ := ihr henv (Nat.lt_of_lt_of_le hlt hbefore₁.frames) hs₁ trivial
      obtain ⟨hbefore₃, hs₃, hu⟩ := (plain_evalBinary _ _ _).sound hop hs₂
      exact ⟨hbefore₁.trans (hbefore₂.trans hbefore₃), hs₃, hu⟩
  | noElse _ _ _ ih =>
      obtain ⟨hbefore, hs₁, -⟩ := ih henv hlt hs trivial
      exact ⟨hbefore, hs₁, Value.belongsTo_null⟩
  | rightError _ _ _ _ ih₁ ih₂ | then_ _ _ _ _ ih₁ ih₂ | else_ _ _ _ _ ih₁ ih₂
  | argsError _ _ _ ih₁ ih₂ | laterError _ _ _ ih₁ ih₂ =>
      obtain ⟨hbefore₁, hs₁, -⟩ := ih₁ henv hlt hs trivial
      obtain ⟨hbefore₂, h⟩ := ih₂ henv (Nat.lt_of_lt_of_le hlt hbefore₁.frames) hs₁ trivial
      exact ⟨hbefore₁.trans hbefore₂, h⟩
  | next _ _ _ ih₁ ih₂ =>
      obtain ⟨hbefore₁, hs₁, hv⟩ := ih₁ henv hlt hs trivial
      obtain ⟨hbefore₂, h⟩ := ih₂ henv (Nat.lt_of_lt_of_le hlt hbefore₁.frames) hs₁ hv
      exact ⟨hbefore₁.trans hbefore₂, h⟩
  | call _ _ _ _ ihf ihes ihcall =>
      obtain ⟨hbefore₁, hs₁, hf⟩ := ihf henv hlt hs trivial
      have hlt₁ := Nat.lt_of_lt_of_le hlt hbefore₁.frames
      obtain ⟨hbefore₂, hs₂, hvs⟩ := ihes henv hlt₁ hs₁ trivial
      have hlt₂ := Nat.lt_of_lt_of_le hlt₁ hbefore₂.frames
      obtain ⟨hbefore₃, h⟩ := ihcall henv hlt₂ hs₂ ⟨hf.mono hbefore₂, hvs⟩
      exact ⟨hbefore₁.trans (hbefore₂.trans hbefore₃), h⟩
  | noArgs => exact ⟨.refl, hs, List.forall_mem_nil _⟩
  | moreArgs _ _ _ ih₁ ih₂ =>
      obtain ⟨hbefore₁, hs₁, hv⟩ := ih₁ henv hlt hs trivial
      obtain ⟨hbefore₂, hs₂, hvs⟩ :=
        ih₂ henv (Nat.lt_of_lt_of_le hlt hbefore₁.frames) hs₁ trivial
      refine ⟨hbefore₁.trans hbefore₂, hs₂, List.forall_mem_cons.mpr ⟨?_, hvs⟩⟩
      exact Value.BelongsTo.mono hv hbefore₂
  | let_ _ _ ih =>
      obtain ⟨hbefore, hs₁, hv⟩ := ih henv hlt hs trivial
      exact ⟨hbefore.trans .set, hs₁.set hv, Value.belongsTo_null⟩
  | return_ _ _ ih =>
      obtain ⟨hbefore, hs₁, hv⟩ := ih henv hlt hs trivial
      have hv' := Value.BelongsTo.mono hv .spend
      exact ⟨hbefore.trans .spend, hs₁.spend, ⟨Nat.lt_succ_self _, hv'.made⟩, hv'.stays⟩
  | expr _ ih | inner _ ih | stop _ _ ih => exact ih henv hlt hs trivial
  | block _ ih => exact ih henv hlt hs Value.belongsTo_null
  | done => exact ⟨.refl, hs, hφ⟩
  | @apply _ c vs s _ _ _ _ ih =>
      obtain ⟨hc, hvs⟩ := hφ
      have hopen := hs.openFrame hc hvs
      have hnew : s.frames.size < (s.openFrame c.env (c.params.zip vs)).frames.size :=
        Store.size_openFrame ▸ Nat.lt_succ_self _
      obtain ⟨hbefore, hs₁, hv⟩ := ih hs.region.newFrame_mem hnew hopen trivial
      exact ⟨.trans .openFrame hbefore, hs₁, Value.BelongsTo.unwrap hv⟩

/-! ## Stores on the way -/

namespace Moment

variable {m m' : Moment} {t : Store}

/-- The evaluation begins in a frame of the region, with what belongs to the region. -/
structure Sound (m : Moment) (R : FrameId → Prop) : Prop where
  env : R m.env
  hasFrame : m.HasFrame
  store : m.store.Sound R
  task : m.task.BelongsTo m.store R

/-- What is evaluated later begins where the first part has ended. -/
theorem Sound.later {φ ψ : Task} {env : FrameId} (hm : Sound ⟨env, ψ, s⟩ R)
    (hbefore : s.Before s') (hs : s'.Sound R) (hφ : φ.BelongsTo s' R) :
    Sound ⟨env, φ, s'⟩ R :=
  ⟨hm.env, Nat.lt_of_lt_of_le hm.hasFrame hbefore.frames, hs, hφ⟩

theorem Enters.sound (h : m.Enters m') (hm : m.Sound R) :
    m.store.Before m'.store ∧ m'.Sound R := by
  cases h with
  | head hheads => exact ⟨.refl, hm.later .refl hm.store hheads.belongsTo⟩
  | expr | inner | stmt => exact ⟨.refl, hm.later .refl hm.store trivial⟩
  | block => exact ⟨.refl, hm.later .refl hm.store Value.belongsTo_null⟩
  | right hrun | then_ hrun | else_ hrun | args hrun | later hrun =>
      obtain ⟨hbefore, hs, -⟩ := hrun.sound hm.env hm.hasFrame hm.store trivial
      exact ⟨hbefore, hm.later hbefore hs trivial⟩
  | next hrun =>
      obtain ⟨hbefore, hs, hv⟩ := hrun.sound hm.env hm.hasFrame hm.store trivial
      exact ⟨hbefore, hm.later hbefore hs hv⟩
  | call hf _ hes =>
      obtain ⟨hbefore, hs, hv⟩ := hf.sound hm.env hm.hasFrame hm.store trivial
      have hlt := Nat.lt_of_lt_of_le hm.hasFrame hbefore.frames
      obtain ⟨hbefore', hs', hvs⟩ := hes.sound hm.env hlt hs trivial
      have hall := hbefore.trans hbefore'
      exact ⟨hall, hm.later hall hs' ⟨hv.mono hbefore', hvs⟩⟩
  | @body _ c vs s =>
      obtain ⟨hc, hvs⟩ := hm.task
      have hnew : s.frames.size < (s.openFrame c.env (c.params.zip vs)).frames.size :=
        Store.size_openFrame ▸ Nat.lt_succ_self _
      have hR : R s.frames.size := hm.store.region.later _ (Nat.le_refl _)
      exact ⟨.openFrame, hR, hnew, hm.store.openFrame hc hvs, trivial⟩

theorem Visits.sound (h : m.Visits m') (hm : m.Sound R) :
    m.store.Before m'.store ∧ m'.Sound R := by
  induction h with
  | refl => exact ⟨.refl, hm⟩
  | tail _ henters ih =>
      obtain ⟨hbefore, hm⟩ := ih
      obtain ⟨hbefore', hm'⟩ := henters.sound hm
      exact ⟨hbefore.trans hbefore', hm'⟩

/-- Every store that is met on the way is well formed. -/
theorem Passes.sound (h : m.Passes t) (hm : m.Sound R) : m.store.Before t ∧ t.Sound R := by
  cases h with
  | start hvisits =>
      obtain ⟨hbefore, hm'⟩ := hvisits.sound hm
      exact ⟨hbefore, hm'.store⟩
  | stop hvisits hrun =>
      obtain ⟨hbefore, hm'⟩ := hvisits.sound hm
      obtain ⟨hbefore', ht, -⟩ := hrun.sound hm'.env hm'.hasFrame hm'.store hm'.task
      exact ⟨hbefore.trans hbefore', ht⟩
  | @binding env c vs s bs bs' hvisits hcount hzip =>
      obtain ⟨hbefore, hm'⟩ := hvisits.sound hm
      obtain ⟨hc, hvs⟩ := hm'.task
      have hbs : ∀ b ∈ bs, b.2.BelongsTo s R := fun b hb =>
        hvs b.2 (List.of_mem_zip (hzip ▸ List.mem_append_left bs' hb)).2
      exact ⟨hbefore.trans .openFrame, hm'.store.openBindings hc hbs⟩

end Moment

end Monkey
