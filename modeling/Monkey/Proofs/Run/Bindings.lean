import Monkey.Proofs.Run.Discipline
import Monkey.Proofs.Run.Visits

/-!
# How a wrapper gets under a name

Names are bound by `let` statements and by calls. So if no frame binds a wrapped value at
first, then one does later only where a wrapper is left on the value of a `let` statement,
or on an argument of a call that is made; and there one does. It never comes to this in a
disciplined program (`unwrapped_iff`).
-/

namespace Monkey

/-- The evaluation binds a name to a value with a wrapper left on it. -/
inductive Moment.BindsWrapped : Moment → Prop where
  | let_ {env t id e s} : Leaves 1 env (.expr e) s → BindsWrapped ⟨env, .stmt (.let_ t id e), s⟩
  | argument {env t f es e es' s c s₁ vs s₂ us s'} :
      Runs env (.expr f) s (.value (.closure c)) s₁ →
      Runs env (.args (es ++ e :: es')) s₁ (.values vs) s₂ → c.params.length = vs.length →
      Runs env (.args es) s₁ (.values us) s' → Leaves 1 env (.expr e) s' →
      BindsWrapped ⟨env, .expr (.call t f (es ++ e :: es')), s⟩

variable {env : FrameId} {φ : Task} {s s' s₁ : Store} {o : Outcome} {v : Value}
  {vs us : List Value} {es es' : List (Expr Unit)} {e : Expr Unit}

theorem Store.unwrapped_iff_region :
    s.Unwrapped ↔ s.Region (fun _ => True) (·.type ≠ .returnValue) :=
  ⟨fun h => ⟨fun _ _ => trivial, fun _ _ _ _ _ _ => trivial, fun i f b _ => h i f b⟩,
    fun h i f b => h.bound i f b trivial⟩

/-! ## Arguments -/

/-- The values of arguments are those of the first ones and then those of the others. -/
theorem Runs.args_append (h : Runs env (.args (es ++ es')) s (.values vs) s') :
    ∃ us us' s₁, Runs env (.args es) s (.values us) s₁ ∧
      Runs env (.args es') s₁ (.values us') s' ∧ vs = us ++ us' := by
  induction es generalizing s vs with
  | nil => exact ⟨[], vs, s, .noArgs, h, rfl⟩
  | cons e es ih =>
      cases h with
      | moreArgs he hv hes =>
          obtain ⟨us, us', s₂, hfirst, hrest, rfl⟩ := ih hes
          exact ⟨_, us', s₂, .moreArgs he hv hfirst, hrest, rfl⟩

/-- A wrapped value among those of arguments is that of an argument on which a wrapper is
left. -/
theorem Runs.exists_leaves (h : Runs env (.args es) s (.values vs) s') (hv : v ∈ vs)
    (htype : v.type = .returnValue) :
    ∃ es₁ e es₂ us s₁, es = es₁ ++ e :: es₂ ∧ Runs env (.args es₁) s (.values us) s₁ ∧
      Leaves 1 env (.expr e) s₁ := by
  induction es generalizing s vs with
  | nil =>
      cases h
      cases hv
  | cons e es ih =>
      cases h with
      | moreArgs he herror hes =>
          obtain rfl | hv := List.mem_cons.mp hv
          · have hpos := Value.type_eq_returnValue_iff.mp htype
            exact ⟨[], e, es, [], s, rfl, .noArgs, (he.leaves_iff trivial).mpr hpos⟩
          · obtain ⟨es₁, e', es₂, us, s₂, rfl, hfirst, hleaves⟩ := ih hes hv
            exact ⟨e :: es₁, e', es₂, _, s₂, rfl, .moreArgs he herror hfirst, hleaves⟩

/-- What an argument is left with is among the values of the arguments. -/
theorem Runs.exists_wrapped (h : Runs env (.args (es ++ e :: es')) s (.values vs) s')
    (hes : Runs env (.args es) s (.values us) s₁) (he : Leaves 1 env (.expr e) s₁) :
    ∃ v ∈ vs, v.type = .returnValue := by
  obtain ⟨us, us', s₂, hfirst, hrest, rfl⟩ := h.args_append
  obtain rfl := (hes.unique hfirst).2
  cases hrest with
  | @moreArgs _ _ _ _ v _ _ _ hrun =>
      refine ⟨v, List.mem_append_right us List.mem_cons_self, ?_⟩
      exact Value.type_eq_returnValue_iff.mpr ((hrun.leaves_iff trivial).mp he)

/-! ## Stores without wrapped values -/

namespace Store.Unwrapped

variable {name : String}

theorem of_frames_eq (h : s.Unwrapped) (heq : s'.frames = s.frames) : s'.Unwrapped :=
  unwrapped_iff_region.mpr ((unwrapped_iff_region.mp h).of_frames_eq heq)

theorem set (h : s.Unwrapped) (hv : v.type ≠ .returnValue) : (s.set env name v).Unwrapped :=
  unwrapped_iff_region.mpr ((unwrapped_iff_region.mp h).set hv)

theorem bindAll {bs : List (String × Value)} (h : s.Unwrapped)
    (hbs : ∀ b ∈ bs, b.2.type ≠ .returnValue) : (s.bindAll env bs).Unwrapped :=
  unwrapped_iff_region.mpr ((unwrapped_iff_region.mp h).bindAll hbs)

theorem newFrame (h : s.Unwrapped) : (s.newFrame (some env)).2.Unwrapped :=
  unwrapped_iff_region.mpr ((unwrapped_iff_region.mp h).newFrame trivial)

end Store.Unwrapped

/-- What has just been bound in a frame of the store is bound there. -/
theorem Store.not_unwrapped_set {name : String} (henv : env < s.frames.size)
    (hv : v.type = .returnValue) : ¬(s.set env name v).Unwrapped := by
  intro h
  have hframe : (s.set env name v).frames[env]? = some (s.frames[env].set name v) := by
    rw [getElem?_set, if_pos rfl, Array.getElem?_eq_getElem henv]
    rfl
  exact h env _ _ hframe List.mem_cons_self hv

theorem Store.bindAll_append {bs : List (String × Value)} {b : String × Value} :
    s.bindAll env (bs ++ [b]) = (s.bindAll env bs).set env b.1 b.2 := by
  induction bs generalizing s with
  | nil => rfl
  | cons c bs ih => exact ih

/-- No part of the evaluation binds a name to a wrapped value. -/
def Moment.BindsNoneWrapped (m : Moment) : Prop :=
  ∀ m', m.Visits m' → ¬m'.BindsWrapped

/-- A call that is made is not given a wrapped value. -/
def Task.GivenUnwrapped : Task → Prop
  | .call (.closure c) vs => c.params.length = vs.length → ∀ v ∈ vs, v.type ≠ .returnValue
  | _ => True

theorem Task.Heads.givenUnwrapped {ψ : Task} (h : φ.Heads ψ) : φ.GivenUnwrapped := by
  cases h <;> trivial

namespace Moment.BindsNoneWrapped

variable {m m' : Moment}

theorem enters (h : m.BindsNoneWrapped) (henters : m.Enters m') : m'.BindsNoneWrapped :=
  fun m'' hvisits => h m'' (.head henters hvisits)

theorem not_bindsWrapped (h : m.BindsNoneWrapped) : ¬m.BindsWrapped :=
  h m .refl

theorem type_ne_of_let {t : Unit} {id : Ident Unit}
    (h : BindsNoneWrapped ⟨env, .stmt (.let_ t id e), s⟩)
    (he : Runs env (.expr e) s (.value v) s') : v.type ≠ .returnValue := by
  intro htype
  have hpos := Value.type_eq_returnValue_iff.mp htype
  exact h.not_bindsWrapped (.let_ ((he.leaves_iff trivial).mpr hpos))

theorem given_of_call {t : Unit} {f : Expr Unit}
    (h : BindsNoneWrapped ⟨env, .expr (.call t f es), s⟩)
    (hf : Runs env (.expr f) s (.value v) s₁) (hes : Runs env (.args es) s₁ (.values vs) s') :
    Task.GivenUnwrapped (.call v vs) := by
  cases v with
  | closure c =>
      intro hcount v hv htype
      obtain ⟨es₁, e, es₂, us, s₂, rfl, hfirst, hleaves⟩ := hes.exists_leaves hv htype
      exact h.not_bindsWrapped (.argument hf hes hcount hfirst hleaves)
  | _ => trivial

end Moment.BindsNoneWrapped

/-- A run that binds no wrapped value leaves none bound. -/
theorem Runs.unwrapped (h : Runs env φ s o s') : s.Unwrapped → φ.GivenUnwrapped →
    Moment.BindsNoneWrapped ⟨env, φ, s⟩ → s'.Unwrapped := by
  induction h with
  | error hheads _ _ ih =>
      intro hs _ hnone
      exact ih hs hheads.givenUnwrapped (hnone.enters (.head hheads))
  | ident | bool | noArgs | done =>
      intro hs _ _
      exact hs
  | unbound | int | function | wrongCount | notAFunction =>
      intro hs _ _
      exact hs.of_frames_eq rfl
  | unary _ _ hop ih =>
      intro hs _ hnone
      have hs₁ := ih hs trivial (hnone.enters (.head .operand))
      exact hs₁.of_frames_eq (givesScalar_evalUnary _ _ _ hop).2
  | rightError hl herror _ _ ihl ihr =>
      intro hs _ hnone
      have hs₁ := ihl hs trivial (hnone.enters (.head .left))
      exact ihr hs₁ trivial (hnone.enters (.right hl herror))
  | binary hl herror _ _ hop ihl ihr =>
      intro hs _ hnone
      have hs₁ := ihl hs trivial (hnone.enters (.head .left))
      have hs₂ := ihr hs₁ trivial (hnone.enters (.right hl herror))
      exact hs₂.of_frames_eq (givesScalar_evalBinary _ _ _ hop).2
  | then_ hc herror htruthy _ ihc ihb =>
      intro hs _ hnone
      have hs₁ := ihc hs trivial (hnone.enters (.head .condition))
      exact ihb hs₁ trivial (hnone.enters (.then_ hc herror htruthy))
  | else_ hc herror htruthy _ ihc iha =>
      intro hs _ hnone
      have hs₁ := ihc hs trivial (hnone.enters (.head .condition))
      exact iha hs₁ trivial (hnone.enters (.else_ hc herror htruthy))
  | noElse _ _ _ ihc =>
      intro hs _ hnone
      exact ihc hs trivial (hnone.enters (.head .condition))
  | argsError hf herror _ ihf ihes =>
      intro hs _ hnone
      have hs₁ := ihf hs trivial (hnone.enters (.head .callee))
      exact ihes hs₁ trivial (hnone.enters (.args hf herror))
  | call hf herror hes _ ihf ihes ihcall =>
      intro hs _ hnone
      have hs₁ := ihf hs trivial (hnone.enters (.head .callee))
      have hs₂ := ihes hs₁ trivial (hnone.enters (.args hf herror))
      exact ihcall hs₂ (hnone.given_of_call hf hes) (hnone.enters (.call hf herror hes))
  | laterError he herror _ ihe ihes | moreArgs he herror _ ihe ihes =>
      intro hs _ hnone
      have hs₁ := ihe hs trivial (hnone.enters (.head .arg))
      exact ihes hs₁ trivial (hnone.enters (.later he herror))
  | let_ he _ ih =>
      intro hs _ hnone
      have hs₁ := ih hs trivial (hnone.enters (.head .bound))
      exact hs₁.set (hnone.type_ne_of_let he)
  | return_ _ _ ih =>
      intro hs _ hnone
      have hs₁ := ih hs trivial (hnone.enters (.head .returned))
      exact hs₁.of_frames_eq rfl
  | expr _ ih =>
      intro hs _ hnone
      exact ih hs trivial (hnone.enters .expr)
  | inner _ ih =>
      intro hs _ hnone
      exact ih hs trivial (hnone.enters .inner)
  | stop _ _ ih =>
      intro hs _ hnone
      exact ih hs trivial (hnone.enters .stmt)
  | next hst hstops _ ih ihs =>
      intro hs _ hnone
      have hs₁ := ih hs trivial (hnone.enters .stmt)
      exact ihs hs₁ trivial (hnone.enters (.next hst hstops))
  | block _ ih =>
      intro hs _ hnone
      exact ih hs trivial (hnone.enters .block)
  | @apply _ c vs _ _ _ hcount _ ih =>
      intro hs hgiven hnone
      have hbound : ∀ b ∈ c.params.zip vs, b.2.type ≠ .returnValue :=
        fun b hb => hgiven hcount b.2 (List.of_mem_zip hb).2
      exact ih (hs.newFrame.bindAll hbound) trivial (hnone.enters (.body hcount))

/-! ## Stores on the way -/

namespace Moment

variable {m m' : Moment} {t : Store}

/-- Nothing wrapped is bound in the store, or is about to be. -/
def AllUnwrapped (m : Moment) : Prop :=
  m.store.Unwrapped ∧ m.task.GivenUnwrapped

theorem Enters.allUnwrapped (h : m.Enters m') (hnone : m.BindsNoneWrapped)
    (hm : m.AllUnwrapped) : m'.AllUnwrapped := by
  obtain ⟨hs, hgiven⟩ := hm
  cases h with
  | head hheads => exact ⟨hs, hheads.givenUnwrapped⟩
  | expr | inner | stmt | block => exact ⟨hs, trivial⟩
  | right hrun =>
      exact ⟨hrun.unwrapped hs trivial (hnone.enters (.head .left)), trivial⟩
  | then_ hrun | else_ hrun =>
      exact ⟨hrun.unwrapped hs trivial (hnone.enters (.head .condition)), trivial⟩
  | args hrun =>
      exact ⟨hrun.unwrapped hs trivial (hnone.enters (.head .callee)), trivial⟩
  | call hf herror hes =>
      have hs₁ := hf.unwrapped hs trivial (hnone.enters (.head .callee))
      have hs₂ := hes.unwrapped hs₁ trivial (hnone.enters (.args hf herror))
      exact ⟨hs₂, hnone.given_of_call hf hes⟩
  | later hrun =>
      exact ⟨hrun.unwrapped hs trivial (hnone.enters (.head .arg)), trivial⟩
  | next hrun => exact ⟨hrun.unwrapped hs trivial (hnone.enters .stmt), trivial⟩
  | @body _ c vs _ hcount =>
      have hbound : ∀ b ∈ c.params.zip vs, b.2.type ≠ .returnValue :=
        fun b hb => hgiven hcount b.2 (List.of_mem_zip hb).2
      exact ⟨hs.newFrame.bindAll hbound, trivial⟩

theorem Visits.bindsNoneWrapped (h : m.Visits m') (hnone : m.BindsNoneWrapped) :
    m'.BindsNoneWrapped :=
  fun m'' h' => hnone m'' (h.trans h')

theorem Visits.allUnwrapped (h : m.Visits m') (hnone : m.BindsNoneWrapped)
    (hm : m.AllUnwrapped) : m'.AllUnwrapped := by
  induction h with
  | refl => exact hm
  | tail hvisits henters ih =>
      exact henters.allUnwrapped (Visits.bindsNoneWrapped hvisits hnone) ih

/-- If no part of an evaluation binds a wrapped value, none is bound in any store on the
way. -/
theorem Passes.unwrapped (h : m.Passes t) (hnone : m.BindsNoneWrapped)
    (hm : m.AllUnwrapped) : t.Unwrapped := by
  cases h with
  | start hvisits => exact (hvisits.allUnwrapped hnone hm).1
  | stop hvisits hrun =>
      obtain ⟨hs, hgiven⟩ := hvisits.allUnwrapped hnone hm
      exact hrun.unwrapped hs hgiven (hvisits.bindsNoneWrapped hnone)
  | @binding env c vs s bs bs' hvisits hcount hsplit =>
      obtain ⟨hs, hgiven⟩ := hvisits.allUnwrapped hnone hm
      refine hs.newFrame.bindAll fun b hb => ?_
      have hmem : b ∈ c.params.zip vs := hsplit ▸ List.mem_append_left bs' hb
      exact hgiven hcount b.2 (List.of_mem_zip hmem).2

/-- An evaluation that binds a wrapped value leaves it bound, for a while at least. -/
theorem BindsWrapped.exists_passes (h : m.BindsWrapped) (hframe : m.HasFrame) :
    ∃ t, m.Passes t ∧ ¬t.Unwrapped := by
  cases h with
  | @let_ env _ id e s hleaves =>
      obtain ⟨v, s', hrun, herror, hle⟩ := hleaves.exists_runs
      have henv := Nat.lt_of_lt_of_le hframe hrun.size_le
      refine ⟨_, .stop .refl (.let_ hrun herror), ?_⟩
      exact Store.not_unwrapped_set henv (Value.type_eq_returnValue_iff.mpr hle)
  | @argument env t f es e es' s c s₁ vs s₂ us s' hf hes hcount hfirst hleaves =>
      obtain ⟨v, hv, htype⟩ := hes.exists_wrapped hfirst hleaves
      rw [← List.map_snd_zip (Nat.le_of_eq hcount.symm)] at hv
      obtain ⟨b, hb, rfl⟩ := List.mem_map.mp hv
      obtain ⟨bs, bs', hsplit⟩ := List.append_of_mem hb
      have hcall : Visits ⟨env, .expr (.call t f (es ++ e :: es')), s⟩
          ⟨env, .call (.closure c) vs, s₂⟩ :=
        .single (.call hf Bool.false_ne_true hes)
      -- parameters can have the same name, so the value may be hidden again later: this is
      -- the store in which it has just been bound
      rw [List.append_cons] at hsplit
      refine ⟨_, .binding hcall hcount hsplit, ?_⟩
      rw [Store.bindAll_append]
      refine Store.not_unwrapped_set ?_ htype
      rw [Store.size_bindAll, Store.size_newFrame]
      exact Nat.lt_succ_self _

theorem Visits.passes (h : m.Visits m') (ht : m'.Passes t) : m.Passes t := by
  cases ht with
  | start hvisits => exact .start (h.trans hvisits)
  | stop hvisits hrun => exact .stop (h.trans hvisits) hrun
  | binding hvisits hcount hsplit => exact .binding (h.trans hvisits) hcount hsplit

end Moment

/-! ## Disciplined programs -/

/-- The functions that are bound in the store have disciplined bodies. -/
def Store.Disciplined (s : Store) : Prop :=
  ∀ (i : FrameId) (f : Frame) (b : String × Value) (c : Closure), s.frames[i]? = some f →
    b ∈ f.bindings → b.2 = .closure c → c.body.Disciplined true

namespace Moment

variable {R : FrameId → Prop} {m m' : Moment} {t : Store}

/-- A disciplined task in a frame of the region, where nothing but tame values is bound. -/
structure Disciplined (R : FrameId → Prop) (m : Moment) : Prop where
  frame : R m.env
  tame : m.store.Region R (Value.Tame R)
  task : ∃ exits, m.task.Disciplined R exits

theorem Enters.disciplined (h : m.Enters m') (hm : m.Disciplined R) : m'.Disciplined R := by
  obtain ⟨henv, hs, exits, hφ⟩ := hm
  cases h with
  | head hheads => exact ⟨henv, hs, false, hheads.disciplined hφ⟩
  | expr | inner => exact ⟨henv, hs, exits, hφ⟩
  | stmt => exact ⟨henv, hs, exits, hφ.2.1⟩
  | block => exact ⟨henv, hs, exits, trivial, hφ⟩
  | right hrun => exact ⟨henv, (hrun.tame false henv hs hφ.1).1, false, hφ.2⟩
  | args hrun | later hrun =>
      exact ⟨henv, (hrun.tame false henv hs hφ.1).1, false, hφ.2⟩
  | @then_ _ _ _ _ a _ _ _ hrun =>
      have hs₁ := (hrun.tame false henv hs (Task.Heads.condition.disciplined hφ)).1
      cases a with
      | none => exact ⟨henv, hs₁, exits, hφ.2⟩
      | some a => exact ⟨henv, hs₁, exits, hφ.2.1⟩
  | else_ hrun =>
      exact ⟨henv, (hrun.tame false henv hs hφ.1).1, exits, hφ.2.2⟩
  | call hf _ hes =>
      obtain ⟨hs₁, hv⟩ := hf.tame false henv hs hφ.1
      obtain ⟨hs₂, hvs⟩ := hes.tame false henv hs₁ hφ.2
      exact ⟨henv, hs₂, false, Outcome.tame_of_not_exits hv, hvs⟩
  | next hrun hstops =>
      obtain ⟨hs₁, hv⟩ := hrun.tame exits henv hs hφ.2.1
      exact ⟨henv, hs₁, exits, hv.of_not_stops hstops, hφ.2.2⟩
  | @body _ c vs s =>
      obtain ⟨⟨hcaptured, hbody⟩, hvs⟩ := hφ
      have hframe : R (s.newFrame (some c.env)).1 := hs.newFrame_mem
      have hbound : ∀ b ∈ c.params.zip vs, b.2.Tame R :=
        fun b hb => hvs b.2 (List.of_mem_zip hb).2
      exact ⟨hframe, (hs.newFrame hcaptured).bindAll hbound, true, hbody⟩

theorem Visits.disciplined (h : m.Visits m') (hm : m.Disciplined R) : m'.Disciplined R := by
  induction h with
  | refl => exact hm
  | tail _ henters ih => exact henters.disciplined ih

/-- Nothing but tame values is bound in a store on the way of a disciplined task. -/
theorem Passes.tame (h : m.Passes t) (hm : m.Disciplined R) : t.Region R (Value.Tame R) := by
  cases h with
  | start hvisits => exact (hvisits.disciplined hm).tame
  | stop hvisits hrun =>
      obtain ⟨henv, hs, exits, hφ⟩ := hvisits.disciplined hm
      exact (hrun.tame exits henv hs hφ).1
  | @binding env c vs s bs bs' hvisits hcount hsplit =>
      obtain ⟨-, hs, -, ⟨hcaptured, -⟩, hvs⟩ := hvisits.disciplined hm
      refine (hs.newFrame hcaptured).bindAll fun b hb => ?_
      have hmem : b ∈ c.params.zip vs := hsplit ▸ List.mem_append_left bs' hb
      exact hvs b.2 (List.of_mem_zip hmem).2

end Moment

/-! ## Programs -/

/-- Whatever program is run, whether it comes to an end or not: if no wrapped value is
bound at first, then none is bound in any store on the way exactly if no `let` statement on
the way gets a value with a wrapper left on it, and no call that is made an argument. This
is so for a disciplined program, if the functions bound at first are disciplined too. -/
theorem unwrapped_iff {p : Program Unit} (henv : env < s.frames.size) (hs : s.Unwrapped) :
    ((∀ t, Moment.Passes ⟨env, .stmts .null p.statements, s⟩ t → t.Unwrapped) ↔
      ∀ m, Moment.Visits ⟨env, .stmts .null p.statements, s⟩ m → ¬m.BindsWrapped) ∧
    (p.Disciplined → s.Disciplined →
      ∀ t, Moment.Passes ⟨env, .stmts .null p.statements, s⟩ t → t.Unwrapped) := by
  refine ⟨⟨?_, ?_⟩, ?_⟩
  · intro h m hvisits hbinds
    obtain ⟨t, ht, hwrapped⟩ := hbinds.exists_passes (hvisits.hasFrame henv)
    exact hwrapped (h t (hvisits.passes ht))
  · intro hnone t ht
    exact ht.unwrapped hnone ⟨hs, trivial⟩
  · intro hp hclosures t ht
    have htame : s.Region (fun _ => True) (Value.Tame fun _ => True) := by
      refine ⟨fun _ _ => trivial, fun _ _ _ _ _ _ => trivial, fun i f b _ hf hb => ?_⟩
      exact Value.tame_of_type_ne (hs i f b hf hb) fun c hc =>
        ⟨trivial, hclosures i f b c hf hb hc⟩
    have hregion := ht.tame ⟨trivial, htame, true, trivial, hp⟩
    intro i f b hf hb
    exact (hregion.bound i f b trivial hf hb).type_ne

/-- `let x = if (true) { return 5; };` -/
def letOfReturn : Program Unit :=
  ⟨[.let_ () ⟨(), "x"⟩ (.cond () (.bool () true) ⟨(), [.return_ () (.int () 5)]⟩ none)]⟩

/-- `let x = fn() { return 5; }();` -/
def letOfCall : Program Unit :=
  ⟨[.let_ () ⟨(), "x"⟩ (.call () (.function () [] ⟨(), [.return_ () (.int () 5)]⟩) [])]⟩

theorem exists_passes_letOfReturn :
    ∃ t, Moment.Passes ⟨0, .stmts .null letOfReturn.statements, Store.single⟩ t ∧
      ¬t.Unwrapped := by
  have hrun : Runs 0 (.stmts .null letOfReturn.statements) Store.single _ _ :=
    runs_iff.mpr ⟨0, rfl⟩
  refine ⟨_, .stop .refl hrun, ?_⟩
  intro hunwrapped
  exact hunwrapped 0 _ _ rfl List.mem_cons_self rfl

/-- Nothing wrapped is bound at first, and then the name is bound to the wrapped value. -/
theorem letOfReturn_binds_wrapped :
    Store.single.Unwrapped ∧
      ¬∀ t, Moment.Passes ⟨0, .stmts .null letOfReturn.statements, Store.single⟩ t →
        t.Unwrapped := by
  obtain ⟨t, ht, hwrapped⟩ := exists_passes_letOfReturn
  exact ⟨Store.unwrapped_single, fun h => hwrapped (h t ht)⟩

/-- What an `if` results in is bound as it is, and what a call results in is not. -/
theorem letOfReturn_and_letOfCall :
    0 < Store.single.frames.size ∧ Store.single.Unwrapped ∧
      (¬∀ m, Moment.Visits ⟨0, .stmts .null letOfReturn.statements, Store.single⟩ m →
        ¬m.BindsWrapped) ∧
      ∀ t, Moment.Passes ⟨0, .stmts .null letOfCall.statements, Store.single⟩ t →
        t.Unwrapped := by
  have henv : 0 < Store.single.frames.size := by decide
  have hs := Store.unwrapped_single
  refine ⟨henv, hs, fun hnone => ?_, (unwrapped_iff henv hs).2 ?_ ?_⟩
  · obtain ⟨t, ht, hwrapped⟩ := exists_passes_letOfReturn
    exact hwrapped ((unwrapped_iff henv hs).1.mpr hnone t ht)
  · simp [letOfCall, Program.Disciplined, Stmt.AllDisciplined, Stmt.Disciplined,
      Expr.Disciplined, Expr.AllDisciplined, Block.Disciplined]
  · intro i f b c hf hb
    exact absurd hb (Store.not_mem_bindings_single hf)

end Monkey
