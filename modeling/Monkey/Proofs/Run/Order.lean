import Monkey.Proofs.Run.Visits
import Monkey.Proofs.Run.WellFormed

/-!
# The order of evaluation

The evaluations that one is made of do not overlap: of any two of them one is a part of the
other, or has come to an end before the other one begins (`Moment.Visits.ordered`). What is
first made in one of them has a lower number than what is first made behind it.
-/

namespace Monkey

variable {env : FrameId} {φ ψ χ : Task} {s s' : Store} {v : Value} {o : Outcome}

/-! ## Numbers are given away in turn -/

theorem Eval.Plain.objects_le {x : Eval Value} (h : x.Plain) (hx : x s = some (v, s')) :
    s.nextObject ≤ s'.nextObject := by
  cases h with
  | bool =>
      cases hx
      exact Nat.le_refl _
  | int | error =>
      cases hx
      exact Nat.le_succ _

theorem Runs.objects_le (h : Runs env φ s o s') : s.nextObject ≤ s'.nextObject := by
  induction h with
  | error _ _ _ ih | noElse _ _ _ ih | let_ _ _ ih | expr _ ih | inner _ ih | stop _ _ ih
  | block _ ih => exact ih
  | ident | bool | noArgs | done => exact Nat.le_refl _
  | unbound | int | function | wrongCount | notAFunction => exact Nat.le_succ _
  | unary _ _ hop ih => exact Nat.le_trans ih ((plain_evalUnary _ _).objects_le hop)
  | binary _ _ _ _ hop ihl ihr =>
      exact Nat.le_trans ihl (Nat.le_trans ihr ((plain_evalBinary _ _ _).objects_le hop))
  | rightError _ _ _ _ ih₁ ih₂ | then_ _ _ _ _ ih₁ ih₂ | else_ _ _ _ _ ih₁ ih₂
  | argsError _ _ _ ih₁ ih₂ | laterError _ _ _ ih₁ ih₂ | moreArgs _ _ _ ih₁ ih₂
  | next _ _ _ ih₁ ih₂ => exact Nat.le_trans ih₁ ih₂
  | call _ _ _ _ ih₁ ih₂ ih₃ => exact Nat.le_trans ih₁ (Nat.le_trans ih₂ ih₃)
  | return_ _ _ ih => exact Nat.le_succ_of_le ih
  | apply _ _ ih =>
      rw [Store.nextObject_bindAll] at ih
      exact ih

/-! ## First parts -/

theorem Task.Heads.unique (h : φ.Heads ψ) (h' : χ.Heads ψ) : χ = φ := by
  cases h <;> cases h' <;> rfl

/-- What is evaluated first comes to an end if the whole does, and before it. -/
theorem Task.Heads.ends (h : φ.Heads ψ) (hrun : Runs env ψ s o s') :
    ∃ v s₁, Runs env φ s (.value v) s₁ ∧ s₁.nextObject ≤ s'.nextObject := by
  cases hrun with
  | error hheads hv =>
      cases h.unique hheads
      exact ⟨_, _, hv, Nat.le_refl _⟩
  | unary hv _ hop =>
      cases h
      exact ⟨_, _, hv, (plain_evalUnary _ _).objects_le hop⟩
  | binary hv _ hw _ hop =>
      cases h
      exact ⟨_, _, hv, Nat.le_trans hw.objects_le ((plain_evalBinary _ _ _).objects_le hop)⟩
  | rightError hv _ hw _ | then_ hv _ _ hw | else_ hv _ _ hw | argsError hv _ hw
  | laterError hv _ hw | moreArgs hv _ hw =>
      cases h
      exact ⟨_, _, hv, hw.objects_le⟩
  | noElse hv | let_ hv =>
      cases h
      exact ⟨_, _, hv, Nat.le_refl _⟩
  | call hv _ hvs hw =>
      cases h
      exact ⟨_, _, hv, Nat.le_trans hvs.objects_le hw.objects_le⟩
  | return_ hv =>
      cases h
      exact ⟨_, _, hv, Nat.le_succ _⟩
  | _ => cases h

theorem Runs.value_unique {w : Value} {s₁ s₂ : Store} (h : Runs env φ s (.value v) s₁)
    (h' : Runs env φ s (.value w) s₂) : w = v ∧ s₂ = s₁ := by
  obtain ⟨heq, rfl⟩ := h.unique h'
  cases heq
  exact ⟨rfl, rfl⟩

/-- What is evaluated first does not both result in an error and not. -/
theorem Task.Heads.not_isError {w : Value} {s₁ s₂ : Store} (h : φ.Heads ψ) (h' : χ.Heads ψ)
    (hv : Runs env φ s (.value v) s₁) (hw : Runs env χ s (.value w) s₂) (herror : ¬v.isError) :
    ¬w.isError := by
  cases h.unique h'
  obtain ⟨rfl, -⟩ := hv.value_unique hw
  exact herror

namespace Moment

variable {m m' m₁ m₂ a b : Moment}

/-- The first evaluation has come to an end when the second one begins, and has given away
lower numbers only. -/
def EndsBefore (m m' : Moment) : Prop :=
  ∃ o t, Runs m.env m.task m.store o t ∧ t.nextObject ≤ m'.store.nextObject

/-! ## Parts of an evaluation -/

theorem Enters.objects_le (h : m.Enters m') : m.store.nextObject ≤ m'.store.nextObject := by
  cases h with
  | head | expr | inner | stmt | block => exact Nat.le_refl _
  | right hrun | then_ hrun | else_ hrun | args hrun | later hrun | next hrun =>
      exact hrun.objects_le
  | call hf _ hes => exact Nat.le_trans hf.objects_le hes.objects_le
  | body => exact Nat.le_of_eq Store.nextObject_openFrame.symm

theorem Visits.objects_le (h : m.Visits m') : m.store.nextObject ≤ m'.store.nextObject := by
  induction h with
  | refl => exact Nat.le_refl _
  | tail _ henters ih => exact Nat.le_trans ih henters.objects_le

/-- A part comes to an end if the whole does, and not after it. -/
theorem Enters.ends (h : m.Enters m') (hrun : Runs m.env m.task m.store o s') :
    ∃ o' t, Runs m'.env m'.task m'.store o' t ∧ t.nextObject ≤ s'.nextObject := by
  cases h with
  | head hheads =>
      obtain ⟨v, t, hv, hle⟩ := hheads.ends hrun
      exact ⟨_, t, hv, hle⟩
  | right hv herror =>
      cases hrun with
      | error hheads hw hwerror =>
          exact absurd hwerror (Task.Heads.left.not_isError hheads hv hw herror)
      | rightError hw _ hr _ =>
          obtain ⟨rfl, rfl⟩ := hv.value_unique hw
          exact ⟨_, _, hr, Nat.le_refl _⟩
      | binary hw _ hr _ hop =>
          obtain ⟨rfl, rfl⟩ := hv.value_unique hw
          exact ⟨_, _, hr, (plain_evalBinary _ _ _).objects_le hop⟩
  | then_ hv herror htruthy =>
      cases hrun with
      | error hheads hw hwerror =>
          exact absurd hwerror (Task.Heads.condition.not_isError hheads hv hw herror)
      | then_ hw _ _ hb =>
          obtain ⟨rfl, rfl⟩ := hv.value_unique hw
          exact ⟨_, _, hb, Nat.le_refl _⟩
      | else_ hw _ hfalse _ | noElse hw _ hfalse =>
          obtain ⟨rfl, rfl⟩ := hv.value_unique hw
          exact absurd htruthy hfalse
  | else_ hv herror hfalse =>
      cases hrun with
      | error hheads hw hwerror =>
          exact absurd hwerror (Task.Heads.condition.not_isError hheads hv hw herror)
      | then_ hw _ htruthy _ =>
          obtain ⟨rfl, rfl⟩ := hv.value_unique hw
          exact absurd htruthy hfalse
      | else_ hw _ _ hb =>
          obtain ⟨rfl, rfl⟩ := hv.value_unique hw
          exact ⟨_, _, hb, Nat.le_refl _⟩
  | args hv herror =>
      cases hrun with
      | error hheads hw hwerror =>
          exact absurd hwerror (Task.Heads.callee.not_isError hheads hv hw herror)
      | argsError hw _ hes =>
          obtain ⟨rfl, rfl⟩ := hv.value_unique hw
          exact ⟨_, _, hes, Nat.le_refl _⟩
      | call hw _ hes hcall =>
          obtain ⟨rfl, rfl⟩ := hv.value_unique hw
          exact ⟨_, _, hes, hcall.objects_le⟩
  | call hv herror hes =>
      cases hrun with
      | error hheads hw hwerror =>
          exact absurd hwerror (Task.Heads.callee.not_isError hheads hv hw herror)
      | argsError hw _ hes' =>
          obtain ⟨rfl, rfl⟩ := hv.value_unique hw
          cases (hes.unique hes').1
      | call hw _ hes' hcall =>
          obtain ⟨rfl, rfl⟩ := hv.value_unique hw
          obtain ⟨heq, rfl⟩ := hes.unique hes'
          cases heq
          exact ⟨_, _, hcall, Nat.le_refl _⟩
  | later hv herror =>
      cases hrun with
      | error hheads hw hwerror =>
          exact absurd hwerror (Task.Heads.arg.not_isError hheads hv hw herror)
      | laterError hw _ hes | moreArgs hw _ hes =>
          obtain ⟨rfl, rfl⟩ := hv.value_unique hw
          exact ⟨_, _, hes, Nat.le_refl _⟩
  | expr =>
      cases hrun with
      | error hheads => cases hheads
      | expr hv => exact ⟨_, _, hv, Nat.le_refl _⟩
  | inner =>
      cases hrun with
      | error hheads => cases hheads
      | inner hb => exact ⟨_, _, hb, Nat.le_refl _⟩
  | stmt =>
      cases hrun with
      | error hheads => cases hheads
      | stop hst _ => exact ⟨_, _, hst, Nat.le_refl _⟩
      | next hst _ hss => exact ⟨_, _, hst, hss.objects_le⟩
  | next hst hgoes =>
      cases hrun with
      | error hheads => cases hheads
      | stop hst' hstops =>
          obtain ⟨rfl, rfl⟩ := hst.value_unique hst'
          exact absurd hstops hgoes
      | next hst' _ hss =>
          obtain ⟨rfl, rfl⟩ := hst.value_unique hst'
          exact ⟨_, _, hss, Nat.le_refl _⟩
  | block =>
      cases hrun with
      | error hheads => cases hheads
      | block hss => exact ⟨_, _, hss, Nat.le_refl _⟩
  | body hcount =>
      cases hrun with
      | error hheads => cases hheads
      | apply _ hb => exact ⟨_, _, hb, Nat.le_refl _⟩
      | wrongCount hne => exact absurd hcount hne
      | notAFunction hne => exact absurd rfl hne

theorem Visits.ends (h : m.Visits m') (hrun : Runs m.env m.task m.store o s') :
    ∃ o' t, Runs m'.env m'.task m'.store o' t ∧ t.nextObject ≤ s'.nextObject := by
  induction h with
  | refl => exact ⟨_, _, hrun, Nat.le_refl _⟩
  | tail _ henters ih =>
      obtain ⟨o', t, ht, hle⟩ := ih
      obtain ⟨o'', t', ht', hle'⟩ := henters.ends ht
      exact ⟨o'', t', ht', Nat.le_trans hle' hle⟩

/-- So do the parts of the two evaluations. -/
theorem EndsBefore.visits (h : m₁.EndsBefore m₂) (ha : m₁.Visits a) (hb : m₂.Visits b) :
    a.EndsBefore b := by
  obtain ⟨o, t, hrun, hle⟩ := h
  obtain ⟨o', t', hrun', hle'⟩ := ha.ends hrun
  exact ⟨o', t', hrun', Nat.le_trans hle' (Nat.le_trans hle hb.objects_le)⟩

/-! ## Any two parts -/

/-- One of the evaluations comes before the other one, if they are not the same. -/
def Apart (m₁ m₂ : Moment) : Prop :=
  m₁ = m₂ ∨ m₁.EndsBefore m₂ ∨ m₂.EndsBefore m₁

theorem Apart.symm (h : m₁.Apart m₂) : m₂.Apart m₁ :=
  h.imp Eq.symm Or.symm

/-- What is evaluated first comes before all that is evaluated behind it. -/
theorem Enters.apart_of_heads {φ ψ : Task} {env : FrameId} (hheads : φ.Heads ψ)
    (h : Enters ⟨env, ψ, s⟩ m') : Apart ⟨env, φ, s⟩ m' := by
  cases h with
  | head hheads' =>
      cases hheads.unique hheads'
      exact .inl rfl
  | right hrun | then_ hrun | else_ hrun | args hrun | later hrun =>
      cases hheads
      exact .inr (.inl ⟨_, _, hrun, Nat.le_refl _⟩)
  | call hf _ hes =>
      cases hheads
      exact .inr (.inl ⟨_, _, hf, hes.objects_le⟩)
  | _ => cases hheads

theorem Enters.apart (h₁ : m.Enters m₁) (h₂ : m.Enters m₂) : m₁.Apart m₂ := by
  cases h₁ with
  | head hheads => exact Enters.apart_of_heads hheads h₂
  | right hv herror =>
      cases h₂ with
      | head hheads => exact (Enters.apart_of_heads hheads (.right hv herror)).symm
      | right hw _ =>
          obtain ⟨rfl, rfl⟩ := hv.value_unique hw
          exact .inl rfl
  | then_ hv herror htruthy =>
      cases h₂ with
      | head hheads => exact (Enters.apart_of_heads hheads (.then_ hv herror htruthy)).symm
      | then_ hw _ _ =>
          obtain ⟨rfl, rfl⟩ := hv.value_unique hw
          exact .inl rfl
      | else_ hw _ hfalse =>
          obtain ⟨rfl, rfl⟩ := hv.value_unique hw
          exact absurd htruthy hfalse
  | else_ hv herror hfalse =>
      cases h₂ with
      | head hheads => exact (Enters.apart_of_heads hheads (.else_ hv herror hfalse)).symm
      | then_ hw _ htruthy =>
          obtain ⟨rfl, rfl⟩ := hv.value_unique hw
          exact absurd htruthy hfalse
      | else_ hw _ _ =>
          obtain ⟨rfl, rfl⟩ := hv.value_unique hw
          exact .inl rfl
  | args hv herror =>
      cases h₂ with
      | head hheads => exact (Enters.apart_of_heads hheads (.args hv herror)).symm
      | args hw _ =>
          obtain ⟨rfl, rfl⟩ := hv.value_unique hw
          exact .inl rfl
      | call hw _ hes =>
          obtain ⟨rfl, rfl⟩ := hv.value_unique hw
          exact .inr (.inl ⟨_, _, hes, Nat.le_refl _⟩)
  | call hv herror hes =>
      cases h₂ with
      | head hheads => exact (Enters.apart_of_heads hheads (.call hv herror hes)).symm
      | args hw _ =>
          obtain ⟨rfl, rfl⟩ := hv.value_unique hw
          exact .inr (.inr ⟨_, _, hes, Nat.le_refl _⟩)
      | call hw _ hes' =>
          obtain ⟨rfl, rfl⟩ := hv.value_unique hw
          obtain ⟨heq, rfl⟩ := hes.unique hes'
          cases heq
          exact .inl rfl
  | later hv herror =>
      cases h₂ with
      | head hheads => exact (Enters.apart_of_heads hheads (.later hv herror)).symm
      | later hw _ =>
          obtain ⟨rfl, rfl⟩ := hv.value_unique hw
          exact .inl rfl
  | expr | inner | block | body =>
      cases h₂ with
      | head hheads => cases hheads
      | _ => exact .inl rfl
  | stmt =>
      cases h₂ with
      | head hheads => cases hheads
      | stmt => exact .inl rfl
      | next hst _ => exact .inr (.inl ⟨_, _, hst, Nat.le_refl _⟩)
  | next hst hgoes =>
      cases h₂ with
      | head hheads => cases hheads
      | stmt => exact .inr (.inr ⟨_, _, hst, Nat.le_refl _⟩)
      | next hst' _ =>
          obtain ⟨rfl, rfl⟩ := hst.value_unique hst'
          exact .inl rfl

/-- Of two evaluations that another one is made of, one is a part of the other, or comes before
it. -/
theorem Visits.ordered (ha : m.Visits a) (hb : m.Visits b) :
    a.Visits b ∨ b.Visits a ∨ a.EndsBefore b ∨ b.EndsBefore a := by
  induction ha using Relation.ReflTransGen.head_induction_on with
  | refl => exact .inl hb
  | head henters hvisits ih =>
      obtain rfl | ⟨m₂, henters', hvisits'⟩ := Relation.ReflTransGen.cases_head hb
      · exact .inr (.inl (.head henters hvisits))
      obtain rfl | hbefore | hbehind := henters.apart henters'
      · exact ih hvisits'
      · exact .inr (.inr (.inl (hbefore.visits hvisits hvisits')))
      · exact .inr (.inr (.inr (hbehind.visits hvisits' hvisits)))

end Moment

end Monkey
