import Monkey.Proofs.Run.Adequacy

/-!
# Computations that are left at once

Errors and results of `return` statements are values, and every construct looks for them
in what its parts result in. In the computations here a value can be thrown instead, and
nothing between the throw and the place where it is caught comes to see it.

Two such computations agree, from stores with some invariant, if they give the same
answer. Programs are put together from smaller ones by binding, so it is enough to compare
the parts (`Agree.bind`).
-/

namespace Monkey

open Eval

/-- A computation that can be left with a value. -/
abbrev Throwing (α : Type) : Type :=
  ExceptT Value Eval α

namespace Throwing

variable {α β : Type}

/-- What the computation answers, or what it is left with. -/
def caught (x : Throwing Value) : Eval Value := do
  match ← x.run with
  | .ok v => return v
  | .error v => return v

/-- The evaluation, with those of its answers thrown that `sort` throws. -/
def ofEval (sort : Value → Except Value Value) (x : Eval Value) : Throwing Value :=
  ExceptT.mk (sort <$> x)

/-- The answer is of the one sort, or what is thrown of the other. -/
def Ends (P : α → Prop) (E : Value → Prop) : Except Value α → Prop
  | .ok a => P a
  | .error v => E v

/-- In the store the computations come to the same end: an answer that satisfies `P`, or a
throw of a value that satisfies `E`, and a store with the invariant `I`. -/
def AgreeAt (I : Store → Prop) (P : α → Prop) (E : Value → Prop) (x y : Throwing α)
    (s : Store) : Prop :=
  x s = y s ∧ ∀ r s', x s = some (r, s') → I s' ∧ Ends P E r

/-- The computations come to the same end in all stores with the invariant. -/
def Agree (I : Store → Prop) (P : α → Prop) (E : Value → Prop) (x y : Throwing α) : Prop :=
  ∀ s, I s → AgreeAt I P E x y s

variable {I : Store → Prop} {P : α → Prop} {Q : β → Prop} {E : Value → Prop}
  {x y : Throwing α} {f g : α → Throwing β} {s s' : Store}

theorem bind_of_none (h : x s = none) : (x >>= f) s = none := by
  change (x s).bind _ = none
  rw [h]
  rfl

theorem bind_of_ok {a : α} (h : x s = some (.ok a, s')) : (x >>= f) s = f a s' := by
  change (x s).bind _ = _
  rw [h]
  rfl

theorem bind_of_error {v : Value} (h : x s = some (.error v, s')) :
    (x >>= f) s = some (.error v, s') := by
  change (x s).bind _ = _
  rw [h]
  rfl

variable {sort : Value → Except Value Value} {v : Value}

theorem ofEval_pure : ofEval sort (pure v) = ExceptT.mk (pure (sort v)) :=
  map_pure sort v

theorem mk_bind {x : Eval α} {f : α → Eval (Except Value β)} :
    ExceptT.mk (x >>= f) = (liftM x >>= fun a => ExceptT.mk (f a) : Throwing β) := by
  funext s
  change (x s).bind (fun p => f p.1 p.2) =
    ((x s).bind fun p => some (Except.ok p.1, p.2)).bind _
  cases x s with
  | none => rfl
  | some p => rfl

theorem ofEval_bind {x : Eval α} {f : α → Eval Value} :
    ofEval sort (x >>= f) = liftM x >>= fun a => ofEval sort (f a) := by
  rw [ofEval, map_bind, mk_bind]
  rfl

theorem ofEval_bind_eq {x : Eval Value} {f : Value → Throwing β} :
    ofEval sort x >>= f = liftM x >>= fun v => ExceptT.mk (pure (sort v)) >>= f := by
  have hx : ofEval sort x = liftM x >>= fun v => ExceptT.mk (pure (sort v)) := by
    rw [← bind_pure x, ofEval_bind, bind_pure]
    rfl
  rw [hx, bind_assoc]

/-- If nothing is done for what is thrown, then what is done is done for the answers. -/
theorem ofEval_bind_of_stops {x : Eval Value} {f : Value → Eval Value}
    (hf : ∀ v, sort v = .ok v ∨ (∃ w, sort v = .error w) ∧ f v = pure v) :
    ofEval sort (x >>= f) = ofEval sort x >>= fun v => ofEval sort (f v) := by
  rw [ofEval_bind, ofEval_bind_eq]
  refine bind_congr fun v => ?_
  obtain hok | ⟨⟨w, herror⟩, hpure⟩ := hf v
  · rw [hok]
    rfl
  · rw [herror, hpure, ofEval_pure, herror]
    rfl

theorem ofEval_congr {x y : Eval Value} (h : x s = y s) : ofEval sort x s = ofEval sort y s := by
  change (x s).bind _ = (y s).bind _
  rw [h]

theorem lift_congr {x y : Eval α} {t : Store} (h : x s = y t) :
    (liftM x : Throwing α) s = (liftM y : Throwing α) t := by
  change (x s).bind _ = (y t).bind _
  rw [h]

theorem ofEval_of_none {x : Eval Value} (h : x s = none) : ofEval sort x s = none := by
  change (x s).bind _ = none
  rw [h]
  rfl

theorem ofEval_of_some {x : Eval Value} (h : x s = some (v, s')) :
    ofEval sort x s = some (sort v, s') := by
  change (x s).bind _ = _
  rw [h]
  rfl

theorem caught_congr {x y : Throwing Value} (h : x s = y s) : caught x s = caught y s := by
  change (x s).bind _ = (y s).bind _
  rw [h]

theorem lift_of_none {x : Eval α} (h : x s = none) : (liftM x : Throwing α) s = none := by
  change (x s).bind _ = none
  rw [h]
  rfl

theorem lift_of_some {x : Eval α} {a : α} (h : x s = some (a, s')) :
    (liftM x : Throwing α) s = some (.ok a, s') := by
  change (x s).bind _ = _
  rw [h]
  rfl

theorem AgreeAt.congr {x' y' : Throwing α} {t : Store} (h : AgreeAt I P E x' y' t)
    (hx : x s = x' t) (hy : y s = y' t) : AgreeAt I P E x y s := by
  unfold AgreeAt
  rw [hx, hy]
  exact h

theorem agreeAt_some {r : Except Value α} (hx : x s = some (r, s')) (hy : y s = some (r, s'))
    (hs : I s') (hr : Ends P E r) : AgreeAt I P E x y s := by
  refine ⟨hx.trans hy.symm, fun r' t h => ?_⟩
  cases hx.symm.trans h
  exact ⟨hs, hr⟩

theorem agreeAt_none (hx : x s = none) (hy : y s = none) : AgreeAt I P E x y s := by
  refine ⟨hx.trans hy.symm, fun r t h => ?_⟩
  cases hx.symm.trans h

namespace Agree

theorem pure {a : α} (h : P a) : Agree I P E (pure a) (pure a) :=
  fun _ hs => agreeAt_some rfl rfl hs h

/-- An evaluation that throws nothing agrees with itself. -/
theorem lift {x : Eval α} (h : ∀ s a s', I s → x s = some (a, s') → I s' ∧ P a) :
    Agree I P E (liftM x) (liftM x) := by
  refine fun s hs => ⟨rfl, fun r s' hr => ?_⟩
  obtain ⟨a, ha, rfl⟩ := map_eq_some_iff.mp hr
  exact h s a s' hs ha

theorem ofEval {x : Eval Value} {P : Value → Prop}
    (h : ∀ s v s', I s → x s = some (v, s') → I s' ∧ Ends P E (sort v)) :
    Agree I P E (ofEval sort x) (ofEval sort x) := by
  refine fun s hs => ⟨rfl, fun r s' hr => ?_⟩
  obtain ⟨v, hv, rfl⟩ := map_eq_some_iff.mp hr
  exact h s v s' hs hv

theorem bind (hx : Agree I P E x y) (hf : ∀ a, P a → Agree I Q E (f a) (g a)) :
    Agree I Q E (x >>= f) (y >>= g) := by
  intro s hs
  obtain ⟨heq, hends⟩ := hx s hs
  match hr : x s with
  | none => exact agreeAt_none (bind_of_none hr) (bind_of_none (heq ▸ hr))
  | some (.error v, s₁) =>
      obtain ⟨hs₁, hv⟩ := hends _ _ hr
      exact agreeAt_some (bind_of_error hr) (bind_of_error (heq ▸ hr)) hs₁ hv
  | some (.ok a, s₁) =>
      obtain ⟨hs₁, ha⟩ := hends _ _ hr
      exact (hf a ha s₁ hs₁).congr (bind_of_ok hr) (bind_of_ok (heq ▸ hr))

theorem throw {v : Value} (h : E v) : Agree I P E (throw v) (throw v) :=
  fun _ hs => agreeAt_some rfl rfl hs h

theorem imp {E' : Value → Prop} (h : Agree I P E x y) (hE : ∀ v, E v → E' v) :
    Agree I P E' x y := by
  intro s hs
  obtain ⟨heq, hends⟩ := h s hs
  refine ⟨heq, fun r s' hr => ?_⟩
  obtain ⟨hs', hr⟩ := hends r s' hr
  cases r with
  | error v => exact ⟨hs', hE v hr⟩
  | ok a => exact ⟨hs', hr⟩

end Agree

/-! ## Regions -/

section Region

variable {R : FrameId → Prop} {S : Value → Prop} {env outer : FrameId} {name : String}
  {bs : List (String × Value)}

theorem agree_freshId :
    Agree (·.Region R S) (fun _ => True) E (liftM freshId) (liftM freshId) := by
  refine .lift fun s id s' hs h => ?_
  cases h
  exact ⟨hs.spend, trivial⟩

theorem agree_bindName (hv : S v) :
    Agree (·.Region R S) (fun _ => True) E (liftM (bindName env name v))
      (liftM (bindName env name v)) := by
  refine .lift fun s _ s' hs h => ?_
  cases h
  exact ⟨hs.set hv, trivial⟩

theorem agree_enclose (houter : R outer) :
    Agree (·.Region R S) R E (liftM (enclose outer)) (liftM (enclose outer)) := by
  refine .lift fun s i s' hs h => ?_
  cases h
  exact ⟨hs.newFrame houter, hs.later _ (Nat.le_refl _)⟩

theorem agree_bindAll (hbs : ∀ b ∈ bs, S b.2) :
    Agree (·.Region R S) (fun _ => True) E (liftM (bindAll env bs))
      (liftM (bindAll env bs)) := by
  refine .lift fun s _ s' hs h => ?_
  rw [bindAll_apply] at h
  cases h
  exact ⟨hs.bindAll hbs, trivial⟩

end Region

end Throwing

end Monkey
