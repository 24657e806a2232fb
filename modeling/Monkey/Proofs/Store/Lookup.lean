import Mathlib.Data.List.Forall2
import Monkey.Proofs.Store.Region

/-!
# What frames bind and see

A frame sees what it binds itself, and otherwise what the frame around it sees
(`Store.get?_eq`). Binding names changes what one frame binds, and a new frame leaves what
is there as it was. Two stores in which the same is done keep binding what is alike.
-/

namespace Monkey

namespace Store

variable {s t : Store} {env i j : FrameId} {m : String} {outer : Option FrameId}

theorem get?_eq (s : Store) (i : FrameId) (m : String) :
    s.get? i m = (s.getLocal? i m).or ((s.outer? i).bind fun o => s.get? o.1 m) := by
  rw [get?]
  cases s.getLocal? i m with
  | some v => rfl
  | none => cases s.outer? i <;> rfl

theorem outer?_bindAll {bs : List (String × Value)} :
    (s.bindAll env bs).outer? i = s.outer? i := by
  induction bs generalizing s with
  | nil => rfl
  | cons b bs ih => exact ih.trans (outer?_set s env i b.1 b.2)

theorem nextObject_bindAll {bs : List (String × Value)} :
    (s.bindAll env bs).nextObject = s.nextObject := by
  induction bs generalizing s with
  | nil => rfl
  | cons b bs ih => exact ih

theorem getLocal?_bindAll_of_ne {bs : List (String × Value)} (hne : env ≠ i) :
    (s.bindAll env bs).getLocal? i m = s.getLocal? i m := by
  induction bs generalizing s with
  | nil => rfl
  | cons b bs ih =>
      refine ih.trans ?_
      rw [getLocal?_set, if_neg fun h => hne h.1]

theorem isSome_getLocal?_set {name : String} {v : Value} (h : (s.getLocal? i m).isSome) :
    ((s.set env name v).getLocal? i m).isSome := by
  rw [getLocal?_set]
  split
  · rfl
  · exact h

theorem isSome_getLocal?_bindAll {bs : List (String × Value)} (hi : i < s.frames.size)
    (hm : (s.getLocal? i m).isSome ∨ m ∈ bs.map Prod.fst) :
    ((s.bindAll i bs).getLocal? i m).isSome := by
  induction bs generalizing s with
  | nil => exact hm.resolve_right List.not_mem_nil
  | cons b bs ih =>
      refine ih (size_set.symm ▸ hi) ?_
      rw [getLocal?_set]
      split
      · exact .inl rfl
      next hne =>
        refine hm.imp_right fun hmem => ?_
        exact (List.mem_cons.mp hmem).resolve_left fun heq => hne ⟨rfl, hi, heq⟩

theorem outer?_newFrame (hi : i < s.frames.size) :
    (s.newFrame outer).2.outer? i = s.outer? i := by
  unfold outer?
  rw [getElem?_newFrame, if_neg (Nat.ne_of_lt hi)]

theorem outer?_newFrame_self {o : FrameId} (ho : o < s.frames.size) :
    (s.newFrame (some o)).2.outer? s.frames.size = some ⟨o, ho⟩ := by
  unfold outer?
  rw [getElem?_newFrame, if_pos rfl]
  exact dif_pos ho

theorem getLocal?_newFrame :
    (s.newFrame outer).2.getLocal? i m =
      if i = s.frames.size then none else s.getLocal? i m := by
  unfold getLocal?
  rw [getElem?_newFrame]
  split <;> rfl

/-- The store with a new frame inside another one, which binds the names. -/
def openFrame (s : Store) (outer : FrameId) (bs : List (String × Value)) : Store :=
  (s.newFrame (some outer)).2.bindAll s.frames.size bs

section OpenFrame

variable {o : FrameId} {bs : List (String × Value)}

theorem size_openFrame : (s.openFrame o bs).frames.size = s.frames.size + 1 :=
  size_bindAll.trans size_newFrame

theorem nextObject_openFrame : (s.openFrame o bs).nextObject = s.nextObject :=
  nextObject_bindAll

theorem outer?_openFrame (hi : i < s.frames.size) :
    (s.openFrame o bs).outer? i = s.outer? i :=
  outer?_bindAll.trans (outer?_newFrame hi)

theorem outer?_openFrame_self (ho : o < s.frames.size) :
    (s.openFrame o bs).outer? s.frames.size = some ⟨o, ho⟩ :=
  outer?_bindAll.trans (outer?_newFrame_self ho)

theorem getLocal?_openFrame (hi : i < s.frames.size) :
    (s.openFrame o bs).getLocal? i m = s.getLocal? i m := by
  rw [openFrame, getLocal?_bindAll_of_ne (Nat.ne_of_gt hi), getLocal?_newFrame,
    if_neg (Nat.ne_of_lt hi)]

theorem isSome_getLocal?_openFrame (hm : m ∈ bs.map Prod.fst) :
    ((s.openFrame o bs).getLocal? s.frames.size m).isSome :=
  isSome_getLocal?_bindAll (size_newFrame.symm ▸ Nat.lt_succ_self _) (.inr hm)

end OpenFrame

end Store

/-! ## Two stores -/

theorem rel_imp {α β : Type} {R R' : α → β → Prop} {x : Option α} {y : Option β}
    (himp : ∀ a b, R a b → R' a b) (h : Option.Rel R x y) : Option.Rel R' x y := by
  cases h with
  | some h => exact .some (himp _ _ h)
  | none => exact .none

theorem rel_map {α β γ δ : Type} {R : α → β → Prop} {Q : γ → δ → Prop} {x : Option α}
    {y : Option β} {f : α → γ} {g : β → δ} (h : Option.Rel R x y)
    (hfg : ∀ a b, R a b → Q (f a) (g b)) : Option.Rel Q (x.map f) (y.map g) := by
  cases h with
  | some h => exact .some (hfg _ _ h)
  | none => exact .none

theorem rel_bind {α β γ δ : Type} {R : α → β → Prop} {Q : γ → δ → Prop} {x : Option α}
    {y : Option β} {f : α → Option γ} {g : β → Option δ} (h : Option.Rel R x y)
    (hfg : ∀ a b, R a b → Option.Rel Q (f a) (g b)) : Option.Rel Q (x.bind f) (y.bind g) := by
  cases h with
  | some h => exact hfg _ _ h
  | none => exact .none

theorem exists_of_rel_some {α β : Type} {R : α → β → Prop} {a : α} {y : Option β}
    (h : Option.Rel R (some a) y) : ∃ b, y = some b ∧ R a b := by
  cases h with
  | some h => exact ⟨_, rfl, h⟩

theorem exists_of_rel_some' {α β : Type} {R : α → β → Prop} {x : Option α} {b : β}
    (h : Option.Rel R x (some b)) : ∃ a, x = some a ∧ R a b := by
  cases h with
  | some h => exact ⟨_, rfl, h⟩

namespace Store

variable {s t : Store} {i j : FrameId} {m n : String}

/-- Binding names in two frames keeps what the frames, or two others, bind alike. -/
theorem rel_getLocal?_set {R : Value → Value → Prop} {i' j' : FrameId} {m' n' : String}
    {v u : Value} (hi : i < s.frames.size) (hj : j < t.frames.size)
    (hframes : i = i' ↔ j = j') (hnames : i = i' → (m' = m ↔ n' = n)) (hv : R v u)
    (h : Option.Rel R (s.getLocal? i' m') (t.getLocal? j' n')) :
    Option.Rel R ((s.set i m v).getLocal? i' m') ((t.set j n u).getLocal? j' n') := by
  have hiff : i = i' ∧ i < s.frames.size ∧ m' = m ↔
      j = j' ∧ j < t.frames.size ∧ n' = n := by
    rw [← hframes]
    exact and_congr_right fun heq => and_congr (iff_of_true hi hj) (hnames heq)
  rw [getLocal?_set, getLocal?_set]
  by_cases hset : i = i' ∧ i < s.frames.size ∧ m' = m
  · rw [if_pos hset, if_pos (hiff.mp hset)]
    exact .some hv
  · rw [if_neg hset, if_neg fun h => hset (hiff.mpr h)]
    exact h

/-- Binding names and their counterparts one after another, in two frames. -/
theorem rel_getLocal?_bindAll {R : Value → Value → Prop} {r : String → String}
    {names : List String} {vs us : List Value} (hi : i < s.frames.size)
    (hj : j < t.frames.size) (hnames : ∀ x ∈ names, m = x ↔ n = r x)
    (hvs : List.Forall₂ R vs us) (h : Option.Rel R (s.getLocal? i m) (t.getLocal? j n)) :
    Option.Rel R ((s.bindAll i (names.zip vs)).getLocal? i m)
      ((t.bindAll j ((names.map r).zip us)).getLocal? j n) := by
  induction names generalizing s t vs us with
  | nil => exact h
  | cons x names ih =>
      cases hvs with
      | nil => exact h
      | cons hv hvs =>
          obtain ⟨hx, hnames⟩ := List.forall_mem_cons.mp hnames
          refine ih (size_set.symm ▸ hi) (size_set.symm ▸ hj) hnames hvs ?_
          exact rel_getLocal?_set hi hj (iff_of_true rfl rfl) (fun _ => hx) hv h

end Store

end Monkey
