import Monkey.Proofs.Store.Lookup

/-!
# Well-formed stores

In a well-formed store nothing is referred to that was not made yet: the objects that are
bound have numbers that were given away, functions were made in frames that are there, and
every frame lies in an older one. Together with a region that nothing leads out of, this is
what evaluation keeps.

What is seen from a frame hangs on the frames that one gets to from it, and on no others
(`Store.get?_of_reaches`, `Store.Reaches.of_frames_eq`).
-/

namespace Monkey

/-- The objects that the value consists of were made in the store, and the frames that
functions in it were made in are there. -/
def Value.MadeIn (s : Store) : Value → Prop
  | bool _ | null => True
  | int i _ | error i _ => i < s.nextObject
  | returned i result => i < s.nextObject ∧ result.MadeIn s
  | closure c => c.id < s.nextObject ∧ c.env < s.frames.size

/-- The functions in the value were made in frames of the region. -/
def Value.StaysIn (R : FrameId → Prop) (v : Value) : Prop :=
  ∀ i, v.Captures i → R i

/-- Frames lie in older frames, and what they bind was made in the store. -/
structure Store.WellFormed (s : Store) : Prop where
  older : ∀ (i : FrameId) (f : Frame) (o : FrameId), s.frames[i]? = some f →
    f.outer = some o → o < i
  made : ∀ (i : FrameId) (f : Frame) (b : String × Value), s.frames[i]? = some f →
    b ∈ f.bindings → b.2.MadeIn s

/-- No number that was given away in the first store is free in the second one. -/
structure Store.Before (s s' : Store) : Prop where
  objects : s.nextObject ≤ s'.nextObject
  frames : s.frames.size ≤ s'.frames.size

/-- The store is well formed, and nothing in it leads out of the region. -/
structure Store.Sound (s : Store) (R : FrameId → Prop) : Prop where
  wellFormed : s.WellFormed
  region : s.Region R (Value.StaysIn R)

/-- The value was made in the store, and belongs to the region. -/
structure Value.BelongsTo (s : Store) (R : FrameId → Prop) (v : Value) : Prop where
  made : v.MadeIn s
  stays : v.StaysIn R

variable {s s' t : Store} {R : FrameId → Prop} {v : Value} {env i j : FrameId}

namespace Store.Before

theorem refl : s.Before s :=
  ⟨Nat.le_refl _, Nat.le_refl _⟩

theorem trans (h : s.Before s') (h' : s'.Before t) : s.Before t :=
  ⟨Nat.le_trans h.objects h'.objects, Nat.le_trans h.frames h'.frames⟩

theorem spend : s.Before s.spend :=
  ⟨Nat.le_succ _, Nat.le_refl _⟩

theorem set {name : String} : s.Before (s.set env name v) :=
  ⟨Nat.le_refl _, Nat.le_of_eq size_set.symm⟩

theorem newFrame {outer : Option FrameId} : s.Before (s.newFrame outer).2 :=
  ⟨Nat.le_refl _, size_newFrame ▸ Nat.le_succ _⟩

theorem openFrame {bs : List (String × Value)} : s.Before (s.openFrame env bs) :=
  ⟨Nat.le_of_eq nextObject_openFrame.symm, size_openFrame ▸ Nat.le_succ _⟩

end Store.Before

namespace Value

theorem MadeIn.mono (h : v.MadeIn s) (hs : s.Before s') : v.MadeIn s' := by
  induction v with
  | bool | null => trivial
  | int i | error i => exact Nat.lt_of_lt_of_le h hs.objects
  | returned i result ih => exact ⟨Nat.lt_of_lt_of_le h.1 hs.objects, ih h.2⟩
  | closure c =>
      exact ⟨Nat.lt_of_lt_of_le h.1 hs.objects, Nat.lt_of_lt_of_le h.2 hs.frames⟩

theorem MadeIn.captures_lt (h : v.MadeIn s) (hi : v.Captures i) : i < s.frames.size := by
  induction v with
  | returned j result ih => exact ih h.2 hi
  | closure c =>
      cases hi
      exact h.2
  | _ => cases hi

theorem MadeIn.unwrap (h : v.MadeIn s) : v.unwrap.MadeIn s := by
  cases v with
  | returned i result => exact h.2
  | _ => exact h

theorem StaysIn.unwrap (h : v.StaysIn R) : v.unwrap.StaysIn R := by
  cases v <;> exact h

theorem MadeIn.belongsTo (h : v.MadeIn s) : v.BelongsTo s fun _ => True :=
  ⟨h, fun _ _ => trivial⟩

namespace BelongsTo

theorem mono (h : v.BelongsTo s R) (hs : s.Before s') : v.BelongsTo s' R :=
  ⟨h.made.mono hs, h.stays⟩

theorem unwrap (h : v.BelongsTo s R) : v.unwrap.BelongsTo s R :=
  ⟨h.made.unwrap, h.stays.unwrap⟩

end BelongsTo

end Value

/-! ## Steps -/

namespace Store

theorem wellFormed_empty : empty.WellFormed := by
  constructor
  · intro i f o hf
    simp [empty] at hf
  · intro i f b hf
    simp [empty] at hf

namespace WellFormed

/-- What is bound was made in the store: said as for regions. -/
theorem region (h : s.WellFormed) : s.Region (fun _ => True) (Value.MadeIn s) :=
  ⟨fun _ _ => trivial, fun _ _ _ _ _ _ => trivial, fun i f b _ => h.made i f b⟩

/-- All frames are a region. -/
theorem sound (h : s.WellFormed) : s.Sound fun _ => True :=
  ⟨h, fun _ _ => trivial, fun _ _ _ _ _ _ => trivial, fun _ _ _ _ _ _ _ _ => trivial⟩

theorem spend (h : s.WellFormed) : s.spend.WellFormed :=
  ⟨h.older, fun i f b hf hb => (h.made i f b hf hb).mono .spend⟩

theorem set {name : String} (h : s.WellFormed) (hv : v.MadeIn s) :
    (s.set env name v).WellFormed := by
  constructor
  · intro i f o hf ho
    rw [getElem?_set] at hf
    split at hf
    · obtain ⟨g, hg, rfl⟩ := Option.map_eq_some_iff.mp hf
      exact h.older i g o hg ho
    · exact h.older i f o hf ho
  · intro i f b hf hb
    exact ((h.region.set hv).bound i f b trivial hf hb).mono .set

theorem newFrame {outer : Option FrameId} (h : s.WellFormed)
    (houter : ∀ o, outer = some o → o < s.frames.size) : (s.newFrame outer).2.WellFormed := by
  constructor
  · intro i f o hf ho
    rw [getElem?_newFrame] at hf
    split at hf
    next hi =>
      cases hf
      rw [hi]
      exact houter o ho
    next => exact h.older i f o hf ho
  · intro i f b hf hb
    rw [getElem?_newFrame] at hf
    split at hf
    · cases hf
      cases hb
    · exact (h.made i f b hf hb).mono .newFrame

theorem bindAll {bs : List (String × Value)} (h : s.WellFormed)
    (hbs : ∀ b ∈ bs, b.2.MadeIn s) : (s.bindAll env bs).WellFormed := by
  induction bs generalizing s with
  | nil => exact h
  | cons b bs ih =>
      obtain ⟨hb, hbs⟩ := List.forall_mem_cons.mp hbs
      exact ih (h.set hb) fun b' hb' => (hbs b' hb').mono .set

end WellFormed

theorem wellFormed_single : single.WellFormed :=
  wellFormed_empty.newFrame nofun

namespace Sound

theorem spend (h : s.Sound R) : s.spend.Sound R :=
  ⟨h.wellFormed.spend, h.region.spend⟩

theorem set {name : String} (h : s.Sound R) (hv : v.BelongsTo s R) :
    (s.set env name v).Sound R :=
  ⟨h.wellFormed.set hv.made, h.region.set hv.stays⟩

/-- A frame inside one of the region, with bindings to what belongs to the region. -/
theorem openBindings {c : Closure} {bs : List (String × Value)} (h : s.Sound R)
    (hc : (Value.closure c).BelongsTo s R) (hbs : ∀ b ∈ bs, b.2.BelongsTo s R) :
    (s.openFrame c.env bs).Sound R := by
  constructor
  · have houter : ∀ o, some c.env = some o → o < s.frames.size := by
      rintro o ⟨⟩
      exact hc.made.2
    exact (h.wellFormed.newFrame houter).bindAll fun b hb => (hbs b hb).made.mono .newFrame
  · exact (h.region.newFrame (hc.stays c.env rfl)).bindAll fun b hb => (hbs b hb).stays

/-- The frame of a call belongs to every region that the function belongs to. -/
theorem openFrame {c : Closure} {vs : List Value} (h : s.Sound R)
    (hc : (Value.closure c).BelongsTo s R) (hvs : ∀ v ∈ vs, v.BelongsTo s R) :
    (s.openFrame c.env (c.params.zip vs)).Sound R :=
  h.openBindings hc fun b hb => hvs b.2 (List.of_mem_zip hb).2

theorem get? {name : String} (h : s.Sound R) (henv : R env) (hname : s.get? env name = some v) :
    v.BelongsTo s R :=
  ⟨h.wellFormed.region.get? trivial hname, h.region.get? henv hname⟩

end Sound

/-! ## What one gets to -/

/-- Nothing leads out of a region. -/
theorem Region.reaches (h : s.Region R (Value.StaysIn R)) (hi : R i) (hij : s.Reaches i j) :
    R j := by
  induction hij with
  | self => exact hi
  | outer _ hf ho ih => exact h.outer _ _ _ ih hf ho
  | captured _ hf hb hk ih => exact h.bound _ _ _ ih hf hb _ hk

theorem Reaches.lt_size (h : s.Reaches i j) (hs : s.WellFormed) (hi : i < s.frames.size) :
    j < s.frames.size := by
  induction h with
  | self => exact hi
  | outer _ hf ho ih => exact Nat.lt_trans (hs.older _ _ _ hf ho) ih
  | captured _ hf hb hk _ => exact (hs.made _ _ _ hf hb).captures_lt hk

/-- From a frame that binds nothing and lies in no other one, one gets nowhere. -/
theorem Reaches.eq_of_empty (h : s.Reaches i j) (hi : s.frames[i]? = some (.empty none)) :
    j = i := by
  induction h with
  | self => rfl
  | outer _ hf ho ih =>
      rw [ih, hi] at hf
      cases hf
      cases ho
  | captured _ hf hb _ ih =>
      rw [ih, hi] at hf
      cases hf
      cases hb

/-- The frames that one gets to from a frame are a region that the frame can be evaluated
in. -/
theorem WellFormed.sound_reachedFrom (h : s.WellFormed) : s.Sound (s.ReachedFrom env) :=
  ⟨h, region_reachedFrom fun _ _ _ hi hf hb _ hk => .inl (.captured hi hf hb hk)⟩

/-- If the frames that one gets to are the same in another store, one gets to no others
there. -/
theorem Reaches.of_frames_eq (h : t.Reaches i j)
    (hframes : ∀ k, s.Reaches i k → t.frames[k]? = s.frames[k]?) : s.Reaches i j := by
  induction h with
  | self => exact .self
  | outer _ hf ho ih => exact .outer ih (hframes _ ih ▸ hf) ho
  | captured _ hf hb hk ih => exact .captured ih (hframes _ ih ▸ hf) hb hk

theorem Reaches.outer? {k : FrameId} {o : { o : FrameId // o < k }} (h : s.Reaches i k)
    (ho : s.outer? k = some o) : s.Reaches i o.1 := by
  obtain ⟨f, hf, hfo⟩ := exists_frame_of_outer? ho
  exact .outer h hf hfo

/-- If the frames that one gets to are the same in another store, the same is seen
there. -/
theorem get?_of_reaches {j : FrameId} {m : String}
    (hframes : ∀ k, s.Reaches i k → t.frames[k]? = s.frames[k]?) (hj : s.Reaches i j) :
    t.get? j m = s.get? j m := by
  have hlocal : t.getLocal? j m = s.getLocal? j m := by
    unfold getLocal?
    rw [hframes j hj]
  have houter : t.outer? j = s.outer? j := by
    unfold outer?
    rw [hframes j hj]
  rw [get?_eq, get?_eq, hlocal, houter]
  match ho : s.outer? j with
  | none => rfl
  | some ⟨o, hlt⟩ =>
      have houtside : t.get? o m = s.get? o m := get?_of_reaches hframes (hj.outer? ho)
      rw [Option.bind_some, Option.bind_some, houtside]
termination_by j

end Store

end Monkey
