import Monkey.Store

/-!
# Regions of a store

From a frame one gets to the frames around it and to the frames that the functions bound
in it were made in. A region is a set of frames with no way out, and with nothing but
values of one sort in its frames. Whatever is evaluated in a region stays there, since
the frames that are made later belong to every region.
-/

namespace Monkey

/-- A function that was made in the frame is the value, or is wrapped in it. -/
def Value.Captures : Value → FrameId → Prop
  | closure c, i => c.env = i
  | returned _ result, i => result.Captures i
  | _, _ => False

/-- One gets from the one frame to the other. -/
inductive Store.Reaches (s : Store) (i : FrameId) : FrameId → Prop where
  | self : s.Reaches i i
  | outer {j f o} : s.Reaches i j → s.frames[j]? = some f → f.outer = some o → s.Reaches i o
  | captured {j f b k} : s.Reaches i j → s.frames[j]? = some f → b ∈ f.bindings →
      b.2.Captures k → s.Reaches i k

/-- The frames in `R`, and all those to come, lead to each other only, and bind nothing but
values that satisfy `P`. -/
structure Store.Region (s : Store) (R : FrameId → Prop) (P : Value → Prop) : Prop where
  later : ∀ i, s.frames.size ≤ i → R i
  outer : ∀ i f o, R i → s.frames[i]? = some f → f.outer = some o → R o
  bound : ∀ i f b, R i → s.frames[i]? = some f → b ∈ f.bindings → P b.2

/-- A store with one frame, which binds nothing. -/
def Store.single : Store :=
  (Store.empty.newFrame none).2

/-- The store after an object was made. -/
def Store.spend (s : Store) : Store :=
  { s with nextObject := s.nextObject + 1 }

/-- Bind names in a frame, from left to right. -/
def Store.bindAll (s : Store) (env : FrameId) : List (String × Value) → Store
  | [] => s
  | (name, v) :: bs => (s.set env name v).bindAll env bs

namespace Frame

variable {f : Frame} {name m : String} {v : Value}

theorem mem_bindings_of_get? (h : f.get? name = some v) : (name, v) ∈ f.bindings := by
  unfold get? at h
  generalize f.bindings = bs at h ⊢
  induction bs with
  | nil => cases h
  | cons b bs ih =>
      obtain ⟨k, w⟩ := b
      rw [List.lookup_cons] at h
      split at h
      next heq =>
        cases h
        rw [beq_iff_eq.mp heq]
        exact List.mem_cons_self
      next => exact List.mem_cons_of_mem _ (ih h)

theorem mem_bindings_set {b : String × Value} (h : b ∈ (f.set name v).bindings) :
    b = (name, v) ∨ b ∈ f.bindings := by
  obtain rfl | hmem := List.mem_cons.mp h
  · exact .inl rfl
  · exact .inr (List.mem_filter.mp hmem).1

end Frame

namespace Store

variable {s s' : Store} {R : FrameId → Prop} {P : Value → Prop} {env i : FrameId}
  {name : String} {v : Value}

theorem size_set : (s.set env name v).frames.size = s.frames.size :=
  Array.size_modify

theorem getElem?_set :
    (s.set env name v).frames[i]? =
      if env = i then s.frames[i]?.map (·.set name v) else s.frames[i]? :=
  Array.getElem?_modify

theorem size_bindAll {bs : List (String × Value)} :
    (s.bindAll env bs).frames.size = s.frames.size := by
  induction bs generalizing s with
  | nil => rfl
  | cons b bs ih => exact ih.trans size_set

theorem size_newFrame {outer : Option FrameId} :
    (s.newFrame outer).2.frames.size = s.frames.size + 1 :=
  Array.size_push _

theorem getElem?_newFrame {outer : Option FrameId} :
    (s.newFrame outer).2.frames[i]? =
      if i = s.frames.size then some (.empty outer) else s.frames[i]? :=
  Array.getElem?_push

theorem exists_frame_of_outer? {o : { o : FrameId // o < i }} (h : s.outer? i = some o) :
    ∃ f, s.frames[i]? = some f ∧ f.outer = some o.1 := by
  unfold outer? at h
  split at h
  next j hj =>
    obtain ⟨f, hf, houter⟩ := Option.bind_eq_some_iff.mp hj
    split at h
    · cases h
      exact ⟨f, hf, houter⟩
    · cases h
  next => cases h

theorem exists_frame_of_getLocal? (h : s.getLocal? i name = some v) :
    ∃ f, s.frames[i]? = some f ∧ (name, v) ∈ f.bindings := by
  obtain ⟨f, hf, hv⟩ := Option.bind_eq_some_iff.mp h
  exact ⟨f, hf, Frame.mem_bindings_of_get? hv⟩

theorem not_mem_bindings_single {f : Frame} {b : String × Value}
    (hf : single.frames[i]? = some f) : b ∉ f.bindings := by
  rw [single, getElem?_newFrame] at hf
  split at hf
  · cases hf
    exact List.not_mem_nil
  · cases hf

namespace Region

theorem of_frames_eq (h : s.Region R P) (heq : s'.frames = s.frames) : s'.Region R P := by
  obtain ⟨hlater, houter, hbound⟩ := h
  rw [← heq] at hlater houter hbound
  exact ⟨hlater, houter, hbound⟩

theorem spend (h : s.Region R P) : s.spend.Region R P :=
  h.of_frames_eq rfl

/-- What a frame of the region sees is of the right sort. -/
theorem get? {env : FrameId} (h : s.Region R P) (henv : R env)
    (hname : s.get? env name = some v) : P v := by
  rw [Store.get?] at hname
  split at hname
  next w hlocal =>
    cases hname
    obtain ⟨f, hf, hmem⟩ := exists_frame_of_getLocal? hlocal
    exact h.bound env f _ henv hf hmem
  next =>
    split at hname
    next o hlt houter =>
      obtain ⟨f, hf, hfo⟩ := exists_frame_of_outer? houter
      exact h.get? (h.outer env f o henv hf hfo) hname
    next => cases hname
termination_by env

theorem set (h : s.Region R P) (hv : P v) : (s.set env name v).Region R P := by
  refine ⟨fun i hi => h.later i (size_set ▸ hi), ?_, ?_⟩
  · intro i f o hi hf ho
    rw [getElem?_set] at hf
    split at hf
    · obtain ⟨g, hg, rfl⟩ := Option.map_eq_some_iff.mp hf
      exact h.outer i g o hi hg ho
    · exact h.outer i f o hi hf ho
  · intro i f b hi hf hb
    rw [getElem?_set] at hf
    split at hf
    · obtain ⟨g, hg, rfl⟩ := Option.map_eq_some_iff.mp hf
      obtain rfl | hmem := Frame.mem_bindings_set hb
      · exact hv
      · exact h.bound i g b hi hg hmem
    · exact h.bound i f b hi hf hb

theorem bindAll {bs : List (String × Value)} (h : s.Region R P) (hbs : ∀ b ∈ bs, P b.2) :
    (s.bindAll env bs).Region R P := by
  induction bs generalizing s with
  | nil => exact h
  | cons b bs ih =>
      obtain ⟨hb, hbs⟩ := List.forall_mem_cons.mp hbs
      exact ih (h.set hb) hbs

theorem newFrame (h : s.Region R P) (henv : R env) : (s.newFrame (some env)).2.Region R P := by
  refine ⟨fun i hi => ?_, ?_, ?_⟩
  · rw [size_newFrame] at hi
    exact h.later i (Nat.le_of_succ_le hi)
  · intro i f o hi hf ho
    rw [getElem?_newFrame] at hf
    split at hf
    · cases hf
      cases ho
      exact henv
    · exact h.outer i f o hi hf ho
  · intro i f b hi hf hb
    rw [getElem?_newFrame] at hf
    split at hf
    · cases hf
      cases hb
    · exact h.bound i f b hi hf hb

/-- A new frame is in the region. -/
theorem newFrame_mem (h : s.Region R P) {outer : Option FrameId} : R (s.newFrame outer).1 :=
  h.later _ (Nat.le_refl _)

end Region

/-- The frames that one gets to from a frame, and those to come. -/
def ReachedFrom (s : Store) (env i : FrameId) : Prop :=
  s.Reaches env i ∨ s.frames.size ≤ i

/-- What is reached from a frame is a region, if all bindings that are reached are of one
sort. -/
theorem region_reachedFrom
    (h : ∀ i f b, s.Reaches env i → s.frames[i]? = some f → b ∈ f.bindings → P b.2) :
    s.Region (s.ReachedFrom env) P := by
  have hnone : ∀ {i f}, s.frames.size ≤ i → s.frames[i]? ≠ some f := by
    intro i f hi hf
    rw [Array.getElem?_eq_none hi] at hf
    cases hf
  -- what is still to come has no bindings and no outer frame yet
  refine ⟨fun i hi => .inr hi, ?_, ?_⟩
  · rintro i f o (hi | hi) hf ho
    · exact .inl (.outer hi hf ho)
    · exact absurd hf (hnone hi)
  · rintro i f b (hi | hi) hf hb
    · exact h i f b hi hf hb
    · exact absurd hf (hnone hi)

end Store

end Monkey
