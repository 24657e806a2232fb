import Monkey.Proofs.Run.Parallel
import Monkey.Proofs.Run.WellFormed
import Monkey.Proofs.Store.Twins
import Monkey.Store.Equality

/-!
# Programs apart

If there is no frame that one gets to from two frames, programs in them have nothing to do
with each other. A program writes to its own frame only, so what one gets to from the other
frame stays as it was, and the two stay apart (`Store.Separate.after`). So it does not
matter which of the two programs comes first (`evaluations_commute`). Objects are made under
other numbers then, and frames at other places.
-/

namespace Monkey

/-- There is no frame that one gets to from both. -/
def Store.Apart (s : Store) (i j : FrameId) : Prop :=
  ∀ k, s.Reaches i k → ¬s.Reaches j k

/-- In a well-formed store, two frames with no frame that one gets to from both. -/
structure Store.Separate (s : Store) (i j : FrameId) : Prop where
  wellFormed : s.WellFormed
  left : i < s.frames.size
  right : j < s.frames.size
  apart : s.Apart i j

/-- The first program results in `v` in its frame, then the second one in `u` in its frame,
and the last store is `t`. -/
def InTurn (P : Program Unit) (i : FrameId) (Q : Program Unit) (j : FrameId) (s : Store)
    (v u : Value) (t : Store) : Prop :=
  ∃ depth depth' s₁, evaluate depth P i s = some (v, s₁) ∧ evaluate depth' Q j s₁ = some (u, t)

variable {P Q : Program Unit} {i j k : FrameId} {s s₁ s₂ t : Store} {v u : Value}
  {depth depth' : Nat} {R : FrameId → Prop}

theorem sound_evaluate (h : evaluate depth P i s = some (v, s₁)) (hi : R i)
    (hlt : i < s.frames.size) (hs : s.Sound R) : s.Before s₁ ∧ s₁.Sound R := by
  obtain ⟨w, hrun, -⟩ := evaluate_eq_some_iff.mp ⟨depth, h⟩
  obtain ⟨hbefore, hs₁, -⟩ := hrun.sound hi hlt hs Value.belongsTo_null
  exact ⟨hbefore, hs₁⟩

namespace Store.Separate

theorem symm (hs : s.Separate i j) : s.Separate j i :=
  ⟨hs.wellFormed, hs.right, hs.left, fun k hj hi => hs.apart k hi hj⟩

/-! ## One program -/

/-- What one gets to from the other frame is left as it is. -/
theorem getElem?_evaluate (hs : s.Separate i j) (h : evaluate depth P i s = some (v, s₁))
    (hk : s.Reaches j k) : s₁.frames[k]? = s.frames[k]? := by
  have hne : k ≠ i := by
    rintro rfl
    exact hs.apart k .self hk
  obtain ⟨w, hrun, -⟩ := evaluate_eq_some_iff.mp ⟨depth, h⟩
  exact hrun.writes.getElem?_eq (hk.lt_size hs.wellFormed hs.right) hne

/-- The other frame sees what it saw before. -/
theorem get?_evaluate (hs : s.Separate i j) (h : evaluate depth P i s = some (v, s₁))
    (m : String) : s₁.get? j m = s.get? j m :=
  get?_of_reaches (fun _ => hs.getElem?_evaluate h) .self

/-- A program keeps apart its own frame and the other one. -/
theorem after (hs : s.Separate i j) (h : evaluate depth P i s = some (v, s₁)) :
    s₁.Separate i j := by
  have hregion : s.Sound (s.ReachedFrom i) := hs.wellFormed.sound_reachedFrom
  obtain ⟨hbefore, hs₁⟩ := sound_evaluate h (.inl .self) hs.left hregion
  refine ⟨hs₁.wellFormed, ?_, ?_, ?_⟩
  · exact Nat.lt_of_lt_of_le hs.left hbefore.frames
  · exact Nat.lt_of_lt_of_le hs.right hbefore.frames
  · intro k hik hjk
    have hj : s.Reaches j k := hjk.of_frames_eq fun _ => hs.getElem?_evaluate h
    -- what one gets to from the frame of the program now was reached before, or is new
    rcases hs₁.region.reaches (.inl .self) hik with hi | hnew
    · exact hs.apart k hi hj
    · exact absurd (hj.lt_size hs.wellFormed hs.right) (Nat.not_lt_of_le hnew)

/-! ## Two programs -/

/-- Another program does the same before and after: it comes to an end for the same depths of
calls, with a result that looks the same, and from its frame the stores look the same. -/
theorem rel_evaluate (hs : s.Separate i j) (h : evaluate depth P i s = some (v, s₁))
    (depth' : Nat) :
    Option.Rel (fun r r' => r.1.LooksLike r'.1 ∧ r.2.LooksSame r'.2 j)
      (evaluate depth' Q j s) (evaluate depth' Q j s₁) := by
  obtain ⟨hbefore, -⟩ := sound_evaluate h trivial hs.left hs.wellFormed.sound
  have hframes : ∀ k, s.ReachedFrom j k → k < s.frames.size → s₁.frames[k]? = s.frames[k]? := by
    rintro k (hk | hk) hlt
    · exact hs.getElem?_evaluate h hk
    · exact absurd hlt (Nat.not_lt_of_le hk)
  -- nothing is renamed: any name stands for itself
  have hpairs : (Pairing.identity s (s.ReachedFrom j)).Holds "" "" s s₁ :=
    Pairing.holds_identity hs.wellFormed.sound_reachedFrom hbefore hframes
  have hjj : (Pairing.identity s (s.ReachedFrom j)).Frames .outside j j :=
    Pairing.frames_identity (.inl .self) hs.right
  have hcode : List.Forall₂ (Stmt.Counterpart "" "" .outside) Q.statements Q.statements :=
    List.forall₂_same.mpr fun st _ => .refl st
  refine rel_imp ?_ (parallel_evaluate depth' hjj hcode _ s s₁ .refl hpairs)
  rintro r r' ⟨w, hgrows, hholds, hvalues⟩
  exact ⟨hvalues.looksLike, hholds.looksSame (hgrows.frames _ _ _ hjj)⟩

theorem exists_after (hs : s.Separate i j) (hP : evaluate depth P i s = some (v, s₁))
    (hQ : evaluate depth' Q j s = some (u, s₂)) :
    ∃ u' t, evaluate depth' Q j s₁ = some (u', t) ∧ u.LooksLike u' ∧ s₂.LooksSame t j := by
  have hrel := hs.rel_evaluate (Q := Q) hP depth'
  rw [hQ] at hrel
  obtain ⟨⟨u', t⟩, hQ', hlooks, hsame⟩ := exists_of_rel_some hrel
  exact ⟨u', t, hQ', hlooks, hsame⟩

theorem exists_before (hs : s.Separate i j) (hP : evaluate depth P i s = some (v, s₁))
    (hQ : evaluate depth' Q j s₁ = some (u, t)) :
    ∃ u' s₂, evaluate depth' Q j s = some (u', s₂) ∧ u'.LooksLike u ∧ s₂.LooksSame t j := by
  have hrel := hs.rel_evaluate (Q := Q) hP depth'
  rw [hQ] at hrel
  obtain ⟨⟨u', s₂⟩, hQ', hlooks, hsame⟩ := exists_of_rel_some' hrel
  exact ⟨u', s₂, hQ', hlooks, hsame⟩

/-- One after the other the programs come to an end exactly if each does so on its own. -/
theorem exists_inTurn_iff (hs : s.Separate i j) :
    (∃ v u t, InTurn P i Q j s v u t) ↔
      (∃ depth v s₁, evaluate depth P i s = some (v, s₁)) ∧
        ∃ depth u s₂, evaluate depth Q j s = some (u, s₂) := by
  constructor
  · rintro ⟨v, u, t, depth, depth', s₁, hP, hQ⟩
    obtain ⟨u', s₂, hQ', -⟩ := hs.exists_before hP hQ
    exact ⟨⟨depth, v, s₁, hP⟩, depth', u', s₂, hQ'⟩
  · rintro ⟨⟨depth, v, s₁, hP⟩, depth', u, s₂, hQ⟩
    obtain ⟨u', t, hQ', -⟩ := hs.exists_after hP hQ
    exact ⟨v, u', t, depth, depth', s₁, hP, hQ'⟩

/-- In the other order the programs result in what looks the same, also from both frames. -/
theorem exists_inTurn_swap (hs : s.Separate i j) (h : InTurn P i Q j s v u t) :
    ∃ v' u' t', InTurn Q j P i s u' v' t' ∧ v.LooksLike v' ∧ u.LooksLike u' ∧
      t.LooksSame t' i ∧ t.LooksSame t' j := by
  obtain ⟨depth, depth', s₁, hP, hQ⟩ := h
  -- the second program on its own, and the first one behind it
  obtain ⟨u', s₂, hQ', hlooksQ, hsameQ⟩ := hs.exists_before hP hQ
  obtain ⟨v', t', hP', hlooksP, hsameP⟩ := hs.symm.exists_after hQ' hP
  have hs₁ : s₁.Separate i j := hs.after hP
  have hs₂ : s₂.Separate i j := (hs.symm.after hQ').symm
  refine ⟨v', u', t', ⟨depth', depth, s₂, hQ', hP'⟩, hlooksP, hlooksQ.symm, ?_, ?_⟩
  · apply looksSame_of_values
    intro m
    rw [hs₁.symm.get?_evaluate hQ]
    exact hsameP.values m
  · apply looksSame_of_values
    intro m
    rw [hs₂.get?_evaluate hP']
    exact hsameQ.symm.values m

theorem after_inTurn (hs : s.Separate i j) (h : InTurn P i Q j s v u t) : t.Separate i j := by
  obtain ⟨depth, depth', s₁, hP, hQ⟩ := h
  exact ((hs.after hP).symm.after hQ).symm

end Store.Separate

/-- A new frame that lies in no other one is apart from every frame that was there. -/
theorem Store.WellFormed.separate_newFrame (hs : s.WellFormed) (hi : i < s.frames.size) :
    (s.newFrame none).2.Separate i s.frames.size := by
  refine ⟨hs.newFrame nofun, ?_, ?_, ?_⟩
  · exact Nat.lt_of_lt_of_eq (Nat.lt_succ_of_lt hi) size_newFrame.symm
  · exact Nat.lt_of_lt_of_eq (Nat.lt_succ_self _) size_newFrame.symm
  · intro k hik hk
    have hold : s.Reaches i k := by
      refine hik.of_frames_eq fun k hk => ?_
      rw [getElem?_newFrame, if_neg (hk.lt_size hs hi).ne]
    have hframe : (s.newFrame none).2.frames[s.frames.size]? = some (.empty none) := by
      rw [getElem?_newFrame, if_pos rfl]
    have hsize : k = s.frames.size := hk.eq_of_empty hframe
    exact (hold.lt_size hs hi).ne hsize

/-- Two programs, each in its own frame, with no frame that one gets to from both. One after
the other they come to an end if each of them does so on its own. In the other order they
result in what looks the same, each frame sees the same names with values that look the same,
and there still is no frame that one gets to from both. -/
theorem evaluations_commute (hs : s.Separate i j) (P Q : Program Unit) :
    ((∃ v u t, InTurn P i Q j s v u t) ↔
      (∃ depth v s₁, evaluate depth P i s = some (v, s₁)) ∧
        ∃ depth u s₂, evaluate depth Q j s = some (u, s₂)) ∧
    ∀ v u t, InTurn P i Q j s v u t →
      ∃ v' u' t', InTurn Q j P i s u' v' t' ∧ v.LooksLike v' ∧ u.LooksLike u' ∧
        t.LooksSame t' i ∧ t.LooksSame t' j ∧ t.Separate i j ∧ t'.Separate i j := by
  refine ⟨hs.exists_inTurn_iff, fun v u t h => ?_⟩
  obtain ⟨v', u', t', h', hv, hu, hi, hj⟩ := hs.exists_inTurn_swap h
  refine ⟨v', u', t', h', hv, hu, hi, hj, hs.after_inTurn h, ?_⟩
  exact (hs.symm.after_inTurn h').symm

/-- `let x = 1; let f = fn(y) { x };` -/
def bindFunction : Program Unit :=
  ⟨[.let_ () ⟨(), "x"⟩ (.int () 1),
    .let_ () ⟨(), "f"⟩ (.function () [⟨(), "y"⟩] ⟨(), [.expr () (.ident ⟨(), "x"⟩)]⟩)]⟩

/-- `let x = fn() { 2 }; x()` -/
def bindAndCall : Program Unit :=
  ⟨[.let_ () ⟨(), "x"⟩ (.function () [] ⟨(), [.expr () (.int () 2)]⟩),
    .expr () (.call () (.ident ⟨(), "x"⟩) [])]⟩

/-- In two outermost frames, the second program answers `2` before the first one and behind
it. -/
theorem bindAndCall_first :
    ∃ s : Store, s.Separate 0 1 ∧ ∃ id v' u' t', InTurn bindAndCall 1 bindFunction 0 s u' v' t' ∧
      (Value.int id 2).LooksLike u' ∧ t'.Separate 0 1 := by
  have hs : (Store.single.newFrame none).2.Separate 0 1 :=
    Store.wellFormed_single.separate_newFrame (by decide)
  have heval : ((evaluate 1 bindFunction 0 (Store.single.newFrame none).2).bind fun r =>
      evaluate 1 bindAndCall 1 r.2).map Prod.fst = some (.int 3 2) := by
    decide +kernel
  obtain ⟨⟨u, t⟩, hboth, rfl⟩ := Option.map_eq_some_iff.mp heval
  obtain ⟨⟨v, s₁⟩, hP, hQ⟩ := Option.bind_eq_some_iff.mp hboth
  obtain ⟨v', u', t', hturn, -, hlooks, -, -, -, ht'⟩ :=
    (evaluations_commute hs bindFunction bindAndCall).2 v _ t ⟨1, 1, s₁, hP, hQ⟩
  exact ⟨_, hs, 3, v', u', t', hturn, hlooks, ht'⟩

end Monkey
