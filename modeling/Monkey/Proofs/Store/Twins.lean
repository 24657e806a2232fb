import Mathlib.Data.List.Perm.Basic
import Mathlib.Data.List.Nodup
import Monkey.Proofs.Store.Pairing
import Monkey.Proofs.Store.WellFormed

/-!
# Stores that look the same

The numbers of objects and the places of frames do not show. Two values look alike if they
differ in these only, and two stores look the same from a frame if it sees the same names in
both, bound to values that look alike.

If a region of a store is the same in another one, each of its frames may be paired with
itself (`Pairing.holds_identity`), with code that stands for itself: a pairing for a name
that is renamed to itself.
-/

namespace Monkey

variable {p : String}

/-! ## Values -/

/-- The values are the same up to the numbers of objects, and functions in them have the
same parameters and the same body. -/
def Value.Twin : Value → Value → Prop :=
  Alike (fun _ _ => True) fun c d => c.params = d.params ∧ c.body = d.body

/-- Nothing that can be shown of the values tells them apart. -/
structure Value.LooksLike (v u : Value) : Prop where
  twin : v.Twin u
  type : v.type = u.type
  inspect : v.inspect = u.inspect
  debug : v.debug = u.debug

namespace Value

variable {v u w : Value}

theorem Twin.symm (h : v.Twin u) : u.Twin v := by
  induction h with
  | int _ => exact .int trivial
  | bool => exact .bool
  | null => exact .null
  | returned _ _ ih => exact .returned trivial ih
  | error _ => exact .error trivial
  | closure _ h => exact .closure trivial ⟨h.1.symm, h.2.symm⟩

theorem Twin.inspect_eq (h : v.Twin u) : v.inspect = u.inspect := by
  induction h with
  | returned _ _ ih => exact ih
  | closure _ h => simp only [inspect, Closure.inspect, h.1, h.2]
  | _ => rfl

theorem Twin.debug_eq (h : v.Twin u) : v.debug = u.debug := by
  induction h with
  | returned _ _ ih => exact congrArg (fun text => "ReturnValue(" ++ text ++ ")") ih
  | closure _ h =>
      exact congrArg (fun params => "Function(Function(" ++ ", ".intercalate params ++ "))") h.1
  | _ => rfl

theorem Twin.looksLike (h : v.Twin u) : v.LooksLike u :=
  ⟨h, h.type_eq, h.inspect_eq, h.debug_eq⟩

theorem LooksLike.symm (h : v.LooksLike u) : u.LooksLike v :=
  h.twin.symm.looksLike

end Value

/-! ## What is seen from a frame -/

theorem nodup_eraseDups {α : Type} [BEq α] [LawfulBEq α] (xs : List α) :
    xs.eraseDups.Nodup := by
  match xs with
  | [] => exact List.nodup_nil
  | x :: xs =>
      rw [List.eraseDups_cons, List.nodup_cons]
      refine ⟨by simp, nodup_eraseDups _⟩
termination_by xs.length
decreasing_by
  exact Nat.lt_succ_of_le (List.length_filter_le _ _)

namespace Store

/-- The frame sees a name exactly if it sees a value under it. -/
theorem mem_visible {s : Store} {i : FrameId} {m : String} :
    m ∈ s.visible i ↔ (s.get? i m).isSome := by
  have hlocal : m ∈ (s.frames[i]?.elim [] Frame.names) ↔ (s.getLocal? i m).isSome := by
    unfold getLocal?
    cases s.frames[i]? with
    | none => simp
    | some f =>
        rw [Option.bind_some, Frame.get?, List.lookup_isSome_iff, Option.elim_some, Frame.names,
          List.mem_map]
        exact exists_congr fun b => and_congr_right fun _ => eq_comm.trans beq_iff_eq.symm
  rw [visible, get?_eq, List.mem_append, hlocal, Option.isSome_or, Bool.or_eq_true]
  match s.outer? i with
  | none => simp
  | some ⟨o, hlt⟩ =>
      apply or_congr_right
      exact mem_visible
termination_by i

theorem mem_names {s : Store} {i : FrameId} {m : String} :
    m ∈ s.names i ↔ (s.get? i m).isSome := by
  rw [names, List.mem_mergeSort, List.mem_eraseDups, mem_visible]

/-- The frame, or one around it, binds the name. -/
inductive Sees (s : Store) (m : String) : FrameId → Prop where
  | own {i} : (s.getLocal? i m).isSome → s.Sees m i
  | outer {i o hlt} : s.outer? i = some ⟨o, hlt⟩ → s.Sees m o → s.Sees m i

theorem sees_iff {s : Store} {i : FrameId} {m : String} : s.Sees m i ↔ (s.get? i m).isSome := by
  rw [get?_eq, Option.isSome_or, Bool.or_eq_true]
  constructor
  · rintro (hown | ⟨houter, hsees⟩)
    · exact .inl hown
    · rw [houter]
      exact .inr (sees_iff.mp hsees)
  · rintro (hown | hsome)
    · exact .own hown
    · match houter : s.outer? i with
      | none =>
          rw [houter] at hsome
          cases hsome
      | some ⟨o, hlt⟩ =>
          rw [houter] at hsome
          exact .outer houter (sees_iff.mpr hsome)
termination_by i

theorem nodup_names {s : Store} {i : FrameId} : (s.names i).Nodup :=
  (List.mergeSort_perm _ _).nodup_iff.mpr (nodup_eraseDups _)

theorem pairwise_mergeSort_le (xs : List String) :
    (xs.mergeSort fun a b => a ≤ b).Pairwise (· ≤ ·) := by
  have hpairwise := @List.pairwise_mergeSort String (fun a b => decide (a ≤ b))
    (fun a b c => by simpa using String.le_trans) (fun a b => by simpa using String.le_total a b) xs
  simpa using hpairwise

/-- The names that a frame sees are known from what it sees under every name. -/
theorem names_eq {s t : Store} {i j : FrameId}
    (h : ∀ m, (s.get? i m).isSome = (t.get? j m).isSome) : s.names i = t.names j := by
  have hperm : (s.names i).Perm (t.names j) := by
    rw [List.perm_ext_iff_of_nodup nodup_names nodup_names]
    intro m
    rw [mem_names, mem_names, h m]
  exact hperm.eq_of_pairwise (fun _ _ _ _ => String.le_antisymm) (pairwise_mergeSort_le _)
    (pairwise_mergeSort_le _)

/-- From the frame the two stores look the same: it sees the same names in both, and
values that look alike under them. -/
structure LooksSame (s t : Store) (i : FrameId) : Prop where
  names : s.names i = t.names i
  values : ∀ m, Option.Rel Value.LooksLike (s.get? i m) (t.get? i m)

theorem looksSame_of_values {s t : Store} {i : FrameId}
    (h : ∀ m, Option.Rel Value.LooksLike (s.get? i m) (t.get? i m)) : s.LooksSame t i := by
  refine ⟨names_eq fun m => ?_, h⟩
  match s.get? i m, t.get? i m, h m with
  | _, _, .some _ => rfl
  | _, _, .none => rfl

theorem LooksSame.symm {s t : Store} {i : FrameId} (h : s.LooksSame t i) : t.LooksSame s i := by
  refine ⟨h.names.symm, fun m => ?_⟩
  match s.get? i m, t.get? i m, h.values m with
  | _, _, .some hvu => exact .some hvu.symm
  | _, _, .none => exact .none

end Store

/-! ## The same frames in two stores -/

/-- Each of the numbers with itself. -/
def Matching.identity (P : Nat → Prop) : Matching where
  pairs i j := P i ∧ i = j
  biUnique := by
    constructor
    · rintro i i' j ⟨-, rfl⟩ ⟨-, rfl⟩
      rfl
    · rintro i j j' ⟨-, rfl⟩ ⟨-, rfl⟩
      rfl

namespace Pairing

/-- Every object of the store and every frame of the region with itself. -/
def identity (s : Store) (R : FrameId → Prop) : Pairing where
  object := .identity (· < s.nextObject)
  frame := .identity fun i => R i ∧ i < s.frames.size
  side _ := .outside

variable {s t : Store} {R : FrameId → Prop} {v u : Value} {i : FrameId} {w : Pairing}

theorem frames_identity (hi : R i) (hlt : i < s.frames.size) :
    (identity s R).Frames .outside i i :=
  ⟨⟨⟨hi, hlt⟩, rfl⟩, rfl⟩

theorem values_identity (h : v.BelongsTo s R) : (identity s R).Values p p v v := by
  obtain ⟨hmade, hstays⟩ := h
  induction v with
  | int id n => exact .int ⟨hmade, rfl⟩
  | bool b => exact .bool
  | null => exact .null
  | returned id result ih => exact .returned ⟨hmade.1, rfl⟩ (ih hmade.2 hstays)
  | error id fault => exact .error ⟨hmade, rfl⟩
  | closure c =>
      refine .closure ⟨hmade.1, rfl⟩ ⟨.outside, .outside, ?_, .same, ?_⟩
      · exact frames_identity (hstays c.env rfl) hmade.2
      · exact ⟨fun _ _ => trivial, (List.map_id c.params).symm, .inl rfl⟩

/-- In a later store, in which the frames of the region are as they were, every frame of the
region and every object corresponds to itself. -/
theorem holds_identity (hs : s.Sound R) (hbefore : s.Before t)
    (hframes : ∀ i, R i → i < s.frames.size → t.frames[i]? = s.frames[i]?) :
    (identity s R).Holds p p s t := by
  refine ⟨?_, ?_, ?_⟩
  · rintro i j ⟨hi, rfl⟩
    exact ⟨hi, Nat.lt_of_lt_of_le hi hbefore.objects⟩
  · rintro i j ⟨⟨-, hi⟩, rfl⟩
    exact ⟨hi, Nat.lt_of_lt_of_le hi hbefore.frames⟩
  rintro side i j ⟨⟨⟨hR, hi⟩, rfl⟩, rfl⟩
  have hlocal : ∀ m, t.getLocal? i m = s.getLocal? i m := by
    intro m
    unfold Store.getLocal?
    rw [hframes i hR hi]
  have houter : t.outer? i = s.outer? i := by
    unfold Store.outer?
    rw [hframes i hR hi]
  refine ⟨fun m _ => ?_, ?_, fun _ => rfl⟩
  · change Option.Rel _ (s.getLocal? i m) (t.getLocal? i m)
    rw [hlocal]
    cases hm : s.getLocal? i m with
    | none => exact .none
    | some v =>
        obtain ⟨f, hf, hv⟩ := Store.exists_frame_of_getLocal? hm
        refine .some (values_identity ⟨?_, ?_⟩)
        · exact hs.wellFormed.made i f _ hf hv
        · exact hs.region.bound i f _ hR hf hv
  · rw [houter]
    cases ho : s.outer? i with
    | none => exact .none
    | some o =>
        obtain ⟨f, hf, hfo⟩ := Store.exists_frame_of_outer? ho
        refine .some ⟨.outside, frames_identity ?_ (Nat.lt_trans o.2 hi), .same⟩
        exact hs.region.outer i f o.1 hR hf hfo

/-- Values that correspond under a name that is renamed to itself look alike. -/
theorem Values.looksLike (h : w.Values p p v u) : v.LooksLike u := by
  refine Value.Twin.looksLike (h.imp (fun _ _ _ => trivial) ?_)
  rintro c d ⟨_, _, _, _, hfunction⟩
  exact ⟨hfunction.eq.1.symm, hfunction.eq.2.symm⟩

/-- From a frame that corresponds to itself, stores that a pairing holds between look the
same. -/
theorem Holds.looksSame (h : w.Holds p p s t) (hi : w.Frames .outside i i) :
    s.LooksSame t i :=
  Store.looksSame_of_values fun m =>
    rel_imp (fun _ _ hvu => hvu.looksLike) (h.get? (m := m) hi trivial)

end Pairing

end Monkey
