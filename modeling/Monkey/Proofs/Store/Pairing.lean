import Mathlib.Logic.Relator
import Monkey.Proofs.Program.Rename
import Monkey.Proofs.Store.Lookup

/-!
# Stores that are alike

Two evaluations of code and its counterpart do the same to two stores, but they need not
find the same numbers free for what they make. A pairing says which objects and frames of
the one store correspond to which of the other, one to one, and on which side of a renamed
function literal the code is that runs in a frame. It grows as the evaluations go on.

Frames and objects that are in no pair may be anything. In stores that a pairing holds
between, paired frames see values that are alike under names that correspond
(`Pairing.Holds.get?`).
-/

namespace Monkey

variable {p q : String}

/-! ## Values -/

/-- The values are the same up to the numbers of objects, which are related by `object`,
and the functions in them, which are related by `closure`. -/
inductive Value.Alike (object : ObjectId → ObjectId → Prop)
    (closure : Closure → Closure → Prop) : Value → Value → Prop
  | int {i j n} : object i j → Alike object closure (.int i n) (.int j n)
  | bool {b} : Alike object closure (.bool b) (.bool b)
  | null : Alike object closure .null .null
  | returned {i j v u} : object i j → Alike object closure v u →
      Alike object closure (.returned i v) (.returned j u)
  | error {i j fault} : object i j → Alike object closure (.error i fault) (.error j fault)
  | closure {c d} : object c.id d.id → closure c d →
      Alike object closure (.closure c) (.closure d)

namespace Value.Alike

variable {O O' : ObjectId → ObjectId → Prop} {C C' : Closure → Closure → Prop}
  {v v' u u' : Value}

theorem imp (hO : ∀ i j, O i j → O' i j) (hC : ∀ c d, C c d → C' c d)
    (h : v.Alike O C u) : v.Alike O' C' u := by
  induction h with
  | int h => exact .int (hO _ _ h)
  | bool => exact .bool
  | null => exact .null
  | returned h _ ih => exact .returned (hO _ _ h) ih
  | error h => exact .error (hO _ _ h)
  | closure h hc => exact .closure (hO _ _ h) (hC _ _ hc)

theorem type_eq (h : v.Alike O C u) : v.type = u.type := by
  cases h <;> rfl

theorem isError_eq (h : v.Alike O C u) : v.isError = u.isError := by
  cases h <;> rfl

theorem stops_eq (h : v.Alike O C u) : v.stops = u.stops := by
  cases h <;> rfl

theorem isTruthy_eq (h : v.Alike O C u) : v.isTruthy = u.isTruthy := by
  cases h <;> rfl

theorem unwrap (h : v.Alike O C u) : v.unwrap.Alike O C u.unwrap := by
  cases h with
  | returned _ h => exact h
  | int h => exact .int h
  | bool => exact .bool
  | null => exact .null
  | error h => exact .error h
  | closure h hc => exact .closure h hc

/-- Whether two values are the same object shows in values that are alike. -/
theorem same_eq (hO : Relator.BiUnique O) (h : v.Alike O C u) (h' : v'.Alike O C u') :
    v.same v' = u.same u' := by
  have hnumber : ∀ {i j i' j'}, O i j → O i' j' → decide (i = i') = decide (j = j') :=
    fun h h' => decide_eq_decide.mpr (Relator.rel_eq hO h h')
  cases h with
  | int h => cases h' with
    | int h' => exact hnumber h h'
    | _ => rfl
  | returned h => cases h' with
    | returned h' => exact hnumber h h'
    | _ => rfl
  | error h => cases h' with
    | error h' => exact hnumber h h'
    | _ => rfl
  | closure h => cases h' with
    | closure h' => exact hnumber h h'
    | _ => rfl
  | bool | null => cases h' <;> rfl

end Value.Alike

/-! ## Pairings -/

/-- Numbers of two stores, one to one. -/
structure Matching where
  pairs : Nat → Nat → Prop
  biUnique : Relator.BiUnique pairs

namespace Matching

instance : CoeFun Matching fun _ => Nat → Nat → Prop := ⟨pairs⟩

/-- No pairs. -/
def empty : Matching where
  pairs _ _ := False
  biUnique := ⟨nofun, nofun⟩

/-- No number in a pair is used up to here. -/
def Below (m : Matching) (a b : Nat) : Prop :=
  ∀ i j, m i j → i < a ∧ j < b

/-- The pairs below, and `a` with `b`. -/
def add (m : Matching) (a b : Nat) : Matching where
  pairs i j := m i j ∧ i < a ∧ j < b ∨ i = a ∧ j = b
  biUnique := by
    constructor
    · rintro i i' j (⟨h, hi, hj⟩ | ⟨rfl, rfl⟩) (⟨h', hi', hj'⟩ | ⟨rfl, heq⟩)
      · exact m.biUnique.1 h h'
      · omega
      · omega
      · rfl
    · rintro i j j' (⟨h, hi, hj⟩ | ⟨rfl, rfl⟩) (⟨h', hi', hj'⟩ | ⟨heq, rfl⟩)
      · exact m.biUnique.2 h h'
      · omega
      · omega
      · rfl

variable {m : Matching} {a b i j : Nat}

theorem add_of (h : m.Below a b) (hij : m i j) : m.add a b i j :=
  .inl ⟨hij, h i j hij⟩

theorem add_self : m.add a b a b :=
  .inr ⟨rfl, rfl⟩

theorem below_add : (m.add a b).Below (a + 1) (b + 1) := by
  rintro i j (⟨-, hi, hj⟩ | ⟨rfl, rfl⟩) <;> omega

end Matching

/-- Which objects and frames of two stores correspond, and the sides that the code which
runs in the frames of the first one is on. -/
structure Pairing where
  object : Matching
  frame : Matching
  side : FrameId → Side

namespace Pairing

/-- The frames correspond, and the code in them is on the side. -/
def Frames (w : Pairing) (side : Side) (i j : FrameId) : Prop :=
  w.frame i j ∧ w.side i = side

/-- The functions were made in frames that correspond, of code and its counterpart. -/
def Closures (p q : String) (w : Pairing) (c d : Closure) : Prop :=
  ∃ side inner, w.Frames side c.env d.env ∧ side.Opens (p ∈ c.params) inner ∧
    FunctionCounterpart p q inner c.params c.body d.params d.body

/-- The values correspond. -/
def Values (p q : String) (w : Pairing) : Value → Value → Prop :=
  Value.Alike w.object (w.Closures p q)

/-- The later pairing has all the pairs of the earlier one. -/
structure Grows (w w' : Pairing) : Prop where
  object : ∀ i j, w.object i j → w'.object i j
  frames : ∀ side i j, w.Frames side i j → w'.Frames side i j

/-- The pairing with a new pair of objects. -/
def addObject (w : Pairing) (i j : ObjectId) : Pairing :=
  { w with object := w.object.add i j }

/-- The pairing with a new pair of frames, for code on the side. -/
def addFrame (w : Pairing) (side : Side) (i j : FrameId) : Pairing where
  object := w.object
  frame := w.frame.add i j
  side k := if k = i then side else w.side k

/-- The frames, for code on the side, bind values that correspond under names that
correspond, and lie in frames that correspond. A frame of code inside the literal always
lies in another one. -/
structure FramesAlike (p q : String) (w : Pairing) (s t : Store) (side : Side)
    (i j : FrameId) : Prop where
  bound : ∀ m, side.Mentions q m →
    Option.Rel (w.Values p q) (s.getLocal? i m) (t.getLocal? j (side.rename p q m))
  outer : Option.Rel (fun o o' => ∃ around, w.Frames around o.1 o'.1 ∧
    around.Opens (s.getLocal? i p).isSome side) (s.outer? i) (t.outer? j)
  root : s.outer? i = none → side = .outside

/-- The pairing holds between the stores: its objects and frames are there, and frames that
correspond are alike. -/
structure Holds (p q : String) (w : Pairing) (s t : Store) : Prop where
  objects : w.object.Below s.nextObject t.nextObject
  frames : w.frame.Below s.frames.size t.frames.size
  alike : ∀ side i j, w.Frames side i j → w.FramesAlike p q s t side i j

variable {w w' w'' : Pairing} {side : Side} {i j : FrameId}

namespace Grows

theorem refl : w.Grows w :=
  ⟨fun _ _ h => h, fun _ _ _ h => h⟩

theorem trans (h : w.Grows w') (h' : w'.Grows w'') : w.Grows w'' :=
  ⟨fun i j hij => h'.object i j (h.object i j hij),
    fun side i j hij => h'.frames side i j (h.frames side i j hij)⟩

theorem closures (h : w.Grows w') {c d : Closure} (hcd : w.Closures p q c d) :
    w'.Closures p q c d := by
  obtain ⟨side, inner, henv, hfunction⟩ := hcd
  exact ⟨side, inner, h.frames side _ _ henv, hfunction⟩

theorem values (h : w.Grows w') {v u : Value} (hv : w.Values p q v u) : w'.Values p q v u :=
  hv.imp h.object fun _ _ => h.closures

theorem addObject {a b : ObjectId} (h : w.object.Below a b) : w.Grows (w.addObject a b) :=
  ⟨fun _ _ => Matching.add_of h, fun _ _ _ hij => hij⟩

theorem addFrame {a b : FrameId} (h : w.frame.Below a b) :
    w.Grows (w.addFrame side a b) := by
  refine ⟨fun _ _ hij => hij, fun side' i j hij => ⟨Matching.add_of h hij.1, ?_⟩⟩
  exact (if_neg (Nat.ne_of_lt (h i j hij.1).1)).trans hij.2

end Grows

theorem side_addFrame {a b k : FrameId} (hk : k < a) :
    (w.addFrame side a b).side k = w.side k :=
  if_neg (Nat.ne_of_lt hk)

theorem frames_addFrame : (w.addFrame side i j).Frames side i j :=
  ⟨Matching.add_self, if_pos rfl⟩

/-- A pair of frames is older, or is the new one. -/
theorem Frames.of_addFrame {inner : Side} {a b : FrameId}
    (h : (w.addFrame inner a b).Frames side i j) :
    w.Frames side i j ∧ i < a ∧ j < b ∨ i = a ∧ j = b ∧ inner = side := by
  obtain ⟨⟨hij, hi, hj⟩ | ⟨rfl, rfl⟩, hside⟩ := h
  · exact .inl ⟨⟨hij, side_addFrame hi ▸ hside⟩, hi, hj⟩
  · exact .inr ⟨rfl, rfl, (if_pos rfl).symm.trans hside⟩

namespace FramesAlike

variable {s s' t t' : Store} {m : String}

/-- Frames that are as they were are still alike when the pairing has grown. -/
theorem grows (h : w.FramesAlike p q s t side i j) (hw : w.Grows w')
    (hs : ∀ m, s'.getLocal? i m = s.getLocal? i m) (hsouter : s'.outer? i = s.outer? i)
    (ht : ∀ m, t'.getLocal? j m = t.getLocal? j m) (htouter : t'.outer? j = t.outer? j) :
    w'.FramesAlike p q s' t' side i j := by
  refine ⟨fun m hm => ?_, ?_, hsouter ▸ h.root⟩
  · rw [hs, ht]
    exact rel_imp (fun _ _ => hw.values) (h.bound m hm)
  · rw [hsouter, htouter, hs]
    refine rel_imp ?_ h.outer
    rintro o o' ⟨around, hframes, hopens⟩
    exact ⟨around, hw.frames _ _ _ hframes, hopens⟩

/-- A name that the frame itself does not bind has the same counterpart in the frame
around it. -/
theorem names_of_opens {around : Side} (hopens : around.Opens (s.getLocal? i p).isSome side)
    (hm : side.Mentions q m) (hlocal : s.getLocal? i m = none) :
    around.Mentions q m ∧ around.rename p q m = side.rename p q m := by
  cases hopens with
  | same => exact ⟨hm, rfl⟩
  | literal hbinds =>
      have hne : m ≠ p := by
        rintro rfl
        rw [hlocal] at hbinds
        cases hbinds
      exact ⟨trivial, (Side.rename_of_ne hne).symm⟩

end FramesAlike

namespace Holds

variable {s t : Store} {m : String} {v u : Value}

/-- What a frame sees corresponds to what the other one sees. -/
theorem get? {i j : FrameId} {side : Side} (h : w.Holds p q s t) (hij : w.Frames side i j)
    (hm : side.Mentions q m) :
    Option.Rel (w.Values p q) (s.get? i m) (t.get? j (side.rename p q m)) := by
  obtain ⟨hbound, houter, -⟩ := h.alike side i j hij
  rw [Store.get?_eq, Store.get?_eq]
  match hs : s.getLocal? i m, t.getLocal? j _, hbound m hm with
  | _, _, .some hvu => exact .some hvu
  | _, _, .none =>
      match s.outer? i, t.outer? j, houter with
      | _, _, .none => exact .none
      | some ⟨o, hlt⟩, some o', .some ⟨around, hframes, hopens⟩ =>
          obtain ⟨hmentions, hname⟩ := FramesAlike.names_of_opens hopens hm hs
          rw [← hname]
          exact h.get? hframes hmentions
termination_by i

/-- Code inside the literal sees `p`. -/
theorem isSome_get? {i j : FrameId} (h : w.Holds p q s t) (hij : w.Frames .inside i j) :
    (s.get? i p).isSome := by
  obtain ⟨-, houter, hroot⟩ := h.alike .inside i j hij
  rw [Store.get?_eq, Option.isSome_or, Bool.or_eq_true]
  match ho : s.outer? i, t.outer? j, houter with
  | none, none, .none => cases hroot ho
  | some ⟨o, hlt⟩, some o', .some ⟨around, hframes, hopens⟩ =>
      cases hopens with
      | same => exact .inr (h.isSome_get? hframes)
      | literal hbinds => exact .inl hbinds
termination_by i

theorem addObject (h : w.Holds p q s t) :
    (w.addObject s.nextObject t.nextObject).Holds p q s.spend t.spend :=
  ⟨Matching.below_add, h.frames, fun side i j hij =>
    (h.alike side i j hij).grows (.addObject h.objects) (fun _ => rfl) rfl (fun _ => rfl) rfl⟩

/-- Bind a name and its counterpart in frames that correspond. -/
theorem set (h : w.Holds p q s t) (hij : w.Frames side i j) (hm : side.Mentions q m)
    (hv : w.Values p q v u) :
    w.Holds p q (s.set i m v) (t.set j (side.rename p q m) u) := by
  refine ⟨h.objects, ?_, ?_⟩
  · rw [Store.size_set, Store.size_set]
    exact h.frames
  · intro side' i' j' hij'
    obtain ⟨hbound, houter, hroot⟩ := h.alike side' i' j' hij'
    refine ⟨fun m' hm' => ?_, ?_, Store.outer?_set s i i' m v ▸ hroot⟩
    · obtain ⟨hi, hj⟩ := h.frames i j hij.1
      refine Store.rel_getLocal?_set hi hj ?_ ?_ hv (hbound m' hm')
      · exact Relator.rel_eq w.frame.biUnique hij.1 hij'.1
      · rintro rfl
        cases hij.2.symm.trans hij'.2
        exact (Side.rename_eq_iff hm' hm).symm
    · rw [Store.outer?_set, Store.outer?_set]
      refine rel_imp ?_ houter
      rintro o o' ⟨around, hframes, hopens⟩
      exact ⟨around, hframes, hopens.imp Store.isSome_getLocal?_set⟩

/-- Call functions that correspond: their frames are a new pair. -/
theorem openFrame {inner : Side} {c d : Closure} {vs us : List Value}
    (h : w.Holds p q s t) (henv : w.Frames side c.env d.env)
    (hopens : side.Opens (p ∈ c.params) inner)
    (hfunction : FunctionCounterpart p q inner c.params c.body d.params d.body)
    (hvs : List.Forall₂ (w.Values p q) vs us) (hcount : c.params.length = vs.length) :
    (w.addFrame inner s.frames.size t.frames.size).Holds p q
      (s.openFrame c.env (c.params.zip vs)) (t.openFrame d.env (d.params.zip us)) := by
  have hgrows : w.Grows (w.addFrame inner s.frames.size t.frames.size) := .addFrame h.frames
  refine ⟨?_, ?_, fun side' i j hij => ?_⟩
  · rw [Store.nextObject_openFrame, Store.nextObject_openFrame]
    exact h.objects
  · rw [Store.size_openFrame, Store.size_openFrame]
    exact Matching.below_add
  obtain ⟨hij, hi, hj⟩ | ⟨rfl, rfl, rfl⟩ := hij.of_addFrame
  · refine (h.alike side' i j hij).grows hgrows ?_ ?_ ?_ ?_
    · exact fun _ => Store.getLocal?_openFrame hi
    · exact Store.outer?_openFrame hi
    · exact fun _ => Store.getLocal?_openFrame hj
    · exact Store.outer?_openFrame hj
  · obtain ⟨hi, hj⟩ := h.frames _ _ henv.1
    refine ⟨fun m hm => ?_, ?_, fun houter => ?_⟩
    · rw [hfunction.params]
      refine Store.rel_getLocal?_bindAll (Store.size_newFrame.symm ▸ Nat.lt_succ_self _)
        (Store.size_newFrame.symm ▸ Nat.lt_succ_self _)
        (fun x hx => (Side.rename_eq_iff hm (hfunction.mentions x hx)).symm)
        (hvs.imp fun _ _ => hgrows.values) ?_
      rw [Store.getLocal?_newFrame, Store.getLocal?_newFrame, if_pos rfl, if_pos rfl]
      exact .none
    · rw [Store.outer?_openFrame_self hi, Store.outer?_openFrame_self hj]
      refine .some ⟨side, hgrows.frames _ _ _ henv, hopens.imp fun hp => ?_⟩
      refine Store.isSome_getLocal?_openFrame ?_
      rwa [List.map_fst_zip (Nat.le_of_eq hcount)]
    · rw [Store.outer?_openFrame_self hi] at houter
      cases houter

end Holds

/-- Two frames of code outside the literal correspond, and nothing else does yet. -/
def ofFrames (i j : FrameId) : Pairing where
  object := .empty
  frame := .add .empty i j
  side _ := .outside

/-- Two frames that are new and lie in no other frame are alike. -/
theorem holds_ofFrames (s t : Store) :
    (ofFrames s.frames.size t.frames.size).Holds p q (s.newFrame none).2
      (t.newFrame none).2 := by
  have houter : ∀ s : Store, (s.newFrame none).2.outer? s.frames.size = none := by
    intro s
    unfold Store.outer?
    rw [Store.getElem?_newFrame, if_pos rfl]
    rfl
  refine ⟨nofun, ?_, ?_⟩
  · rw [Store.size_newFrame, Store.size_newFrame]
    exact Matching.below_add
  · rintro side i j ⟨⟨⟨⟩, _⟩ | ⟨rfl, rfl⟩, rfl⟩
    refine ⟨fun m _ => ?_, ?_, fun _ => rfl⟩
    · rw [Store.getLocal?_newFrame, Store.getLocal?_newFrame, if_pos rfl, if_pos rfl]
      exact .none
    · rw [houter, houter]
      exact .none

end Pairing

end Monkey
