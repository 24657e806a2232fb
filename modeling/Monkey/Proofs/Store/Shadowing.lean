import Monkey.Proofs.Run.WellFormed
import Monkey.Proofs.Store.Twins

/-!
# Shadowing

Around a frame there is another one, and around that one yet another, up to an outermost one.
Among these frames the first one that binds a name decides what is seen under it. So what is
bound in a frame is seen from a frame inside it as long as none between them binds the same
name, and shadowed otherwise.

This holds in all stores that can be made, by evaluation or from outside, however many
functions and calls share their frames (`Store.Built.shadowing`).
-/

namespace Monkey

/-! ## Stores that can be made -/

/-- Frames are made, names are bound, and programs are evaluated, in any order. -/
inductive Store.Built : Store → Prop where
  | empty : Built .empty
  | outermost {s} : Built s → Built (s.newFrame none).2
  | enclosed {s o} : Built s → o < s.frames.size → Built (s.newFrame (some o)).2
  /-- An object is made that no program has made. -/
  | object {s} : Built s → Built s.spend
  | set {s i n v} : Built s → v.MadeIn s → Built (s.set i n v)
  /-- A program has been evaluated, or is being evaluated. -/
  | evaluation {s env t} {p : Program Unit} : Built s → env < s.frames.size →
      Moment.Passes ⟨env, .stmts .null p.statements, s⟩ t → Built t

variable {s t : Store} {env i j k : FrameId} {js : List FrameId} {m n : String} {v : Value}

namespace Store.Built

theorem wellFormed (h : s.Built) : s.WellFormed := by
  induction h with
  | empty => exact wellFormed_empty
  | outermost _ ih => exact ih.newFrame nofun
  | enclosed _ ho ih =>
      refine ih.newFrame ?_
      rintro _ ⟨⟩
      exact ho
  | object _ ih => exact ih.spend
  | set _ hv ih => exact ih.set hv
  | evaluation _ henv hpasses ih =>
      obtain ⟨-, ht⟩ := hpasses.sound ⟨trivial, henv, ih.sound, Value.belongsTo_null⟩
      exact ht.wellFormed

theorem evaluate {p : Program Unit} {depth : Nat} (h : s.Built) (henv : env < s.frames.size)
    (heval : evaluate depth p env s = some (v, t)) : t.Built := by
  obtain ⟨w, hrun, -⟩ := evaluate_eq_some_iff.mp ⟨depth, heval⟩
  exact h.evaluation henv (.stop .refl hrun)

end Store.Built

/-! ## Chains -/

/-- The frames from the first one outwards: itself, the frame around it, the frame around
that one. -/
inductive Store.Chain (s : Store) : FrameId → List FrameId → Prop where
  | outermost {i f} : s.frames[i]? = some f → f.outer = none → s.Chain i [i]
  | inside {i f o js} : s.frames[i]? = some f → f.outer = some o → s.Chain o js →
      s.Chain i (i :: js)

/-- The frame is one of the chain, and no frame before it binds the name. -/
def Store.Uncovers (s : Store) (js : List FrameId) (i : FrameId) (n : String) : Prop :=
  ∃ inner outer, js = inner ++ i :: outer ∧ ∀ k ∈ inner, s.getLocal? k n = none

namespace Store

theorem WellFormed.exists_chain (hs : s.WellFormed) (hj : j < s.frames.size) :
    ∃ js, s.Chain j js := by
  induction j using Nat.strongRecOn with
  | ind j ih =>
      have hf : s.frames[j]? = some s.frames[j] := Array.getElem?_eq_getElem hj
      match houter : s.frames[j].outer with
      | none => exact ⟨_, .outermost hf houter⟩
      | some o =>
          have ho : o < j := hs.older j _ o hf houter
          obtain ⟨js, hjs⟩ := ih o ho (Nat.lt_trans ho hj)
          exact ⟨_, .inside hf houter hjs⟩

theorem outer?_of_none {f : Frame} (hf : s.frames[i]? = some f) (houter : f.outer = none) :
    s.outer? i = none := by
  simp only [outer?, hf, Option.bind_some, houter]

theorem WellFormed.outer?_of_some {f : Frame} {o : FrameId} (hs : s.WellFormed)
    (hf : s.frames[i]? = some f) (houter : f.outer = some o) :
    s.outer? i = some ⟨o, hs.older i f o hf houter⟩ := by
  simp only [outer?, hf, Option.bind_some, houter]
  exact dif_pos (hs.older i f o hf houter)

/-- The first value that a frame of the chain binds to the name is what is seen, here and in
stores with the same frames in the same places. -/
theorem Chain.get?_eq (h : s.Chain j js) (hs : s.WellFormed)
    (hsame : ∀ k, t.outer? k = s.outer? k) : t.get? j m = js.findSome? (t.getLocal? · m) := by
  induction h with
  | @outermost i f hf houter =>
      rw [Store.get?_eq, hsame, outer?_of_none hf houter, Option.bind_none, Option.or_none,
        List.findSome?_cons, List.findSome?_nil]
      cases t.getLocal? i m <;> rfl
  | @inside i f o js hf houter _ ih =>
      rw [Store.get?_eq, hsame, hs.outer?_of_some hf houter, Option.bind_some, ih,
        List.findSome?_cons]
      cases t.getLocal? i m <;> rfl

namespace Chain

/-- Around one frame there is one frame at most. -/
theorem outer_unique {f f' : Frame} {o o' : Option FrameId} (hf : s.frames[i]? = some f)
    (houter : f.outer = o) (hf' : s.frames[i]? = some f') (houter' : f'.outer = o') : o' = o := by
  cases hf.symm.trans hf'
  exact houter'.symm.trans houter

theorem unique {js' : List FrameId} (h : s.Chain j js) (h' : s.Chain j js') : js' = js := by
  induction h generalizing js' with
  | outermost hf houter =>
      cases h' with
      | outermost => rfl
      | inside hf' houter' _ => cases outer_unique hf houter hf' houter'
  | inside hf houter _ ih =>
      cases h' with
      | outermost hf' houter' => cases outer_unique hf houter hf' houter'
      | inside hf' houter' hjs' =>
          cases outer_unique hf houter hf' houter'
          rw [ih hjs']

theorem lt_size (h : s.Chain j js) (hi : i ∈ js) : i < s.frames.size := by
  induction h with
  | outermost hf =>
      cases List.mem_singleton.mp hi
      exact (Array.getElem?_eq_some_iff.mp hf).1
  | inside hf _ _ ih =>
      obtain rfl | hi := List.mem_cons.mp hi
      · exact (Array.getElem?_eq_some_iff.mp hf).1
      · exact ih hi

/-- Binding a name moves no frame. -/
theorem set (h : s.Chain j js) : (s.set i n v).Chain j js := by
  have hframe : ∀ (k : FrameId) (f : Frame), s.frames[k]? = some f →
      ∃ g, (s.set i n v).frames[k]? = some g ∧ g.outer = f.outer := by
    intro k f hf
    rw [getElem?_set, hf]
    split
    · exact ⟨_, rfl, rfl⟩
    · exact ⟨_, rfl, rfl⟩
  induction h with
  | outermost hf houter =>
      obtain ⟨g, hg, heq⟩ := hframe _ _ hf
      exact .outermost hg (heq.trans houter)
  | inside hf houter _ ih =>
      obtain ⟨g, hg, heq⟩ := hframe _ _ hf
      exact .inside hg (heq.trans houter) ih

end Chain

/-! ## What covers a binding -/

theorem uncovers_cons :
    s.Uncovers (k :: js) i n ↔ k = i ∨ s.getLocal? k n = none ∧ s.Uncovers js i n := by
  constructor
  · rintro ⟨inner, outer, heq, hinner⟩
    cases inner with
    | nil =>
        cases heq
        exact .inl rfl
    | cons k' inner =>
        cases heq
        obtain ⟨hk, hinner⟩ := List.forall_mem_cons.mp hinner
        exact .inr ⟨hk, inner, outer, rfl, hinner⟩
  · rintro (rfl | ⟨hk, inner, outer, rfl, hinner⟩)
    · exact ⟨[], js, rfl, List.forall_mem_nil _⟩
    · exact ⟨k :: inner, outer, rfl, List.forall_mem_cons.mpr ⟨hk, hinner⟩⟩

/-- A frame of the chain is covered only if the name is seen anyhow. -/
theorem uncovers_or_isSome (hi : i ∈ js) :
    s.Uncovers js i n ∨ (js.findSome? (s.getLocal? · n)).isSome := by
  induction js with
  | nil => cases hi
  | cons k js ih =>
      rw [uncovers_cons, List.findSome?_cons]
      obtain rfl | hi := List.mem_cons.mp hi
      · exact .inl (.inl rfl)
      cases s.getLocal? k n with
      | some u => exact .inr rfl
      | none => exact (ih hi).imp_left fun h => .inr ⟨rfl, h⟩

theorem Uncovers.mem (h : s.Uncovers js i n) : i ∈ js := by
  obtain ⟨inner, outer, rfl, -⟩ := h
  exact List.mem_append_right inner List.mem_cons_self

/-- What is bound in a frame that is not covered is what is found. -/
theorem Uncovers.findSome?_set (h : s.Uncovers js i n) (hi : i < s.frames.size) :
    js.findSome? ((s.set i n v).getLocal? · n) = some v := by
  induction js with
  | nil => cases h.mem
  | cons k js ih =>
      rw [List.findSome?_cons, getLocal?_set]
      by_cases hk : i = k
      · rw [if_pos ⟨hk, hi, rfl⟩]
      · obtain ⟨hnone, h⟩ := (uncovers_cons.mp h).resolve_left (Ne.symm hk)
        rw [if_neg fun hall => hk hall.1, hnone]
        exact ih h

/-- Binding a name in a frame that is covered, or another name, changes nothing. -/
theorem findSome?_set_of_not (h : ¬(m = n ∧ s.Uncovers js i n)) :
    js.findSome? ((s.set i n v).getLocal? · m) = js.findSome? (s.getLocal? · m) := by
  induction js with
  | nil => rfl
  | cons k js ih =>
      rw [uncovers_cons] at h
      have hk : ¬(i = k ∧ i < s.frames.size ∧ m = n) := fun ⟨hik, _, hm⟩ =>
        h ⟨hm, .inl hik.symm⟩
      rw [List.findSome?_cons, List.findSome?_cons, getLocal?_set, if_neg hk]
      match hlocal : s.getLocal? k m with
      | some u => rfl
      | none =>
          refine ih fun ⟨hm, huncovers⟩ => h ⟨hm, .inr ⟨hm ▸ hlocal, huncovers⟩⟩

end Store

/-! ## The laws -/

/-- The frames of the chain decide what is seen from the innermost one, under which names,
and how this changes when a name is bound in any frame. -/
structure Store.Shadowing (s : Store) (j : FrameId) (js : List FrameId) : Prop where
  chain : s.Chain j js
  unique : ∀ js', s.Chain j js' → js' = js
  sees : ∀ m, s.get? j m = js.findSome? (s.getLocal? · m)
  bound : ∀ i n v, s.Uncovers js i n → (s.set i n v).get? j n = some v
  kept : ∀ i n v m, ¬(m = n ∧ s.Uncovers js i n) → (s.set i n v).get? j m = s.get? j m
  listed : ∀ m, m ∈ s.names j ↔ (s.get? j m).isSome
  gained : ∀ i n v m, m ∈ (s.set i n v).names j ↔ m ∈ s.names j ∨ m = n ∧ i ∈ js

/-- Every frame has a chain, and the laws hold along it. -/
theorem Store.WellFormed.shadowing_of_chain (hs : s.WellFormed) (h : s.Chain j js) :
    s.Shadowing j js := by
  have hget : ∀ m, s.get? j m = js.findSome? (s.getLocal? · m) := fun m =>
    h.get?_eq hs fun _ => rfl
  have hget_set : ∀ i n v m, (s.set i n v).get? j m =
      js.findSome? ((s.set i n v).getLocal? · m) := fun i n v m =>
    h.get?_eq hs fun k => outer?_set s i k n v
  refine ⟨h, fun js' => h.unique, hget, fun i n v huncovers => ?_, fun i n v m hm => ?_,
    fun m => mem_names, fun i n v m => ?_⟩
  · rw [hget_set]
    exact huncovers.findSome?_set (h.lt_size huncovers.mem)
  · rw [hget_set, hget, findSome?_set_of_not hm]
  · rw [mem_names, mem_names, hget_set, hget]
    by_cases hm : m = n ∧ s.Uncovers js i n
    · obtain ⟨rfl, huncovers⟩ := hm
      rw [huncovers.findSome?_set (h.lt_size huncovers.mem)]
      exact iff_of_true rfl (.inr ⟨rfl, huncovers.mem⟩)
    · rw [findSome?_set_of_not hm]
      refine ⟨.inl, fun hor => hor.elim id fun ⟨hmn, hi⟩ => ?_⟩
      subst hmn
      exact (uncovers_or_isSome hi).resolve_left fun huncovers => hm ⟨rfl, huncovers⟩

/-- In every store that can be made, what is seen from a frame is what the first frame around
it binds, itself included; and binding a name in a frame is seen from exactly those frames
that lie in it with no frame before it that binds the name. -/
theorem Store.Built.shadowing (hs : s.Built) (hj : j < s.frames.size) :
    ∃ js, s.Shadowing j js := by
  obtain ⟨js, hjs⟩ := hs.wellFormed.exists_chain hj
  exact ⟨js, hs.wellFormed.shadowing_of_chain hjs⟩

/-- `let x = 1; let f = fn(x) { fn() { x } }; let g = f(2);` -/
def bindClosure : Program Unit :=
  ⟨[.let_ () ⟨(), "x"⟩ (.int () 1),
    .let_ () ⟨(), "f"⟩ (.function () [⟨(), "x"⟩] ⟨(),
      [.expr () (.function () [] ⟨(), [.expr () (.ident ⟨(), "x"⟩)]⟩)]⟩),
    .let_ () ⟨(), "g"⟩ (.call () (.ident ⟨(), "f"⟩) [.int () 2])]⟩

/-- A frame inside the one of the call of `f`: its chain goes over that frame, which shadows
`x`, to the outermost one. -/
theorem call_shadows :
    ∃ s : Store, s.Built ∧ 2 < s.frames.size ∧ s.Shadowing 2 [2, 1, 0] := by
  have heval : (evaluate 1 bindClosure 0 .single).map
      (fun r => r.2.frames.map Frame.outer) = some #[none, some 0] := by
    decide +kernel
  obtain ⟨⟨v, s⟩, heval, hframes⟩ := Option.map_eq_some_iff.mp heval
  have houter : ∀ (i : FrameId) (o : Option FrameId), #[none, some 0][i]? = some o →
      ∃ f, s.frames[i]? = some f ∧ f.outer = o := by
    intro i o ho
    rw [← hframes, Array.getElem?_map] at ho
    exact Option.map_eq_some_iff.mp ho
  obtain ⟨f, hf, hfo⟩ := houter 0 none rfl
  obtain ⟨g, hg, hgo⟩ := houter 1 (some 0) rfl
  have hsize : s.frames.size = 2 := by
    have hsize := congrArg Array.size hframes
    rwa [Array.size_map] at hsize
  have hbuilt : s.Built := (Store.Built.empty.outermost).evaluate (by decide) heval
  have hlt : 1 < s.frames.size := hsize ▸ Nat.one_lt_two
  have hnew : ∀ k, (s.newFrame (some 1)).2.frames[k]? =
      if k = 2 then some (.empty (some 1)) else s.frames[k]? := fun k =>
    Store.getElem?_newFrame.trans (by rw [hsize])
  have hchain : (s.newFrame (some 1)).2.Chain 2 [2, 1, 0] :=
    .inside (hnew 2) rfl (.inside ((hnew 1).trans hg) hgo (.outermost ((hnew 0).trans hf) hfo))
  have hlast : 2 < (s.newFrame (some 1)).2.frames.size := by
    rw [Store.size_newFrame, hsize]
    decide
  obtain ⟨js, hjs⟩ := (hbuilt.enclosed hlt).shadowing hlast
  cases hjs.unique _ hchain
  exact ⟨_, hbuilt.enclosed hlt, hlast, hjs⟩

end Monkey
