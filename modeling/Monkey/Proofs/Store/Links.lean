import Monkey.Proofs.Store.Shadowing
import Monkey.Store.Equality

/-!
# Links between frames

Frames and functions refer to each other in circles: a function that calls itself is bound in
the frame that it was made in. But what refers to a frame refers to one that is there, and the
frames around a frame are older and older ones. So outwards from a frame there is always an end,
and a look-up that follows the links without a look at the ages of the frames comes to it
(`Store.Obtained.grounded`).
-/

namespace Monkey

namespace Store

/-! ## Look-up along the links -/

/-- Look a name up from the frame outwards, wherever the links lead, in at most `depth` frames:
what the first frame binds that binds the name, if one does. There is no answer if the links go
on for longer, or lead to a frame that is not there. -/
def follow? (s : Store) (name : String) : Nat → FrameId → Option (Option Value)
  | 0, _ => none
  | depth + 1, i =>
      match s.frames[i]? with
      | none => none
      | some f =>
          match f.get? name, f.outer with
          | some v, _ => some (some v)
          | none, some o => s.follow? name depth o
          | none, none => some none

/-- The names that are bound in the frame and in those around it, wherever the links lead, in at
most `depth` frames. -/
def collect? (s : Store) : Nat → FrameId → Option (List String)
  | 0, _ => none
  | depth + 1, i =>
      match s.frames[i]? with
      | none => none
      | some f =>
          match f.outer with
          | some o => (s.collect? depth o).map (f.names ++ ·)
          | none => some f.names

/-- The names that are bound in this very frame. -/
def localNames (s : Store) (i : FrameId) : List String :=
  s.frames[i]?.elim [] Frame.names

variable {s : Store} {i : FrameId} {js : List FrameId} {depth : Nat} {m : String}
  {ns : List String}

theorem getLocal?_of_frame {f : Frame} (hf : s.frames[i]? = some f) :
    s.getLocal? i m = f.get? m := by
  rw [getLocal?, hf]
  rfl

namespace Chain

/-- Along a chain the look-up comes to an end. -/
theorem follow?_eq (h : s.Chain i js) (hdepth : js.length ≤ depth) :
    s.follow? m depth i = some (js.findSome? (s.getLocal? · m)) := by
  induction h generalizing depth with
  | @outermost i f hf houter =>
      cases depth with
      | zero => simp at hdepth
      | succ depth =>
          rw [List.findSome?_cons, getLocal?_of_frame hf]
          cases hm : f.get? m <;> simp [follow?, hf, hm, houter]
  | @inside i f o js hf houter _ ih =>
      cases depth with
      | zero => simp at hdepth
      | succ depth =>
          have hrest := ih (Nat.le_of_succ_le_succ hdepth)
          rw [List.findSome?_cons, getLocal?_of_frame hf]
          cases hm : f.get? m <;> simp [follow?, hf, hm, houter, hrest]

/-- Along a chain all names are met. -/
theorem collect?_eq (h : s.Chain i js) (hdepth : js.length ≤ depth) :
    s.collect? depth i = some (js.flatMap s.localNames) := by
  induction h generalizing depth with
  | @outermost i f hf houter =>
      cases depth with
      | zero => simp at hdepth
      | succ depth => simp [collect?, localNames, hf, houter]
  | @inside i f o js hf houter _ ih =>
      cases depth with
      | zero => simp at hdepth
      | succ depth =>
          have hrest := ih (Nat.le_of_succ_le_succ hdepth)
          simp [collect?, localNames, hf, houter, hrest]

end Chain

/-- The names can be collected only if the links come to an end. -/
theorem exists_chain_of_collect? (h : s.collect? depth i = some ns) :
    ∃ js, s.Chain i js ∧ js.length ≤ depth := by
  induction depth generalizing i ns with
  | zero => cases h
  | succ depth ih =>
      rw [collect?] at h
      split at h
      next => cases h
      next f hf =>
        split at h
        next o houter =>
          obtain ⟨names, hnames, -⟩ := Option.map_eq_some_iff.mp h
          obtain ⟨js, hjs, hlength⟩ := ih hnames
          exact ⟨i :: js, .inside hf houter hjs, Nat.succ_le_succ hlength⟩
        next houter => exact ⟨[i], .outermost hf houter, Nat.succ_le_succ (Nat.zero_le _)⟩

/-- The names can be collected exactly if the links come to an end: in a frame that lies in
itself this takes forever. -/
theorem exists_collect?_iff :
    (∃ depth ns, s.collect? depth i = some ns) ↔ ∃ js, s.Chain i js := by
  constructor
  · rintro ⟨depth, ns, h⟩
    obtain ⟨js, hjs, -⟩ := exists_chain_of_collect? h
    exact ⟨js, hjs⟩
  · rintro ⟨js, hjs⟩
    exact ⟨js.length, _, hjs.collect?_eq (Nat.le_refl _)⟩

/-! ## Chains in well-formed stores -/

namespace WellFormed

theorem chain_le (hs : s.WellFormed) (h : s.Chain i js) : ∀ k ∈ js, k ≤ i := by
  induction h with
  | outermost => simp
  | @inside i f o js hf houter _ ih =>
      have ho : o < i := hs.older i f o hf houter
      intro k hk
      rcases List.mem_cons.mp hk with rfl | hk
      · exact Nat.le_refl k
      · exact Nat.le_of_lt (Nat.lt_of_le_of_lt (ih k hk) ho)

/-- Outwards every frame is older than the one before it. -/
theorem chain_pairwise (hs : s.WellFormed) (h : s.Chain i js) : js.Pairwise (· > ·) := by
  induction h with
  | outermost => exact List.pairwise_singleton _ _
  | @inside i f o js hf houter hjs ih =>
      have ho : o < i := hs.older i f o hf houter
      refine List.pairwise_cons.mpr ⟨fun k hk => ?_, ih⟩
      exact Nat.lt_of_le_of_lt (hs.chain_le hjs k hk) ho

/-- There are no more frames around a frame than there are older ones. -/
theorem chain_length_le (hs : s.WellFormed) (h : s.Chain i js) : js.length ≤ i + 1 := by
  induction h with
  | outermost => simp
  | @inside i f o js hf houter _ ih =>
      have ho : o < i := hs.older i f o hf houter
      exact Nat.succ_le_succ (Nat.le_trans ih ho)

theorem chain_visible (hs : s.WellFormed) (h : s.Chain i js) :
    s.visible i = js.flatMap s.localNames := by
  induction h with
  | @outermost i f hf houter =>
      rw [visible, outer?_of_none hf houter]
      simp [localNames, hf]
  | @inside i f o js hf houter _ ih =>
      rw [visible, hs.outer?_of_some hf houter]
      simp [localNames, hf, ih]

end WellFormed

end Store

/-! ## Stores that are used from outside -/

/-- A value that is made from outside: of nothing, or around a value that is held. -/
inductive Value.MadeOf (vs : List Value) (id : ObjectId) : Value → Prop where
  | int {n} : MadeOf vs id (.int id n)
  | bool {b} : MadeOf vs id (.bool b)
  | null : MadeOf vs id .null
  | returned {v} : v ∈ vs → MadeOf vs id (.returned id v)
  | error {fault} : MadeOf vs id (.error id fault)

/-- Whoever uses the store has come to it, and holds the values: frames are made, programs are
evaluated, and values that a frame sees, that a program results in or that are made outside are
held and bound. -/
inductive Store.Obtained : Store → List Value → Prop where
  | empty : Obtained .empty []
  | outermost {s vs} : Obtained s vs → Obtained (s.newFrame none).2 vs
  | enclosed {s vs o} : Obtained s vs → o < s.frames.size → Obtained (s.newFrame (some o)).2 vs
  | seen {s vs i m v} : Obtained s vs → s.get? i m = some v → Obtained s (v :: vs)
  | made {s vs v} : Obtained s vs → v.MadeOf vs s.nextObject → Obtained s.spend (v :: vs)
  | set {s vs i m v} : Obtained s vs → v ∈ vs → Obtained (s.set i m v) vs
  | evaluated {s vs env p depth v t} : Obtained s vs → env < s.frames.size →
      evaluate depth p env s = some (v, t) → Obtained t (v :: vs)
  /-- A program is still being evaluated. -/
  | evaluating {s vs env t} {p : Program Unit} : Obtained s vs → env < s.frames.size →
      Moment.Passes ⟨env, .stmts .null p.statements, s⟩ t → Obtained t vs

/-- No frame and no function refers to a frame that is not there, and no look-up goes on
forever. -/
structure Store.Grounded (s : Store) : Prop where
  outer : ∀ (i : FrameId) (f : Frame) (o : FrameId), s.frames[i]? = some f →
    f.outer = some o → o < s.frames.size ∧ o < i
  captured : ∀ (i : FrameId) (f : Frame) (b : String × Value) (k : FrameId),
    s.frames[i]? = some f → b ∈ f.bindings → b.2.Captures k → k < s.frames.size
  /-- Outwards there is an end, and no frame is met twice. -/
  chain : ∀ i < s.frames.size, ∃ js, s.Chain i js ∧ js.Pairwise (· > ·)
  followed : ∀ i < s.frames.size, ∀ depth > i, ∀ m, s.follow? m depth i = some (s.get? i m)
  collected : ∀ i < s.frames.size, ∀ depth > i, s.collect? depth i = some (s.visible i)

namespace Store

variable {s t : Store} {v : Value} {vs : List Value}

theorem grounded_of_wellFormed (hs : s.WellFormed) : s.Grounded := by
  have hchain : ∀ i < s.frames.size, ∃ js, s.Chain i js ∧ js.Pairwise (· > ·) := by
    intro i hi
    obtain ⟨js, hjs⟩ := hs.exists_chain hi
    exact ⟨js, hjs, hs.chain_pairwise hjs⟩
  refine ⟨fun i f o hf ho => ?_, fun i f b k hf hb hk => ?_, hchain, ?_, ?_⟩
  · have hi : i < s.frames.size := (Array.getElem?_eq_some_iff.mp hf).1
    have hlt : o < i := hs.older i f o hf ho
    exact ⟨Nat.lt_trans hlt hi, hlt⟩
  · exact (hs.made i f b hf hb).captures_lt hk
  · intro i hi depth hdepth m
    obtain ⟨js, hjs, -⟩ := hchain i hi
    rw [hjs.follow?_eq (Nat.le_trans (hs.chain_length_le hjs) hdepth), hjs.get?_eq hs fun _ => rfl]
  · intro i hi depth hdepth
    obtain ⟨js, hjs, -⟩ := hchain i hi
    rw [hjs.collect?_eq (Nat.le_trans (hs.chain_length_le hjs) hdepth), hs.chain_visible hjs]

/-- What a program results in was made in the store that it leaves. -/
theorem WellFormed.evaluate {p : Program Unit} {depth : Nat} {env : FrameId} (hs : s.WellFormed)
    (henv : env < s.frames.size) (heval : evaluate depth p env s = some (v, t)) :
    s.Before t ∧ v.MadeIn t := by
  obtain ⟨w, hrun, rfl⟩ := evaluate_eq_some_iff.mp ⟨depth, heval⟩
  obtain ⟨hbefore, -, hw⟩ := hrun.sound trivial henv hs.sound Value.belongsTo_null
  exact ⟨hbefore, hw.made.unwrap⟩

theorem madeIn_of_madeOf (h : v.MadeOf vs s.nextObject) (hvs : ∀ v ∈ vs, v.MadeIn s) :
    v.MadeIn s.spend := by
  cases h with
  | int | error => exact Nat.lt_succ_self _
  | bool | null => trivial
  | returned hv => exact ⟨Nat.lt_succ_self _, (hvs _ hv).mono .spend⟩

/-- What is held was made in the store. -/
theorem Obtained.built (h : s.Obtained vs) : s.Built ∧ ∀ v ∈ vs, v.MadeIn s := by
  induction h with
  | empty => exact ⟨.empty, List.forall_mem_nil _⟩
  | outermost _ ih => exact ⟨ih.1.outermost, fun v hv => (ih.2 v hv).mono .newFrame⟩
  | enclosed _ ho ih => exact ⟨ih.1.enclosed ho, fun v hv => (ih.2 v hv).mono .newFrame⟩
  | seen _ hname ih =>
      have hv := ih.1.wellFormed.region.get? trivial hname
      exact ⟨ih.1, List.forall_mem_cons.mpr ⟨hv, ih.2⟩⟩
  | made _ hmade ih =>
      have hvs := fun v hv => (ih.2 v hv).mono Store.Before.spend
      exact ⟨ih.1.object, List.forall_mem_cons.mpr ⟨madeIn_of_madeOf hmade ih.2, hvs⟩⟩
  | set _ hv ih => exact ⟨ih.1.set (ih.2 _ hv), fun v hv => (ih.2 v hv).mono .set⟩
  | evaluated _ henv heval ih =>
      obtain ⟨hbefore, hv⟩ := ih.1.wellFormed.evaluate henv heval
      have hvs := fun v hv => (ih.2 v hv).mono hbefore
      exact ⟨ih.1.evaluate henv heval, List.forall_mem_cons.mpr ⟨hv, hvs⟩⟩
  | evaluating _ henv hpasses ih =>
      obtain ⟨hbefore, -⟩ :=
        hpasses.sound ⟨trivial, henv, ih.1.wellFormed.sound, Value.belongsTo_null⟩
      exact ⟨ih.1.evaluation henv hpasses, fun v hv => (ih.2 v hv).mono hbefore⟩

/-- Whatever is done with a store, in it and among the values that are held nothing refers to a
frame that is not there, every frame lies in an older one, and so each look-up comes to an end,
in no more steps than there are older frames. -/
theorem Obtained.grounded (h : s.Obtained vs) :
    s.Grounded ∧ ∀ v ∈ vs, ∀ k, v.Captures k → k < s.frames.size := by
  obtain ⟨hbuilt, hvs⟩ := h.built
  exact ⟨grounded_of_wellFormed hbuilt.wellFormed, fun v hv k hk => (hvs v hv).captures_lt hk⟩

end Store

/-- `{ g() }` -/
def bodyOfG : Block Unit :=
  ⟨(), [.expr () (.call () (.ident ⟨(), "g"⟩) [])]⟩

/-- `{ let g = fn() { g() }; g }` -/
def bodyOfF : Block Unit :=
  ⟨(), [.let_ () ⟨(), "g"⟩ (.function () [] bodyOfG), .expr () (.ident ⟨(), "g"⟩)]⟩

/-- `let f = fn(n) { let g = fn() { g() }; g }; let h = f(1);` -/
def bindRecursive : Program Unit :=
  ⟨[.let_ () ⟨(), "f"⟩ (.function () [⟨(), "n"⟩] bodyOfF),
    .let_ () ⟨(), "h"⟩ (.call () (.ident ⟨(), "f"⟩) [.int () 1])]⟩

/-- The function `g`, which was made in the frame of the call of `f`. -/
def recursiveG : Value :=
  .closure ⟨2, [], bodyOfG, 1⟩

/-- What the program leaves: `g` is bound in the frame that it was made in, and under another
name in the frame around this one. -/
def boundRecursive : Store :=
  ⟨#[⟨none, [("h", recursiveG), ("f", .closure ⟨0, ["n"], bodyOfF, 0⟩)]⟩,
    ⟨some 0, [("g", recursiveG), ("n", .int 1 1)]⟩], 3⟩

theorem evaluate_bindRecursive :
    evaluate 1 bindRecursive 0 .single = some (.null, boundRecursive) := by
  decide +kernel

/-- The function is taken out, wrapped, and bound in a frame inside the one that it was made in. -/
def wrappedRecursive : Store :=
  (boundRecursive.spend.newFrame (some 1)).2.set 2 "r" (.returned 3 recursiveG)

/-- From each of the two outer frames one gets to the other one, and yet each look-up comes to an
end. -/
theorem recursion_is_grounded :
    wrappedRecursive.Obtained [.returned 3 recursiveG, recursiveG, .null] ∧
      wrappedRecursive.Reaches 0 1 ∧ wrappedRecursive.Reaches 1 0 ∧
      wrappedRecursive.frames.map Frame.outer = #[none, some 0, some 1] ∧
      wrappedRecursive.getLocal? 2 "r" = some (.returned 3 recursiveG) ∧
      wrappedRecursive.Grounded := by
  have hprogram : boundRecursive.Obtained [.null] :=
    (Store.Obtained.empty.outermost).evaluated Nat.one_pos evaluate_bindRecursive
  have hseen : boundRecursive.get? 0 "h" = some recursiveG := by decide +kernel
  have hobtained : wrappedRecursive.Obtained [.returned 3 recursiveG, recursiveG, .null] :=
    .set (.enclosed (.made (.seen hprogram hseen) (.returned List.mem_cons_self)) (by decide))
      List.mem_cons_self
  refine ⟨hobtained, ?_, ?_, by decide +kernel, rfl, hobtained.grounded.1⟩
  · exact .captured .self rfl List.mem_cons_self rfl
  · exact .outer .self rfl rfl

end Monkey
