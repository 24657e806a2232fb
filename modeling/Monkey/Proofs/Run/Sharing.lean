import Monkey.Proofs.Run.Memory
import Monkey.Proofs.Run.Parallel

/-!
# Values in memory

A memory represents a store if the frames bind addresses where the store binds values, and the
objects at the addresses are the values (`Memory.Heap.Represents`). Objects with a number lie
behind the three that are shared, in the order of their numbers, and no truth value and no
`null` is among them. Evaluation keeps it so (`Memory.follows_evaluate`): no truth value and
no `null` is ever made, two values are the same object exactly if they have one address, and so
`==` answers the same in memory as between values.
-/

namespace Monkey.Memory

/-- The value lies at the address. -/
inductive Heap.Holds (σ : Heap) : Address → Value → Prop where
  | int {i n} : σ.objects[i + 3]? = some (.int n) → σ.Holds (i + 3) (.int i n)
  | bool {b} : σ.objects[truth b]? = some (.bool b) → σ.Holds (truth b) (.bool b)
  | null : σ.objects[nothing]? = some .null → σ.Holds nothing .null
  | returned {i a v} : σ.objects[i + 3]? = some (.returned a) → σ.Holds a v →
      σ.Holds (i + 3) (.returned i v)
  | error {i fault} : σ.objects[i + 3]? = some (.error fault) → σ.Holds (i + 3) (.error i fault)
  | closure {c : Closure} : σ.objects[c.id + 3]? = some (.function c.params c.body c.env) →
      σ.Holds (c.id + 3) (.closure c)

/-- The frame binds the addresses of the values that the other frame binds. -/
structure Heap.HoldsFrame (σ : Heap) (f : Frame) (g : Monkey.Frame) : Prop where
  outer : f.outer = g.outer
  bindings : List.Forall₂ (fun b c => b.1 = c.1 ∧ σ.Holds b.2 c.2) f.bindings g.bindings

/-- The memory holds what is in the store. Truth values and `null` are in it once. -/
structure Heap.Represents (σ : Heap) (s : Store) : Prop where
  objects : σ.objects.size = s.nextObject + 3
  frames : σ.frames.size = s.frames.size
  truth : ∀ b, σ.objects[truth b]? = some (.bool b)
  nothing : σ.objects[nothing]? = some .null
  bools : ∀ a b, σ.objects[a]? = some (.bool b) → a = Memory.truth b
  nulls : ∀ a, σ.objects[a]? = some .null → a = Memory.nothing
  holds : ∀ i : FrameId, Option.Rel σ.HoldsFrame σ.frames[i]? s.frames[i]?

/-- All objects stay where they are. -/
def Heap.Grows (σ σ' : Heap) : Prop :=
  ∀ (a : Address) (o : Object), σ.objects[a]? = some o → σ'.objects[a]? = some o

variable {σ σ' τ : Heap} {s s' : Store} {a b : Address} {v w : Value} {o : Object}

namespace Heap

namespace Grows

theorem refl : σ.Grows σ :=
  fun _ _ h => h

theorem trans (h : σ.Grows σ') (h' : σ'.Grows τ) : σ.Grows τ :=
  fun a o ho => h' a o (h a o ho)

theorem holds (h : σ.Grows σ') (hv : σ.Holds a v) : σ'.Holds a v := by
  induction hv with
  | int ho => exact .int (h _ _ ho)
  | bool ho => exact .bool (h _ _ ho)
  | null ho => exact .null (h _ _ ho)
  | returned ho _ ih => exact .returned (h _ _ ho) ih
  | error ho => exact .error (h _ _ ho)
  | closure ho => exact .closure (h _ _ ho)

theorem holdsFrame (h : σ.Grows σ') {f : Frame} {g : Monkey.Frame} (hf : σ.HoldsFrame f g) :
    σ'.HoldsFrame f g :=
  ⟨hf.outer, hf.bindings.imp fun _ _ hb => ⟨hb.1, h.holds hb.2⟩⟩

end Grows

/-! ## One address for one object -/

/-- At one address there is one value. -/
theorem Holds.value_unique (hv : σ.Holds a v) (hw : σ.Holds a w) : w = v := by
  induction hv generalizing w with
  | @returned i a v ho _ ih =>
      generalize ha : i + 3 = a at hw ho
      cases hw with
      | returned ho' hv' =>
          rw [ho] at ho'
          cases ho'
          cases ih hv'
          cases ha
          rfl
      | _ => simp_all
  | @int i n ho =>
      generalize ha : i + 3 = a at hw ho
      cases hw <;> simp_all
  | @error i fault ho =>
      generalize ha : i + 3 = a at hw ho
      cases hw <;> simp_all
  | @closure c ho =>
      generalize ha : c.id + 3 = a at hw ho
      cases hw with
      | @closure d ho' =>
          obtain ⟨id, params, body, env⟩ := c
          obtain ⟨id', params', body', env'⟩ := d
          simp_all
      | _ => simp_all
  | @bool b ho =>
      generalize ha : truth b = a at hw ho
      cases hw <;> simp_all
  | null ho =>
      generalize ha : nothing = a at hw ho
      cases hw <;> simp_all

/-- Two values are the same object exactly if they have the same address. -/
theorem Holds.same_iff (hv : σ.Holds a v) (hw : σ.Holds b w) : v.same w ↔ a = b := by
  constructor
  · intro hsame
    cases hv <;> cases hw <;> simp_all [Value.same]
  · rintro rfl
    cases hv.value_unique hw
    cases v <;> simp [Value.same]

theorem Holds.eq_truth {b : Bool} (h : σ.Holds a (.bool b)) : a = truth b := by
  cases h
  rfl

/-- What is told of the object alone is the same as of the value. -/
structure Looks (o : Object) (v : Value) : Prop where
  type : o.type = v.type
  isError : o.isError = v.isError
  stops : o.stops = v.stops
  isTruthy : o.isTruthy = v.isTruthy

theorem Holds.exists_object (h : σ.Holds a v) : ∃ o, σ.objects[a]? = some o ∧ Looks o v := by
  cases h with
  | int ho | bool ho | null ho | returned ho | error ho | closure ho =>
      exact ⟨_, ho, rfl, rfl, rfl, rfl⟩

/-! ## Steps of a memory -/

theorem getElem?_push :
    (σ.objects.push o)[a]? = if a = σ.objects.size then some o else σ.objects[a]? :=
  Array.getElem?_push

theorem grows_alloc : σ.Grows { σ with objects := σ.objects.push o } := by
  intro a o' ho'
  have hlt : a < σ.objects.size := (Array.getElem?_eq_some_iff.mp ho').1
  change (σ.objects.push o)[a]? = some o'
  rw [getElem?_push, if_neg hlt.ne, ho']

namespace Represents

/-- An object is put in a new place, if it is none of those that are shared. -/
theorem alloc (h : σ.Represents s) (hbool : ∀ b, o ≠ .bool b) (hnull : o ≠ .null) :
    Represents { σ with objects := σ.objects.push o } s.spend := by
  have hgrows : σ.Grows { σ with objects := σ.objects.push o } := grows_alloc
  refine ⟨?_, h.frames, fun b => hgrows _ _ (h.truth b), hgrows _ _ h.nothing, ?_, ?_, ?_⟩
  · change (σ.objects.push o).size = s.nextObject + 1 + 3
    rw [Array.size_push, h.objects]
  · intro a b ha
    change (σ.objects.push o)[a]? = _ at ha
    rw [getElem?_push] at ha
    split at ha
    · cases ha
      exact absurd rfl (hbool b)
    · exact h.bools a b ha
  · intro a ha
    change (σ.objects.push o)[a]? = _ at ha
    rw [getElem?_push] at ha
    split at ha
    · cases ha
      exact absurd rfl hnull
    · exact h.nulls a ha
  · exact fun i => rel_imp (fun _ _ => hgrows.holdsFrame) (h.holds i)

end Represents

theorem HoldsFrame.get? {f : Frame} {g : Monkey.Frame} (h : σ.HoldsFrame f g) (name : String) :
    Option.Rel σ.Holds (f.get? name) (g.get? name) := by
  obtain ⟨outer, bs⟩ := f
  obtain ⟨outer', cs⟩ := g
  have hbindings : List.Forall₂ _ bs cs := h.bindings
  change Option.Rel _ (bs.lookup name) (cs.lookup name)
  clear h
  induction hbindings with
  | nil => exact .none
  | @cons b c bs cs hbc _ ih =>
      obtain ⟨m, a⟩ := b
      obtain ⟨n, v⟩ := c
      obtain ⟨rfl, hv⟩ := hbc
      rw [List.lookup_cons, List.lookup_cons]
      cases name == m with
      | true => exact .some hv
      | false => exact ih

theorem HoldsFrame.set {f : Frame} {g : Monkey.Frame} (h : σ.HoldsFrame f g) {name : String}
    (hv : σ.Holds a v) : σ.HoldsFrame (f.set name a) (g.set name v) := by
  refine ⟨h.outer, .cons ⟨rfl, hv⟩ ?_⟩
  refine List.rel_filter ?_ h.bindings
  intro b c hbc
  simp [hbc.1]

namespace Represents

theorem bind (h : σ.Represents s) (hv : σ.Holds a v) {i : FrameId} {name : String} :
    (σ.set i name a).Represents (s.set i name v) := by
  have hsame : σ.Grows (σ.set i name a) := fun _ _ ho => ho
  refine ⟨h.objects, ?_, h.truth, h.nothing, h.bools, h.nulls, fun j => ?_⟩
  · change (σ.frames.modify i _).size = (s.frames.modify i _).size
    rw [Array.size_modify, Array.size_modify, h.frames]
  · change Option.Rel _ (σ.frames.modify i _)[j]? (s.frames.modify i _)[j]?
    rw [Array.getElem?_modify, Array.getElem?_modify]
    split
    · exact rel_map (h.holds j) fun _ _ hf => hsame.holdsFrame (hf.set hv)
    · exact rel_imp (fun _ _ => hsame.holdsFrame) (h.holds j)

theorem enclose (h : σ.Represents s) {outer : FrameId} :
    Represents { σ with frames := σ.frames.push ⟨some outer, []⟩ }
      (s.newFrame (some outer)).2 := by
  have hsame : σ.Grows { σ with frames := σ.frames.push ⟨some outer, []⟩ } := fun _ _ ho => ho
  refine ⟨h.objects, ?_, h.truth, h.nothing, h.bools, h.nulls, fun j => ?_⟩
  · change (σ.frames.push _).size = (s.frames.push _).size
    rw [Array.size_push, Array.size_push, h.frames]
  · change Option.Rel _ (σ.frames.push _)[j]? (s.frames.push _)[j]?
    rw [Array.getElem?_push, Array.getElem?_push, h.frames]
    split
    · exact .some ⟨rfl, .nil⟩
    · exact rel_imp (fun _ _ => hsame.holdsFrame) (h.holds j)

theorem outer?_eq (h : σ.Represents s) (i : FrameId) : σ.outer? i = s.outer? i := by
  have houter : σ.frames[i]?.bind Frame.outer = s.frames[i]?.bind Monkey.Frame.outer := by
    generalize σ.frames[i]? = x, s.frames[i]? = y, h.holds i = hrel
    cases hrel with
    | none => rfl
    | some hf => exact hf.outer
  unfold Heap.outer? Store.outer?
  cases hframe : s.frames[i]?.bind Monkey.Frame.outer with
  | none => simp only [houter, hframe]
  | some o => simp only [houter, hframe]

/-- What a frame sees is the address of what it sees in the store. -/
theorem get? (h : σ.Represents s) (name : String) (i : FrameId) :
    Option.Rel σ.Holds (σ.get? i name) (s.get? i name) := by
  have hlocal : Option.Rel σ.Holds (σ.frames[i]?.bind (·.get? name)) (s.getLocal? i name) :=
    rel_bind (h.holds i) fun _ _ hf => hf.get? name
  rw [Heap.get?, Store.get?, h.outer?_eq]
  generalize σ.frames[i]?.bind (·.get? name) = x at hlocal ⊢
  generalize s.getLocal? i name = y at hlocal ⊢
  cases hlocal with
  | some hv => exact .some hv
  | none =>
      cases s.outer? i with
      | none => exact .none
      | some o => exact h.get? name o.1
termination_by i
decreasing_by exact o.2

end Represents

end Heap

/-! ## Computations -/

/-- In a memory that has grown from the first one, and in a store that it represents, both
computations have an answer or none has; by then the memory has grown further, represents the
store, and relates the answers. -/
def Follows {α β : Type} (σ : Heap) (R : Heap → α → β → Prop) (x : Eval α)
    (y : Monkey.Eval β) : Prop :=
  ∀ σ' s, σ.Grows σ' → σ'.Represents s →
    Option.Rel (fun r t => σ'.Grows r.2 ∧ r.2.Represents t.2 ∧ R r.2 r.1 t.1) (x σ') (y s)

section Computations

variable {α β γ δ : Type} {R : Heap → α → β → Prop} {Q : Heap → γ → δ → Prop} {x : Eval α}
  {y : Monkey.Eval β}

namespace Follows

theorem pure {r : α} {t : β} (h : ∀ σ', σ.Grows σ' → R σ' r t) :
    Follows σ R (pure r) (pure t) :=
  fun σ' _ hσ hs => .some ⟨.refl, hs, h σ' hσ⟩

theorem bind {f : α → Eval γ} {g : β → Monkey.Eval δ} (hx : Follows σ R x y)
    (hf : ∀ σ' r t, σ.Grows σ' → R σ' r t → Follows σ' Q (f r) (g t)) :
    Follows σ Q (x >>= f) (y >>= g) := by
  intro σ' s hσ hs
  change Option.Rel _ ((x σ').bind fun r => f r.1 r.2) ((y s).bind fun t => g t.1 t.2)
  refine rel_bind (hx σ' s hσ hs) ?_
  rintro ⟨r, σ₁⟩ ⟨t, s₁⟩ ⟨hσ₁, hs₁, hrt⟩
  refine rel_imp ?_ (hf σ₁ r t (hσ.trans hσ₁) hrt σ₁ s₁ .refl hs₁)
  rintro u w ⟨hσ₂, h⟩
  exact ⟨hσ₁.trans hσ₂, h⟩

/-- To look at an object takes no step of the other computation. -/
theorem load {k : Object → Eval α} (ho : σ.objects[a]? = some o) (h : Follows σ R (k o) y) :
    Follows σ R (Eval.load a >>= k) y := by
  intro σ' s hσ hs
  have hload : (Eval.load a >>= k) σ' = k o σ' := by
    change (Option.map (fun o => (o, σ')) σ'.objects[a]?).bind (fun r => k r.1 r.2) = _
    rw [hσ a o ho]
    rfl
  rw [hload]
  exact h σ' s hσ hs

end Follows

end Computations

/-- What the computation answers is where the value lies that the other one answers. -/
abbrev FollowsValue (σ : Heap) (x : Eval Address) (y : Monkey.Eval Value) : Prop :=
  Follows σ Heap.Holds x y

theorem follows_value (h : σ.Holds a v) : FollowsValue σ (pure a) (pure v) :=
  .pure fun _ hσ => hσ.holds h

theorem follows_alloc {make : ObjectId → Value} (hbool : ∀ b, o ≠ .bool b) (hnull : o ≠ .null)
    (hmake : ∀ σ' i, σ.Grows σ' → σ'.objects[i + 3]? = some o → σ'.Holds (i + 3) (make i)) :
    FollowsValue σ (Eval.alloc o) (do return make (← Monkey.Eval.freshId)) := by
  intro σ' s hσ hs
  refine .some ⟨Heap.grows_alloc, hs.alloc hbool hnull, ?_⟩
  have hplace : (σ'.objects.push o)[s.nextObject + 3]? = some o := by
    rw [Heap.getElem?_push, if_pos hs.objects.symm]
  have hheld := hmake { σ' with objects := σ'.objects.push o } s.nextObject
    (hσ.trans Heap.grows_alloc) hplace
  rw [← hs.objects] at hheld
  exact hheld

theorem follows_int {n : Int64} :
    FollowsValue σ (Eval.alloc (.int n)) (Monkey.Eval.newInt n) :=
  follows_alloc nofun nofun fun _ _ _ ho => .int ho

theorem follows_error {fault : Fault} :
    FollowsValue σ (Eval.alloc (.error fault)) (Monkey.Eval.newError fault) :=
  follows_alloc nofun nofun fun _ _ _ ho => .error ho

theorem follows_returned (h : σ.Holds a v) :
    FollowsValue σ (Eval.alloc (.returned a)) (Monkey.Eval.newReturned v) :=
  follows_alloc nofun nofun fun _ _ hσ ho => .returned ho (hσ.holds h)

theorem follows_function {params : List String} {body : Block Unit} {env : FrameId} :
    FollowsValue σ (Eval.alloc (.function params body env))
      (do return .closure ⟨← Monkey.Eval.freshId, params, body, env⟩) :=
  follows_alloc nofun nofun fun σ' i _ ho => @Heap.Holds.closure σ' ⟨i, params, body, env⟩ ho

theorem follows_truth {b : Bool} : FollowsValue σ (pure (truth b)) (pure (.bool b)) :=
  fun _ _ _ hs => .some ⟨.refl, hs, .bool (hs.truth b)⟩

theorem follows_nothing : FollowsValue σ (pure nothing) (pure .null) :=
  fun _ _ _ hs => .some ⟨.refl, hs, .null hs.nothing⟩

theorem follows_unlessError {x : Eval Address} {y : Monkey.Eval Value}
    {k : Address → Eval Address} {f : Value → Monkey.Eval Value} (hx : FollowsValue σ x y)
    (hk : ∀ σ' a v, σ.Grows σ' → σ'.Holds a v → FollowsValue σ' (k a) (f v)) :
    FollowsValue σ (x.unlessError k) (y.unlessError f) := by
  refine hx.bind fun σ' a v hσ hv => ?_
  obtain ⟨o, ho, hlooks⟩ := hv.exists_object
  refine .load ho ?_
  rw [hlooks.isError]
  split
  · exact follows_value hv
  · exact hk σ' a v hσ hv

theorem follows_getName {i : FrameId} {name : String} :
    FollowsValue σ (Eval.getName i name) (Monkey.Eval.getName i name) := by
  intro σ' s _ hs
  unfold Eval.getName Monkey.Eval.getName
  match σ'.get? i name, s.get? i name, hs.get? name i with
  | _, _, .some hv => exact .some ⟨.refl, hs, hv⟩
  | _, _, .none => exact follows_error σ' s .refl hs

theorem follows_bindName {i : FrameId} {name : String} (h : σ.Holds a v) :
    Follows σ (fun _ _ _ => True) (Eval.bindName i name a) (Monkey.Eval.bindName i name v) :=
  fun _ _ hσ hs => .some ⟨fun _ _ ho => ho, hs.bind (hσ.holds h), trivial⟩

theorem follows_bindAll {i : FrameId} {names : List String} {as : List Address}
    {vs : List Value} (h : List.Forall₂ σ.Holds as vs) :
    Follows σ (fun _ _ _ => True) (Eval.bindAll i (names.zip as))
      (Monkey.Eval.bindAll i (names.zip vs)) := by
  induction names generalizing σ as vs with
  | nil => exact .pure fun _ _ => trivial
  | cons name names ih =>
      cases h with
      | nil => exact .pure fun _ _ => trivial
      | cons hv hvs =>
          refine (follows_bindName hv).bind fun σ' _ _ hσ _ => ?_
          exact ih (hvs.imp fun _ _ => hσ.holds)

theorem follows_enclose {outer : FrameId} :
    Follows σ (fun _ i j => i = j) (Eval.enclose outer) (Monkey.Eval.enclose outer) :=
  fun _ _ _ hs => .some ⟨fun _ _ ho => ho, hs.enclose, hs.frames⟩

theorem follows_unwrap (h : σ.Holds a v) : FollowsValue σ (Eval.unwrap a) (pure v.unwrap) := by
  have hself := follows_value h
  cases h with
  | returned ho hv => exact .load ho (follows_value hv)
  | int ho | bool ho | null ho | error ho | closure ho => exact .load ho hself

/-! ## Operators -/

theorem follows_evalUnary {op : UnaryOp} (h : σ.Holds a v) :
    FollowsValue σ (evalUnary op a) (Monkey.evalUnary op v) := by
  cases op with
  | not =>
      obtain ⟨o, ho, hlooks⟩ := h.exists_object
      refine .load ho ?_
      change FollowsValue σ (pure (truth !o.isTruthy)) _
      rw [hlooks.isTruthy]
      exact follows_truth
  | negate =>
      cases h with
      | int ho => exact .load ho follows_int
      | bool ho | null ho | returned ho | error ho | closure ho => exact .load ho follows_error

theorem follows_evalInts {op : BinaryOp} {m n : Int64} :
    FollowsValue σ (evalInts op m n) (Monkey.evalInts op m n) := by
  cases op with
  | divide =>
      rw [evalInts, Monkey.evalInts]
      split
      · exact follows_error
      · exact follows_int
  | add | subtract | multiply => exact follows_int
  | less | greater | equal | notEqual => exact follows_truth

theorem evalObjects_of_not_integers {op : BinaryOp} {o o' : Object}
    (h : ¬(o.type = .integer ∧ o'.type = .integer)) :
    evalObjects op a b o o' =
      match op with
      | .equal => pure (truth (a = b))
      | .notEqual => pure (truth (a ≠ b))
      | op =>
          if o.type = o'.type then Eval.alloc (.error (.unknownOperator op o.type))
          else Eval.alloc (.error (.typeMismatch op o.type o'.type)) := by
  unfold evalObjects
  split
  · exact absurd ⟨rfl, rfl⟩ h
  · rfl

/-- Unless both are integers, objects are compared by address as values are by number. -/
theorem follows_evalBinary (op : BinaryOp) (hv : σ.Holds a v) (hw : σ.Holds b w) :
    FollowsValue σ (evalBinary op a b) (Monkey.evalBinary op v w) := by
  obtain ⟨o, ho, hlooks⟩ := hv.exists_object
  obtain ⟨o', ho', hlooks'⟩ := hw.exists_object
  refine .load ho (.load ho' ?_)
  by_cases hints : v.type = .integer ∧ w.type = .integer
  · obtain ⟨hint, hint'⟩ := hints
    cases hv with
    | int hm => cases hw with
      | int hn =>
          cases ho.symm.trans hm
          cases ho'.symm.trans hn
          exact follows_evalInts
      | _ => cases hint'
    | _ => cases hint
  · have hobjects : ¬(o.type = .integer ∧ o'.type = .integer) := by
      rw [hlooks.type, hlooks'.type]
      exact hints
    have hsame : v.same w = decide (a = b) := by
      rw [Bool.eq_iff_iff, decide_eq_true_iff]
      exact hv.same_iff hw
    rw [evalObjects_of_not_integers hobjects, evalBinary_of_not_integers hints, hlooks.type,
      hlooks'.type, hsame]
    cases op with
    | equal => exact follows_truth
    | notEqual =>
        rw [← decide_not]
        exact follows_truth
    | _ =>
        dsimp only
        split <;> exact follows_error

/-! ## Expressions and statements -/

/-- Applied to addresses of values, the first function does what the second one does. -/
def FollowsApply (ap : Address → List Address → Eval Address)
    (ap' : Value → List Value → Monkey.Eval Value) : Prop :=
  ∀ σ a v as vs, Heap.Holds σ a v → List.Forall₂ σ.Holds as vs →
    FollowsValue σ (ap a as) (ap' v vs)

/-- The addresses of arguments, or of the first error among them. -/
inductive HoldsArgs (σ : Heap) :
    Except Address (List Address) → Except Value (List Value) → Prop where
  | error {a : Address} {v : Value} : σ.Holds a v → HoldsArgs σ (.error a) (.error v)
  | ok {as : List Address} {vs : List Value} : List.Forall₂ σ.Holds as vs →
      HoldsArgs σ (.ok as) (.ok vs)

variable {ap : Address → List Address → Eval Address}
  {ap' : Value → List Value → Monkey.Eval Value} {env : FrameId}

mutual

theorem follows_evalExpr {σ : Heap} (hap : FollowsApply ap ap') (e : Expr Unit) :
    FollowsValue σ (evalExpr ap env e) (Monkey.evalExpr ap' env e) := by
  match e with
  | .ident id => exact follows_getName
  | .int t n => exact follows_int
  | .bool t b => exact follows_truth
  | .unary t op e =>
      rw [evalExpr, Monkey.evalExpr]
      exact follows_unlessError (follows_evalExpr hap e) fun _ _ _ _ hv => follows_evalUnary hv
  | .binary t op l r =>
      rw [evalExpr, Monkey.evalExpr]
      refine follows_unlessError (follows_evalExpr hap l) fun σ₁ a v hσ₁ hv => ?_
      refine follows_unlessError (follows_evalExpr hap r) fun σ₂ b w hσ₂ hw => ?_
      exact follows_evalBinary op (hσ₂.holds hv) hw
  | .cond t c b none =>
      rw [evalExpr, Monkey.evalExpr]
      refine follows_unlessError (follows_evalExpr hap c) fun σ₁ a v hσ₁ hv => ?_
      obtain ⟨o, ho, hlooks⟩ := hv.exists_object
      refine .load ho ?_
      rw [hlooks.isTruthy]
      split
      · exact follows_evalBlock hap b
      · exact follows_nothing
  | .cond t c b (some e) =>
      rw [evalExpr, Monkey.evalExpr]
      refine follows_unlessError (follows_evalExpr hap c) fun σ₁ a v hσ₁ hv => ?_
      obtain ⟨o, ho, hlooks⟩ := hv.exists_object
      refine .load ho ?_
      rw [hlooks.isTruthy]
      split
      · exact follows_evalBlock hap b
      · exact follows_evalBlock hap e
  | .function t ids b =>
      rw [evalExpr, Monkey.evalExpr]
      exact follows_function
  | .call t f es =>
      rw [evalExpr, Monkey.evalExpr]
      refine follows_unlessError (follows_evalExpr hap f) fun σ₁ a v hσ₁ hv => ?_
      refine (follows_evalArgs hap es).bind fun σ₂ r r' hσ₂ hr => ?_
      cases hr with
      | error hw => exact follows_value hw
      | ok hvs => exact hap σ₂ a v _ _ (hσ₂.holds hv) hvs
termination_by structural e

theorem follows_evalArgs {σ : Heap} (hap : FollowsApply ap ap') (es : List (Expr Unit)) :
    Follows σ HoldsArgs (evalArgs ap env es) (Monkey.evalArgs ap' env es) := by
  match es with
  | [] => exact .pure fun _ _ => .ok .nil
  | e :: es =>
      rw [evalArgs, Monkey.evalArgs]
      refine (follows_evalExpr hap e).bind fun σ₁ a v hσ₁ hv => ?_
      obtain ⟨o, ho, hlooks⟩ := hv.exists_object
      refine .load ho ?_
      rw [hlooks.isError]
      split
      · exact .pure fun _ hσ => .error (hσ.holds hv)
      · refine (follows_evalArgs hap es).bind fun σ₂ r r' hσ₂ hr => .pure fun σ₃ hσ₃ => ?_
        cases hr with
        | error hw => exact .error (hσ₃.holds hw)
        | ok hvs =>
            refine .ok (.cons (hσ₃.holds (hσ₂.holds hv)) ?_)
            exact hvs.imp fun _ _ => hσ₃.holds
termination_by structural es

theorem follows_evalStmt {σ : Heap} (hap : FollowsApply ap ap') (st : Stmt Unit) :
    FollowsValue σ (evalStmt ap env st) (Monkey.evalStmt ap' env st) := by
  match st with
  | .let_ t id e =>
      rw [evalStmt, Monkey.evalStmt]
      refine follows_unlessError (follows_evalExpr hap e) fun σ₁ a v hσ₁ hv => ?_
      exact (follows_bindName hv).bind fun _ _ _ _ _ => follows_nothing
  | .return_ t e =>
      rw [evalStmt, Monkey.evalStmt]
      exact follows_unlessError (follows_evalExpr hap e) fun _ _ _ _ hv => follows_returned hv
  | .expr t e =>
      rw [evalStmt, Monkey.evalStmt]
      exact follows_evalExpr hap e
  | .block b =>
      rw [evalStmt, Monkey.evalStmt]
      exact follows_evalBlock hap b
termination_by structural st

theorem follows_evalStmts {σ : Heap} (hap : FollowsApply ap ap') {a : Address} {v : Value}
    (hlast : σ.Holds a v) (ss : List (Stmt Unit)) :
    FollowsValue σ (evalStmts ap env a ss) (Monkey.evalStmts ap' env v ss) := by
  match ss with
  | [] => exact follows_value hlast
  | st :: ss =>
      rw [evalStmts, Monkey.evalStmts]
      refine (follows_evalStmt hap st).bind fun σ₁ b w hσ₁ hw => ?_
      obtain ⟨o, ho, hlooks⟩ := hw.exists_object
      refine .load ho ?_
      rw [hlooks.stops]
      split
      · exact follows_value hw
      · exact follows_evalStmts hap hw ss
termination_by structural ss

theorem follows_evalBlock {σ : Heap} (hap : FollowsApply ap ap') (b : Block Unit) :
    FollowsValue σ (evalBlock ap env b) (Monkey.evalBlock ap' env b) := by
  match b with
  | .mk t ss =>
      rw [evalBlock, Monkey.evalBlock]
      intro σ' s hσ hs
      exact follows_evalStmts hap (.null hs.nothing) ss σ' s .refl hs
termination_by structural b

end

/-! ## Calls and programs -/

theorem followsApply_apply (depth : Nat) : FollowsApply (apply depth) (Monkey.apply depth) := by
  induction depth with
  | zero => exact fun _ _ _ _ _ _ _ _ _ _ _ => .none
  | succ depth ih =>
      intro σ a v as vs h hvs
      cases h with
      | @closure c ho =>
          refine .load ho ?_
          rw [Monkey.apply, ← hvs.length_eq]
          change Follows σ Heap.Holds (if c.params.length = as.length then _ else _) _
          split
          · refine follows_enclose.bind fun σ₁ i j hσ₁ hij => ?_
            subst hij
            refine (follows_bindAll (hvs.imp fun _ _ => hσ₁.holds)).bind fun σ₂ _ _ _ _ => ?_
            exact (follows_evalBlock ih c.body).bind fun _ _ _ _ hw => follows_unwrap hw
          · exact follows_error
      | int ho | bool ho | null ho | returned ho | error ho => exact .load ho follows_error

/-- Run on objects in memory, a program does what it does between values. -/
theorem follows_evaluate (depth : Nat) (p : Program Unit) (env : FrameId) :
    FollowsValue σ (evaluate depth p env) (Monkey.evaluate depth p env) := by
  intro σ' s hσ hs
  refine Follows.bind (σ := σ') ?_ (fun _ _ _ _ hv => follows_unwrap hv) σ' s .refl hs
  exact follows_evalStmts (followsApply_apply depth) (.null hs.nothing) p.statements

end Monkey.Memory
