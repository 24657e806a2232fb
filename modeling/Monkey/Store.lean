import Monkey.Value

/-!
# Scopes

A frame binds names to values and may lie inside an outer frame, whose names it
can see and shadow. Closures and running calls share frames, so all of them are
kept in one store and referred to by their places in it.

A frame lies inside an older one only. Looking a name up follows the outer frames
as long as they are older, and so comes to an end in every store.
-/

namespace Monkey

/-- The bindings of one scope, and the scope around it. -/
structure Frame where
  outer : Option FrameId
  bindings : List (String × Value)

namespace Frame

/-- A frame without bindings. -/
def empty (outer : Option FrameId) : Frame :=
  ⟨outer, []⟩

/-- The value bound in this very frame. -/
def get? (f : Frame) (name : String) : Option Value :=
  f.bindings.lookup name

/-- Bind the name here, in place of an earlier value. -/
def set (f : Frame) (name : String) (v : Value) : Frame :=
  { f with bindings := (name, v) :: f.bindings.filter fun b => b.1 ≠ name }

/-- The names bound in this very frame. -/
def names (f : Frame) : List String :=
  f.bindings.map Prod.fst

theorem lookup_filter_ne {name m : String} (hne : m ≠ name) (bs : List (String × Value)) :
    (bs.filter fun b => b.1 ≠ name).lookup m = bs.lookup m := by
  induction bs with
  | nil => rfl
  | cons b bs ih =>
      obtain ⟨k, v⟩ := b
      by_cases hk : k = name
      · have hm : (m == k) = false := by simpa [hk] using hne
        rw [List.filter_cons_of_neg (by simp [hk]), ih, List.lookup_cons, hm]
      · rw [List.filter_cons_of_pos (by simp [hk]), List.lookup_cons, List.lookup_cons, ih]

/-- The name just bound is bound to the value, all others as before. -/
theorem get?_set (f : Frame) (name m : String) (v : Value) :
    (f.set name v).get? m = if m = name then some v else f.get? m := by
  unfold get? set
  by_cases h : m = name
  · rw [if_pos h, List.lookup_cons, beq_iff_eq.mpr h]
  · have hm : (m == name) = false := by simpa using h
    rw [if_neg h, List.lookup_cons, hm, lookup_filter_ne h]

end Frame

/-- All frames ever made, oldest first, and the number of the next object. -/
structure Store where
  frames : Array Frame
  nextObject : ObjectId

namespace Store

/-- The store before anything was made. -/
def empty : Store :=
  ⟨#[], 0⟩

/-- Add a frame, and say where it is. -/
def newFrame (s : Store) (outer : Option FrameId) : FrameId × Store :=
  (s.frames.size, { s with frames := s.frames.push (.empty outer) })

/-- Bind the name in the given frame, whatever its outer frames bind. -/
def set (s : Store) (i : FrameId) (name : String) (v : Value) : Store :=
  { s with frames := s.frames.modify i (·.set name v) }

/-- The frame around the given one, if it is older. -/
def outer? (s : Store) (i : FrameId) : Option { o : FrameId // o < i } :=
  match s.frames[i]?.bind Frame.outer with
  | some o => if h : o < i then some ⟨o, h⟩ else none
  | none => none

/-- The value bound in this very frame. -/
def getLocal? (s : Store) (i : FrameId) (name : String) : Option Value :=
  s.frames[i]?.bind (·.get? name)

theorem outer?_set (s : Store) (i j : FrameId) (name : String) (v : Value) :
    (s.set i name v).outer? j = s.outer? j := by
  have houter : (s.set i name v).frames[j]?.bind Frame.outer =
      s.frames[j]?.bind Frame.outer := by
    simp only [set, Array.getElem?_modify]
    split
    · cases s.frames[j]? <;> rfl
    · rfl
  unfold outer?
  rw [houter]

/-- Binding a name changes what one frame binds to it, and nothing else. -/
theorem getLocal?_set (s : Store) (i j : FrameId) (name m : String) (v : Value) :
    (s.set i name v).getLocal? j m =
      if i = j ∧ i < s.frames.size ∧ m = name then some v else s.getLocal? j m := by
  unfold getLocal? set
  simp only [Array.getElem?_modify]
  by_cases hij : i = j
  · subst hij
    by_cases hlt : i < s.frames.size
    · simp [hlt, Frame.get?_set]
    · simp [hlt]
  · simp [hij]

/-- The value that the frame sees under the name: its own, or what the outer frame
sees. -/
def get? (s : Store) (i : FrameId) (name : String) : Option Value :=
  match s.getLocal? i name with
  | some v => some v
  | none =>
      match s.outer? i with
      | some ⟨o, _⟩ => s.get? o name
      | none => none
termination_by i

/-- The names that the frame sees, its own first, shadowed ones repeated. -/
def visible (s : Store) (i : FrameId) : List String :=
  (s.frames[i]?.elim [] Frame.names) ++
    match s.outer? i with
    | some ⟨o, _⟩ => s.visible o
    | none => []
termination_by i

/-- The names that the frame sees, each once, in the order of their characters. -/
def names (s : Store) (i : FrameId) : List String :=
  (s.visible i).eraseDups.mergeSort fun a b => a ≤ b

end Store

end Monkey
