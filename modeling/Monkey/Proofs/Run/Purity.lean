import Monkey.Proofs.Run.Parallel
import Monkey.Proofs.Run.WellFormed
import Monkey.Proofs.Store.Twins
import Monkey.Store.Equality

/-!
# Calls are pure

What a call comes to hangs on the function, on the arguments, and on the frames that one gets
to from them. A call changes none of these frames: it binds names in new ones. So the same
call made again comes to what looks the same (`call_made_again`).
-/

namespace Monkey

variable {R : FrameId → Prop} {depth : Nat} {f v : Value} {vs : List Value}
  {s s₁ t : Store}

/-- A call keeps the store well formed, in whatever region the function and the arguments
belong to. -/
theorem sound_apply (h : apply depth f vs s = some (v, s₁)) (hs : s.Sound R)
    (hf : f.BelongsTo s R) (hvs : ∀ v ∈ vs, v.BelongsTo s R) :
    s.Before s₁ ∧ s₁.Sound R ∧ v.BelongsTo s₁ R := by
  cases depth with
  | zero => cases h
  | succ depth =>
      cases f with
      | closure c =>
          -- any frame of the region will do to make the call in
          have hrun := appliesLikeRuns_apply (depth + 1) c.env (.closure c) vs s v s₁ h
          exact hrun.sound (hf.stays c.env rfl) hf.made.2 hs ⟨hf, hvs⟩
      | _ =>
          cases h
          exact ⟨.spend, hs.spend, Value.belongsTo_error⟩

/-- A call leaves the frames that are there as they are. -/
theorem getElem?_apply (h : apply depth f vs s = some (v, s₁)) {i : FrameId}
    (hi : i < s.frames.size) : s₁.frames[i]? = s.frames[i]? := by
  have hrun := appliesLikeRuns_apply depth s.frames.size f vs s v s₁ h
  exact hrun.writes.getElem?_eq hi (Nat.ne_of_lt hi)

/-- In a later store that has the frames of the region as they were, the same call comes to
what looks the same. -/
theorem exists_apply_later (h : apply depth f vs s = some (v, s₁)) (hs : s.Sound R)
    (hf : f.BelongsTo s R) (hvs : ∀ v ∈ vs, v.BelongsTo s R) (hbefore : s.Before t)
    (hframes : ∀ i, R i → i < s.frames.size → t.frames[i]? = s.frames[i]?) :
    ∃ u t₁, apply depth f vs t = some (u, t₁) ∧ v.LooksLike u := by
  -- nothing is renamed: any name stands for itself
  have hpairs : (Pairing.identity s R).Holds "" "" s t :=
    Pairing.holds_identity hs hbefore hframes
  have hargs : List.Forall₂ ((Pairing.identity s R).Values "" "") vs vs :=
    List.forall₂_same.mpr fun v hv => Pairing.values_identity (hvs v hv)
  have hrel := parallelApply_apply depth _ f f vs vs (Pairing.values_identity hf) hargs
    _ s t .refl hpairs
  rw [h] at hrel
  obtain ⟨⟨u, t₁⟩, hu, w, -, -, hvu⟩ := exists_of_rel_some hrel
  exact ⟨u, t₁, hu, hvu.looksLike⟩

/-- A call that came to an end does so again, right after it, and the two results are of one
type and look the same: as numbers, as texts of errors, or as functions. -/
theorem call_made_again (hs : s.WellFormed) (hf : f.MadeIn s) (hvs : ∀ v ∈ vs, v.MadeIn s)
    (h : apply depth f vs s = some (v, s₁)) :
    ∃ u s₂, apply depth f vs s₁ = some (u, s₂) ∧ v.LooksLike u := by
  have hvs' : ∀ v ∈ vs, v.BelongsTo s fun _ => True := fun v hv => (hvs v hv).belongsTo
  obtain ⟨hbefore, -, -⟩ := sound_apply h hs.sound hf.belongsTo hvs'
  exact exists_apply_later h hs.sound hf.belongsTo hvs' hbefore fun i _ => getElem?_apply h

/-- `{ if (g == g) { x } }` -/
def compareAndAnswer : Block Unit :=
  ⟨(), [.expr () (.cond () (.binary () .equal (.ident ⟨(), "g"⟩) (.ident ⟨(), "g"⟩))
    ⟨(), [.expr () (.ident ⟨(), "x"⟩)]⟩ none)]⟩

/-- `fn(x) { let g = fn(y) { if (g == g) { x } }; g }` -/
def makeConstant : Closure :=
  ⟨0, ["x"], ⟨(), [.let_ () ⟨(), "g"⟩ (.function () [⟨(), "y"⟩] compareAndAnswer),
    .expr () (.ident ⟨(), "g"⟩)]⟩, 0⟩

/-- Each call answers a function of its own, with a frame of its own, and both functions
look the same. -/
theorem makeConstant_twice :
    ∃ v s₁ u s₂, apply 1 (.closure makeConstant) [.int 1 5] Store.single.spend.spend =
        some (v, s₁) ∧ v.Captures 1 ∧
      apply 1 (.closure makeConstant) [.int 1 5] s₁ = some (u, s₂) ∧ v.LooksLike u := by
  have hs : Store.single.spend.spend.WellFormed := Store.wellFormed_single.spend.spend
  have hf : (Value.closure makeConstant).MadeIn Store.single.spend.spend := by
    constructor <;> decide
  have hvs : ∀ v ∈ [Value.int 1 5], v.MadeIn Store.single.spend.spend := by
    rintro v hv
    rw [List.mem_singleton.mp hv]
    exact Nat.lt_succ_self 1
  have heval : (apply 1 (.closure makeConstant) [.int 1 5] Store.single.spend.spend).map
      Prod.fst = some (.closure ⟨2, ["y"], compareAndAnswer, 1⟩) := by
    decide +kernel
  obtain ⟨⟨v, s₁⟩, h, rfl⟩ := Option.map_eq_some_iff.mp heval
  obtain ⟨u, s₂, hu, hlooks⟩ := call_made_again hs hf hvs h
  exact ⟨_, s₁, u, s₂, h, rfl, hu, hlooks⟩

end Monkey
