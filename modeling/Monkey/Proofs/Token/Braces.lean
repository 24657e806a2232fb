import Mathlib.Data.List.Basic
import Mathlib.Data.List.Infix
import Mathlib.Data.List.Nodup
import Monkey.SyntaxError

/-!
# Braces that belong together

How far braces have opened blocks is counted along the tokens. Tokens are balanced if they
close what they open and never anything else. The brace that closes a block is then the first
one at which the count falls below where it was (`Rises.of_balanced`).
-/

namespace Monkey

/-- What a token of the kind adds to the number of open blocks. -/
def Kind.rise : Kind → Int
  | lbrace => 1
  | rbrace => -1
  | _ => 0

/-- How many more blocks the tokens open than they close. -/
def rise : List Token → Int
  | [] => 0
  | t :: ts => t.kind.rise + rise ts

/-- The tokens open `n` more blocks than they close, and before the last one of them they
close only what they opened. -/
structure Rises (ts : List Token) (n : Int) : Prop where
  rise_eq : rise ts = n
  inside : ∀ us t vs, ts = us ++ t :: vs → 0 ≤ rise us

/-- The tokens close the blocks that they open, and no others. -/
def Balanced (ts : List Token) : Prop :=
  Rises ts 0

variable {ts us vs rest S B : List Token} {t close : Token} {m n : Int}

theorem rise_append : rise (us ++ vs) = rise us + rise vs := by
  induction us with
  | nil => simp [rise]
  | cons t us ih => rw [List.cons_append, rise, rise, ih, Int.add_assoc]

theorem rise_singleton : rise [t] = t.kind.rise :=
  Int.add_zero _

theorem rise_map {f : Token → Token} (hf : ∀ t, (f t).kind = t.kind) :
    rise (ts.map f) = rise ts := by
  induction ts with
  | nil => rfl
  | cons t ts ih => rw [List.map_cons, rise, rise, ih, hf]

namespace Rises

theorem nil : Rises [] 0 :=
  ⟨rfl, fun us t vs h => by simp at h⟩

theorem singleton : Rises [t] t.kind.rise := by
  refine ⟨rise_singleton, fun us u vs h => ?_⟩
  cases us with
  | nil => exact Int.le_refl 0
  | cons _ us => simp at h

theorem append (h : Rises us m) (hm : 0 ≤ m) (h' : Rises vs n) : Rises (us ++ vs) (m + n) := by
  refine ⟨by rw [rise_append, h.rise_eq, h'.rise_eq], fun ws t xs heq => ?_⟩
  rcases List.append_eq_append_iff.mp heq with ⟨ys, rfl, hvs⟩ | ⟨ys, hus, hxs⟩
  · have hys := h'.inside ys t xs hvs
    rw [rise_append, h.rise_eq]
    omega
  · cases ys with
    | nil =>
        rw [List.append_nil] at hus
        rw [← hus, h.rise_eq]
        exact hm
    | cons u ys => exact h.inside ws u ys hus

theorem map {f : Token → Token} (hf : ∀ t, (f t).kind = t.kind) (h : Rises ts n) :
    Rises (ts.map f) n := by
  refine ⟨(rise_map hf).trans h.rise_eq, fun us t vs heq => ?_⟩
  obtain ⟨us, ws, hts, rfl, hws⟩ := List.map_eq_append_iff.mp heq
  obtain ⟨t, vs, rfl, -, -⟩ := List.map_eq_cons_iff.mp hws
  rw [rise_map hf]
  exact h.inside us t vs hts

end Rises

/-- Every beginning of balanced tokens has closed no more than it opened. -/
theorem Balanced.prefix_nonneg (h : Balanced B) (heq : B = us ++ vs) : 0 ≤ rise us := by
  cases vs with
  | nil =>
      rw [List.append_nil] at heq
      exact heq ▸ Int.le_of_eq h.rise_eq.symm
  | cons t vs => exact h.inside us t vs heq

theorem balanced_iff : Balanced ts ↔ rise ts = 0 ∧ ∀ us ∈ ts.inits, 0 ≤ rise us := by
  constructor
  · intro h
    refine ⟨h.rise_eq, fun us hus => ?_⟩
    obtain ⟨vs, heq⟩ := (List.mem_inits us ts).mp hus
    exact h.prefix_nonneg heq.symm
  · rintro ⟨hrise, hinits⟩
    refine ⟨hrise, fun us t vs heq => hinits us ((List.mem_inits us ts).mpr ?_)⟩
    exact ⟨t :: vs, heq.symm⟩

instance : DecidablePred Balanced := fun _ =>
  decidable_of_iff' _ balanced_iff

/-- Behind balanced tokens the next closing brace is the first one that closes what they did
not open. Whatever stays inside until its end goes up to this brace, or is at an end before
it. -/
theorem Rises.of_balanced (h : Rises us n) (hB : Balanced B) (hclose : close.kind = .rbrace)
    (heq : B ++ close :: S = us ++ rest) :
    rest = S ∧ n = -1 ∨ (∃ ws, rest = ws ++ close :: S) ∧ 0 ≤ n := by
  rcases List.append_eq_append_iff.mp heq with ⟨ws, rfl, hS⟩ | ⟨ws, hB', hrest⟩
  · have hclosed : rise (B ++ [close]) = -1 := by
      rw [rise_append, hB.rise_eq, rise_singleton, hclose]
      rfl
    match ws with
    | [] =>
        rw [List.append_nil] at h
        exact .inr ⟨⟨[], hS.symm⟩, h.rise_eq ▸ Int.le_of_eq hB.rise_eq.symm⟩
    | [w] =>
        obtain ⟨rfl, rfl⟩ := List.cons.inj hS
        exact .inl ⟨rfl, h.rise_eq.symm.trans hclosed⟩
    | w :: w' :: ws =>
        obtain ⟨rfl, -⟩ := List.cons.inj hS
        have hneg := h.inside (B ++ [close]) w' ws (by simp)
        rw [hclosed] at hneg
        cases hneg
  · exact .inr ⟨⟨ws, hrest⟩, h.rise_eq ▸ hB.prefix_nonneg hB'⟩

/-! ## Errors about braces -/

/-- The token stands directly behind a closing brace. -/
def FollowsBrace (tokens : List Token) (found : Token) : Prop :=
  ∃ u ∈ tokens, u.kind = .rbrace ∧ [u, found] <:+: tokens

instance {tokens : List Token} {found : Token} : Decidable (FollowsBrace tokens found) :=
  inferInstanceAs (Decidable (∃ u ∈ tokens, _ ∧ _))

/-- What stands before a token is known if there is only one such token. -/
theorem followsBrace_iff {tokens : List Token} {last found : Token} (hnodup : tokens.Nodup)
    (h : last :: found :: ts <:+ tokens) : FollowsBrace tokens found ↔ last.kind = .rbrace := by
  obtain ⟨before, rfl⟩ := h
  constructor
  · rintro ⟨u, -, hu, front, behind, heq⟩
    have hcut : (front ++ [u]) ++ found :: behind = (before ++ [last]) ++ found :: ts := by
      simpa using heq
    have honce : ((front ++ [u]) ++ found :: behind).Nodup := by
      rw [hcut]
      simpa using hnodup
    obtain ⟨hnot, -⟩ := List.nodup_cons.mp (List.nodup_middle.mp honce)
    obtain ⟨hfront, hbehind⟩ := not_or.mp fun h => hnot (List.mem_append.mpr h)
    obtain ⟨hsame, -⟩ := (List.append_cons_inj_of_notMem hfront hbehind).mp hcut
    have hlast : [u] = [last] := (List.append_inj' hsame rfl).2
    rwa [List.singleton_inj.mp hlast] at hu
  · intro hlast
    refine ⟨last, by simp, hlast, before, ts, by simp⟩

namespace SyntaxError

/-- The error is about a brace that does not belong where it is: an expression should begin
at an opening brace, or a parenthesis should be closed directly behind a closing one. -/
def Misleads (tokens : List Token) : SyntaxError → Prop
  | noExpression found => found.kind = .lbrace
  | unexpectedToken expected found => expected = .rparen ∧ FollowsBrace tokens found
  | integerTooLarge _ => False

instance {tokens : List Token} : DecidablePred (Misleads tokens)
  | noExpression _ => inferInstanceAs (Decidable (_ = _))
  | unexpectedToken _ _ => inferInstanceAs (Decidable (_ ∧ _))
  | integerTooLarge _ => inferInstanceAs (Decidable False)

end SyntaxError

end Monkey
