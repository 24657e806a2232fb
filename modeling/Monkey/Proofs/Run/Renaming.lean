import Monkey.Proofs.Run.Parallel
import Monkey.Store.Equality

/-!
# Parameters may be renamed

If a parameter of a function literal gets a name that the literal does not mention, the
program does the same as before (`renamed_parameter_keeps_results`): a name that is looked
up belongs to the place where it stands in the program, not to where the function is
called.
-/

namespace Monkey

variable {p q : String}

/-- The second function is the first one as it is, the first one with a literal renamed in
its body, or, if it belongs to the literal, with the name replaced throughout. -/
def Closure.RenamedAs (p q : String) (c d : Closure) : Prop :=
  ∃ side, FunctionCounterpart p q side c.params c.body d.params d.body

/-- The same values, and functions that differ by the renaming. -/
def Value.RenamedAs (p q : String) : Value → Value → Prop :=
  Value.Alike (fun _ _ => True) (Closure.RenamedAs p q)

theorem Pairing.Values.renamedAs {w : Pairing} {v u : Value} (h : w.Values p q v u) :
    v.RenamedAs p q u :=
  h.imp (fun _ _ _ => trivial) fun _ _ ⟨_, inner, _, _, hfunction⟩ => ⟨inner, hfunction⟩

/-- In fresh frames, the two programs come to an end for the same depths of calls. -/
theorem rel_evaluate {P P' : Program Unit} (h : P.RenamesLiteral p q P') (depth : Nat)
    (s t : Store) :
    Option.Rel (fun r r' => r.1.RenamedAs p q r'.1)
      (evaluate depth P (s.newFrame none).1 (s.newFrame none).2)
      (evaluate depth P' (t.newFrame none).1 (t.newFrame none).2) := by
  have hij : (Pairing.ofFrames s.frames.size t.frames.size).Frames .outside
      s.frames.size t.frames.size := ⟨Matching.add_self, rfl⟩
  refine rel_imp ?_ (parallel_evaluate depth hij h.counterpart _ _ _ .refl
    (Pairing.holds_ofFrames s t))
  rintro r r' ⟨w, -, -, hvalues⟩
  exact hvalues.renamedAs

/-- Rename a parameter in a function literal of a program, with a name that the literal
does not mention. In fresh frames the two programs come both to an end or both to none, and
what they come to is the same up to the renaming. -/
theorem renamed_parameter_keeps_results {P P' : Program Unit} (h : P.RenamesLiteral p q P')
    (s t : Store) :
    ((∃ depth v s', evaluate depth P (s.newFrame none).1 (s.newFrame none).2 = some (v, s')) ↔
      ∃ depth u t',
        evaluate depth P' (t.newFrame none).1 (t.newFrame none).2 = some (u, t')) ∧
    ∀ depth depth' v u s' t',
      evaluate depth P (s.newFrame none).1 (s.newFrame none).2 = some (v, s') →
      evaluate depth' P' (t.newFrame none).1 (t.newFrame none).2 = some (u, t') →
        v.type = u.type ∧ v.RenamedAs p q u := by
  have hrel := fun depth => rel_evaluate h depth s t
  refine ⟨⟨?_, ?_⟩, ?_⟩
  · rintro ⟨depth, v, s', heval⟩
    have := hrel depth
    rw [heval] at this
    match hu : evaluate depth P' _ _, this with
    | some (u, t'), _ => exact ⟨depth, u, t', hu⟩
  · rintro ⟨depth, u, t', heval⟩
    have := hrel depth
    rw [heval] at this
    match hv : evaluate depth P _ _, this with
    | some (v, s'), _ => exact ⟨depth, v, s', hv⟩
  · intro depth depth' v u s' t' hv hu
    have := hrel depth
    rw [hv] at this
    match hu' : evaluate depth P' _ _, this with
    | some (u', t''), .some hrenamed =>
        obtain ⟨rfl, -⟩ := evaluate_unique hu' hu
        exact ⟨hrenamed.type_eq, hrenamed⟩

/-- `fn(x) { let g = fn(y) { x + y }; let x = 2; g(3) }`, with a name of one's own for
`x`. -/
def functionOfName (x : String) : Expr Unit :=
  .function () [⟨(), x⟩]
    ⟨(), [.let_ () ⟨(), "g"⟩ (.function () [⟨(), "y"⟩]
        ⟨(), [.expr () (.binary () .add (.ident ⟨(), x⟩) (.ident ⟨(), "y"⟩))]⟩),
      .let_ () ⟨(), x⟩ (.int () 2),
      .expr () (.call () (.ident ⟨(), "g"⟩) [.int () 3])]⟩

/-- `let x = 7; let f = fn(x) { … }; f(1)`, with the name only changed in the function. -/
def callOfName (x : String) : Program Unit :=
  ⟨[.let_ () ⟨(), "x"⟩ (.int () 7),
    .let_ () ⟨(), "f"⟩ (functionOfName x),
    .expr () (.call () (.ident ⟨(), "f"⟩) [.int () 1])]⟩

/-- The function inside sees the parameter that was bound again, and not the name of the
whole program, whatever the parameter is called. -/
theorem callOfName_keeps_result :
    (callOfName "x").RenamesLiteral "x" "z" (callOfName "z") ∧
    ∃ depth id s', evaluate depth (callOfName "z") (Store.empty.newFrame none).1
      (Store.empty.newFrame none).2 = some (.int id 5, s') := by
  have hliteral : (functionOfName "x").RenamesLiteral "x" "z" (functionOfName "z") := by
    have hreplace : (functionOfName "x").replace "x" "z" = functionOfName "z" := rfl
    rw [← hreplace]
    exact .here (by decide) (by decide)
  have hrenames : (callOfName "x").RenamesLiteral "x" "z" (callOfName "z") :=
    @Program.RenamesLiteral.mk _ _ _ [_] _ _ [_] (.let_ hliteral)
  have heval : (evaluate 2 (callOfName "x") (Store.empty.newFrame none).1
      (Store.empty.newFrame none).2).map Prod.fst = some (.int 6 5) := by
    decide +kernel
  obtain ⟨⟨v, s'⟩, hx, rfl⟩ := Option.map_eq_some_iff.mp heval
  obtain ⟨hends, hresults⟩ :=
    renamed_parameter_keeps_results hrenames Store.empty Store.empty
  obtain ⟨depth, u, t', hz⟩ := hends.mp ⟨2, _, _, hx⟩
  obtain ⟨-, hrenamed⟩ := hresults _ _ _ _ _ _ hx hz
  cases hrenamed
  exact ⟨hrenames, depth, _, t', hz⟩

end Monkey
