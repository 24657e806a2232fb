import Monkey.Program.Equality
import Monkey.Proofs.Program.RoundTrip
import Monkey.Proofs.Run.Arithmetic

/-!
# Integers as they are shown

An integer is shown by its digits, behind a sign if it is negative. A program has no literals
with a sign: what is shown of a negative integer is read as the negation of a literal, and runs
to the integer again. Literals go up to `2 ^ 63 - 1`, while there is one more integer below zero
than above. The digits of the smallest integer are no literal, and so it is the one integer that
is not read as it is shown (`shown_integer_is_read_iff`).
-/

namespace Monkey

/-- The expression that an integer is shown as. -/
def Expr.numeral (n : Int64) : Expr Unit :=
  if n < 0 then .unary () .negate (.int () (-n)) else .int () n

variable {n : Int64} {z : Int} {e : Expr Unit} {env : FrameId} {depth : Nat}

/-! ## Negative integers -/

/-- The smallest integer is the only one whose negation has to be wrapped. -/
theorem toInt_neg_of_ne_minValue (h : n ≠ Int64.minValue) : (-n).toInt = -n.toInt := by
  have hne : n.toInt ≠ -2 ^ 63 := fun heq =>
    h (Int64.toInt_inj.mp (heq.trans Int64.toInt_minValue.symm))
  have hlow := n.le_toInt
  have hhigh := n.toInt_lt
  have hword : IsWord (-n.toInt) := ⟨by omega, by omega⟩
  rw [Int64.toInt_neg]
  exact hword.wrap_eq

theorem toString_of_neg (h : z < 0) : toString z = "-" ++ toString (-z) := by
  obtain ⟨k, rfl⟩ := Int.eq_negSucc_of_lt_zero h
  rw [Int.neg_negSucc]
  rfl

/-! ## Reading -/

open Grammar in
theorem spells_numeral (h : n ≠ Int64.minValue) :
    Spells (.expr .lowest (.numeral n)) (toString n.toInt).toList := by
  unfold Expr.numeral
  split
  next hneg =>
    have hlt : n.toInt < 0 := Int64.lt_iff_toInt_lt.mp hneg
    have hnonneg : 0 ≤ -n := by
      rw [Int64.le_iff_toInt_le, toInt_neg_of_ne_minValue h]
      simpa using Int.le_of_lt hlt
    have hspells : Spells (.expr .lowest (.unary () .negate (.int () (-n)))) _ :=
      spells_unary (spells_int hnonneg)
    rwa [toInt_neg_of_ne_minValue h, UnaryOp.symbol, ← String.toList_append,
      ← toString_of_neg hlt] at hspells
  next hnonneg => exact (spells_int (Int64.not_lt.mp hnonneg)).loosest

theorem parse_toString (h : n ≠ Int64.minValue) :
    (parse (toString n.toInt)).errors = [] ∧
      (parse (toString n.toInt)).program.erase = ⟨[.expr () (.numeral n)]⟩ := by
  refine Grammar.parse_of_derives ?_
  have hnext := Grammar.Derives.next (.unclosed (.expr (spells_numeral h 0))) .done
    fun _ _ => Grammar.not_continues_nil
  rwa [List.append_nil] at hnext

/-- The digits of the smallest integer are those of the first number that is no literal. -/
theorem parse_toString_minValue :
    parse (toString Int64.minValue.toInt) =
      ⟨⟨[]⟩, [.integerTooLarge ⟨.int, "9223372036854775808", ⟨1, 20⟩⟩]⟩ := by
  decide +kernel

/-! ## Running -/

theorem yields_numeral (h : n ≠ Int64.minValue) : (Expr.numeral n).Yields n.toInt := by
  unfold Expr.numeral
  split
  next =>
    have hword : IsWord n.toInt := ⟨n.le_toInt, n.toInt_lt⟩
    have hyields : (Expr.unary () .negate (.int () (-n))).Yields _ := .negate .int
    rwa [toInt_neg_of_ne_minValue h, Int.neg_neg, hword.wrap_eq] at hyields
  next => exact .int

/-- A program that is one expression results in what the expression does, without a wrapper. -/
theorem gives_evaluate (h : (evalExpr (apply depth) env e).Gives (Value.IsInt z)) :
    (evaluate depth ⟨[.expr () e]⟩ env).Gives (Value.IsInt z) := by
  intro s
  obtain ⟨v, s', hv, hint, hframes⟩ := h s
  refine ⟨v, s', ?_, hint, hframes⟩
  obtain ⟨id, k, rfl, -⟩ := hint
  have hstmts : evalStmts (apply depth) env .null [.expr () e] s = some (.int id k, s') := by
    rw [evalStmts, evalStmt, Eval.bind_apply hv]
    rfl
  rw [evaluate, Eval.bind_apply hstmts]
  rfl

/-- What is shown of an integer is read without errors exactly if the integer is not the
smallest one. Then it runs, in every scope and without a call, to an integer object of this
value. What is shown of the smallest integer has one error, which is about the digits, and
nothing is read of it. -/
theorem shown_integer_is_read_iff (i : ObjectId) (n : Int64) :
    ((parse (Value.int i n).inspect).errors = [] ↔ n ≠ Int64.minValue) ∧
    (n ≠ Int64.minValue → ∀ (depth : Nat) (env : FrameId),
      (evaluate depth (parse (Value.int i n).inspect).program.erase env).Gives
        (Value.IsInt n.toInt)) ∧
    (n = Int64.minValue → parse (Value.int i n).inspect =
      ⟨⟨[]⟩, [.integerTooLarge ⟨.int, "9223372036854775808", ⟨1, 20⟩⟩]⟩) := by
  have htext : (Value.int i n).inspect = toString n.toInt := by
    rw [Value.inspect]
  rw [htext]
  refine ⟨⟨?_, fun h => (parse_toString h).1⟩, fun h depth env => ?_, ?_⟩
  · rintro herrors rfl
    rw [parse_toString_minValue] at herrors
    cases herrors
  · rw [(parse_toString h).2]
    exact gives_evaluate (yields_numeral h).gives
  · rintro rfl
    exact parse_toString_minValue

/-- The integer above the smallest one is read as it is shown. -/
theorem aboveMinValue_is_read :
    Int64.minValue + 1 ≠ Int64.minValue ∧
      (Value.int 0 (Int64.minValue + 1)).inspect = "-9223372036854775807" ∧
      (parse "-9223372036854775807").errors = [] ∧
      (evaluate 0 (parse "-9223372036854775807").program.erase 0).Gives
        (Value.IsInt (-9223372036854775807)) := by
  have hne : Int64.minValue + 1 ≠ Int64.minValue := by decide
  have htext : (Value.int 0 (Int64.minValue + 1)).inspect = "-9223372036854775807" := rfl
  obtain ⟨hread, hruns, -⟩ := shown_integer_is_read_iff 0 (Int64.minValue + 1)
  rw [htext] at hread hruns
  exact ⟨hne, htext, hread.mpr hne, hruns hne 0 0⟩

/-- The smallest integer is shown as a text that is not read without errors. -/
theorem minValue_is_not_read :
    (Value.int 0 Int64.minValue).inspect = "-9223372036854775808" ∧
      (parse "-9223372036854775808").errors ≠ [] ∧
      ¬∀ n : Int64, (parse (Value.int 0 n).inspect).errors = [] := by
  have htext : (Value.int 0 Int64.minValue).inspect = "-9223372036854775808" := rfl
  have herrors : (parse "-9223372036854775808").errors ≠ [] := by
    rw [← htext, Value.inspect, parse_toString_minValue]
    exact List.cons_ne_nil _ _
  refine ⟨htext, herrors, fun h => herrors ?_⟩
  rw [← htext]
  exact h Int64.minValue

end Monkey
