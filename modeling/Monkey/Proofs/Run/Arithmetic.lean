import Mathlib.Data.Int.ModEq
import Monkey.Proofs.Run.Adequacy

/-!
# Arithmetic

Expressions made of integers, signs and the four operations. Without divisions, such an
expression amounts to an integer of any size, and evaluation comes to the one number of 64
bits that agrees with it modulo `2 ^ 64`. A quotient is taken of numbers that are wrapped
already, so with divisions each step is wrapped (`Expr.Yields`). Either every step yields a
number, or some divisor yields zero, and nothing else can go wrong (`arithmetic_wraps`).
-/

namespace Monkey

variable {α : Type}

/-- The number of 64 bits with a sign that differs from `z` by a multiple of `2 ^ 64`. -/
def wrap (z : Int) : Int :=
  z.bmod (2 ^ 64)

/-- What the operator makes of integers of any size, if it is one of the four operations. A
quotient loses its fraction. -/
def BinaryOp.operation? : BinaryOp → Option (Int → Int → Int)
  | add => some (· + ·)
  | subtract => some (· - ·)
  | multiply => some (· * ·)
  | divide => some Int.tdiv
  | _ => none

namespace Expr

/-- The expression is made of integers, signs and the four operations. -/
inductive IsArithmetic : Expr α → Prop where
  | int {t n} : IsArithmetic (.int t n)
  | negate {t e} : IsArithmetic e → IsArithmetic (.unary t .negate e)
  | binary {t op f l r} : op.operation? = some f → IsArithmetic l → IsArithmetic r →
      IsArithmetic (.binary t op l r)

/-- Over the integers, the expression amounts to the number; there are no divisions in it. -/
inductive AmountsTo : Expr α → Int → Prop where
  | int {t n} : AmountsTo (.int t n) n.toInt
  | negate {t e x} : AmountsTo e x → AmountsTo (.unary t .negate e) (-x)
  | binary {t op f l r x y} : op.operation? = some f → op ≠ .divide → AmountsTo l x →
      AmountsTo r y → AmountsTo (.binary t op l r) (f x y)

/-- The expression comes to the number if each step is taken over the integers and then
wrapped, and nothing is divided by zero. -/
inductive Yields : Expr α → Int → Prop where
  | int {t n} : Yields (.int t n) n.toInt
  | negate {t e x} : Yields e x → Yields (.unary t .negate e) (wrap (-x))
  | binary {t op f l r x y} : op.operation? = some f → (op = .divide → y ≠ 0) → Yields l x →
      Yields r y → Yields (.binary t op l r) (wrap (f x y))

/-- Somewhere in the expression there is a division whose divisor comes to zero. -/
inductive DividesByZero : Expr α → Prop where
  | here {t l r} : Yields r 0 → DividesByZero (.binary t .divide l r)
  | operand {t op e} : DividesByZero e → DividesByZero (.unary t op e)
  | left {t op l r} : DividesByZero l → DividesByZero (.binary t op l r)
  | right {t op l r} : DividesByZero r → DividesByZero (.binary t op l r)

variable {e : Expr α} {x y z : Int}

/-! ## What an expression comes to -/

theorem Yields.unique (h : e.Yields x) (h' : e.Yields y) : x = y := by
  induction h generalizing y with
  | int =>
      cases h'
      rfl
  | negate _ ih =>
      cases h' with
      | negate h' => rw [ih h']
  | binary hf _ _ _ ihl ihr =>
      cases h' with
      | binary hf' _ hl hr =>
          cases hf.symm.trans hf'
          rw [ihl hl, ihr hr]

theorem Yields.not_dividesByZero (h : e.Yields x) : ¬e.DividesByZero := by
  induction h with
  | int => nofun
  | negate _ ih =>
      rintro (_ | hzero)
      exact ih hzero
  | binary _ hne _ hr ihl ihr =>
      rintro (hzero | _ | hzero | hzero)
      · exact hne rfl (hr.unique hzero)
      · exact ihl hzero
      · exact ihr hzero

theorem IsArithmetic.yields_or_dividesByZero (h : e.IsArithmetic) :
    (∃ x, e.Yields x) ∨ e.DividesByZero := by
  induction h with
  | int => exact .inl ⟨_, .int⟩
  | negate _ ih =>
      rcases ih with ⟨x, hx⟩ | hzero
      · exact .inl ⟨_, .negate hx⟩
      · exact .inr (.operand hzero)
  | @binary t op f l r hf _ _ ihl ihr =>
      rcases ihl with ⟨x, hx⟩ | hzero
      · rcases ihr with ⟨y, hy⟩ | hzero
        · by_cases hdivide : op = .divide ∧ y = 0
          · obtain ⟨rfl, rfl⟩ := hdivide
            exact .inr (.here hy)
          · exact .inl ⟨_, .binary hf (fun hop hy0 => hdivide ⟨hop, hy0⟩) hx hy⟩
        · exact .inr (.right hzero)
      · exact .inr (.left hzero)

/-! ## Without divisions -/

theorem wrap_modEq (z : Int) : wrap z ≡ z [ZMOD 2 ^ 64] :=
  Int.bmod_emod

/-- Sums, differences and products do not depend on multiples of `2 ^ 64`. -/
theorem operation_modEq {op : BinaryOp} {f : Int → Int → Int} {x' y' : Int}
    (hf : op.operation? = some f) (hop : op ≠ .divide) (hx : x' ≡ x [ZMOD 2 ^ 64])
    (hy : y' ≡ y [ZMOD 2 ^ 64]) : f x' y' ≡ f x y [ZMOD 2 ^ 64] := by
  cases op with
  | add =>
      cases hf
      exact hx.add hy
  | subtract =>
      cases hf
      exact hx.sub hy
  | multiply =>
      cases hf
      exact hx.mul hy
  | divide => exact absurd rfl hop
  | less | greater | equal | notEqual => cases hf

/-- Wrapped at each step, an expression comes to what it amounts to, up to a multiple of
`2 ^ 64`. -/
theorem AmountsTo.exists_yields (h : e.AmountsTo z) : ∃ x, e.Yields x ∧ x ≡ z [ZMOD 2 ^ 64] := by
  induction h with
  | int => exact ⟨_, .int, .rfl⟩
  | negate _ ih =>
      obtain ⟨x, hx, hmod⟩ := ih
      exact ⟨_, .negate hx, (wrap_modEq _).trans hmod.neg⟩
  | binary hf hop _ _ ihl ihr =>
      obtain ⟨x, hx, hxmod⟩ := ihl
      obtain ⟨y, hy, hymod⟩ := ihr
      refine ⟨_, .binary hf (fun hdivide => absurd hdivide hop) hx hy, ?_⟩
      exact (wrap_modEq _).trans (operation_modEq hf hop hxmod hymod)

end Expr

/-! ## Evaluation -/

/-- The value is an integer, and this number. -/
def Value.IsInt (n : Int) (v : Value) : Prop :=
  ∃ id k, v = .int id k ∧ k.toInt = n

/-- The value is an error with this fault. -/
def Value.IsFault (fault : Fault) (v : Value) : Prop :=
  ∃ id, v = .error id fault

/-- In every store the computation comes to an end, with a value that satisfies `P` and with all
frames as they were. -/
def Eval.Gives (x : Eval Value) (P : Value → Prop) : Prop :=
  ∀ s, ∃ v s', x s = some (v, s') ∧ P v ∧ s'.frames = s.frames

variable {e : Expr Unit} {x : Eval Value} {P Q : Value → Prop} {k : Value → Eval Value}
  {apply : Value → List Value → Eval Value} {env : FrameId} {m n : Int64}

namespace Eval

theorem gives_newInt : (newInt n).Gives (Value.IsInt n.toInt) :=
  fun s => ⟨_, s.spend, rfl, ⟨s.nextObject, n, rfl, rfl⟩, rfl⟩

theorem gives_newError {fault : Fault} : (newError fault).Gives (Value.IsFault fault) :=
  fun s => ⟨_, s.spend, rfl, ⟨s.nextObject, rfl⟩, rfl⟩

theorem Gives.unlessError (hx : x.Gives P) (hk : ∀ v, P v → ¬v.isError ∧ (k v).Gives Q) :
    (x.unlessError k).Gives Q := by
  intro s
  obtain ⟨v, s₁, hv, hP, hframes⟩ := hx s
  obtain ⟨herror, hgives⟩ := hk v hP
  obtain ⟨w, s₂, hw, hQ, hframes'⟩ := hgives s₁
  exact ⟨w, s₂, (unlessError_apply hv herror).trans hw, hQ, hframes'.trans hframes⟩

theorem Gives.unlessError_of_isError (hx : x.Gives P) (hP : ∀ v, P v → v.isError) :
    (x.unlessError k).Gives P := by
  intro s
  obtain ⟨v, s₁, hv, hPv, hframes⟩ := hx s
  exact ⟨v, s₁, unlessError_apply_of_isError hv (hP v hPv), hPv, hframes⟩

/-- No computation comes both to a number and to an error. -/
theorem Gives.not_isFault {n : Int} {fault : Fault} (hx : x.Gives (Value.IsInt n)) :
    ¬x.Gives (Value.IsFault fault) := by
  intro hx'
  obtain ⟨_, _, hv, ⟨_, _, rfl, _⟩, _⟩ := hx .empty
  obtain ⟨_, _, hw, ⟨_, rfl⟩, _⟩ := hx' .empty
  cases hv.symm.trans hw

end Eval

theorem Value.IsInt.not_isError {n : Int} {v : Value} (h : v.IsInt n) : ¬v.isError := by
  obtain ⟨id, k, rfl, -⟩ := h
  exact Bool.false_ne_true

theorem Value.IsFault.isError {fault : Fault} {v : Value} (h : v.IsFault fault) : v.isError := by
  obtain ⟨id, rfl⟩ := h
  rfl

/-- The operations on words are those on integers, wrapped. -/
theorem gives_evalInts {op : BinaryOp} {f : Int → Int → Int} (hf : op.operation? = some f)
    (hne : op = .divide → n.toInt ≠ 0) :
    (evalInts op m n).Gives (Value.IsInt (wrap (f m.toInt n.toInt))) := by
  cases op with
  | add =>
      cases hf
      rw [wrap, ← Int64.toInt_add]
      exact Eval.gives_newInt
  | subtract =>
      cases hf
      rw [wrap, ← Int64.toInt_sub]
      exact Eval.gives_newInt
  | multiply =>
      cases hf
      rw [wrap, ← Int64.toInt_mul]
      exact Eval.gives_newInt
  | divide =>
      cases hf
      have hn : n ≠ 0 := by
        rintro rfl
        exact hne rfl rfl
      rw [wrap, ← Int64.toInt_div, evalInts, if_neg hn]
      exact Eval.gives_newInt
  | less | greater | equal | notEqual => cases hf

namespace Expr

theorem Yields.gives {x : Int} (h : e.Yields x) :
    (evalExpr apply env e).Gives (Value.IsInt x) := by
  induction h with
  | int =>
      rw [evalExpr]
      exact Eval.gives_newInt
  | negate _ ih =>
      rw [evalExpr]
      refine ih.unlessError fun v hv => ⟨hv.not_isError, ?_⟩
      obtain ⟨id, k, rfl, rfl⟩ := hv
      rw [wrap, ← Int64.toInt_neg]
      exact Eval.gives_newInt
  | binary hf hne _ _ ihl ihr =>
      rw [evalExpr]
      refine ihl.unlessError fun v hv => ⟨hv.not_isError, ?_⟩
      refine ihr.unlessError fun w hw => ⟨hw.not_isError, ?_⟩
      obtain ⟨id, m, rfl, rfl⟩ := hv
      obtain ⟨id', n, rfl, rfl⟩ := hw
      exact gives_evalInts hf hne

/-- The first division by zero on the way decides. -/
theorem DividesByZero.gives (hzero : e.DividesByZero) (h : e.IsArithmetic) :
    (evalExpr apply env e).Gives (Value.IsFault .divisionByZero) := by
  induction h with
  | int => cases hzero
  | negate _ ih =>
      cases hzero with
      | operand hzero =>
          rw [evalExpr]
          exact (ih hzero).unlessError_of_isError fun v => Value.IsFault.isError
  | @binary t op f l r hf hl hr ihl ihr =>
      rw [evalExpr]
      rcases hl.yields_or_dividesByZero with ⟨x, hx⟩ | hleft
      · refine hx.gives.unlessError fun v hv => ⟨hv.not_isError, ?_⟩
        cases hzero with
        | here hy =>
            refine hy.gives.unlessError fun w hw => ⟨hw.not_isError, ?_⟩
            obtain ⟨id, m, rfl, -⟩ := hv
            obtain ⟨id', n, rfl, hn⟩ := hw
            obtain rfl : n = 0 := Int64.toInt_inj.mp hn
            exact Eval.gives_newError
        | left hleft => exact absurd hleft hx.not_dividesByZero
        | right hright => exact (ihr hright).unlessError_of_isError fun v => Value.IsFault.isError
      · exact (ihl hleft).unlessError_of_isError fun v => Value.IsFault.isError

end Expr

/-- The number has 64 bits, the first of them a sign. -/
def IsWord (n : Int) : Prop :=
  -2 ^ 63 ≤ n ∧ n < 2 ^ 63

theorem Value.IsInt.isWord {x : Int} {v : Value} (h : v.IsInt x) : IsWord x := by
  obtain ⟨id, k, -, rfl⟩ := h
  exact ⟨k.le_toInt, k.toInt_lt⟩

theorem IsWord.eq_of_modEq {x y : Int} (hx : IsWord x) (hy : IsWord y)
    (h : x ≡ y [ZMOD 2 ^ 64]) : x = y := by
  have hmod : x % 2 ^ 64 = y % 2 ^ 64 := h
  obtain ⟨hx, hx'⟩ := hx
  obtain ⟨hy, hy'⟩ := hy
  omega

theorem Expr.Yields.isWord {x : Int} (h : e.Yields x) : IsWord x := by
  have hgives : (evalExpr (fun _ _ => Eval.unfinished) 0 e).Gives (Value.IsInt x) := h.gives
  obtain ⟨v, -, -, hv, -⟩ := hgives .empty
  exact hv.isWord

theorem IsWord.wrap_eq {z : Int} (h : IsWord z) : wrap z = z :=
  Int.bmod_eq_of_le h.1 h.2

/-- Quotients of numbers of 64 bits have 64 bits, but for a single one. -/
theorem isWord_tdiv {m n : Int} (hm : IsWord m) (h : ¬(m = -2 ^ 63 ∧ n = -1)) :
    IsWord (m.tdiv n) := by
  have habs : (m.tdiv n).natAbs = m.natAbs / n.natAbs := Int.natAbs_tdiv m n
  have hle : m.natAbs / n.natAbs ≤ m.natAbs := Nat.div_le_self _ _
  obtain ⟨hlow, hhigh⟩ := hm
  by_cases hmin : m = -2 ^ 63
  · have hn : n ≠ -1 := fun hn => h ⟨hmin, hn⟩
    rw [hmin] at habs ⊢
    rcases Nat.lt_trichotomy n.natAbs 1 with hzero | hone | htwo
    · obtain rfl : n = 0 := by omega
      rw [Int.tdiv_zero]
      exact ⟨by decide, by decide⟩
    · obtain rfl : n = 1 := by omega
      rw [Int.tdiv_one]
      exact ⟨by decide, by decide⟩
    · have hhalf : (-2 ^ 63 : Int).natAbs / n.natAbs ≤ 2 ^ 63 / 2 :=
        Nat.div_le_div_left htwo (by decide)
      constructor <;> omega
  · constructor <;> omega

/-- What is made of integers, signs, sums, differences and products comes to the only number of
64 bits that agrees modulo `2 ^ 64` with what it amounts to over the integers. With quotients as
well, an expression comes to the error that something is divided by zero exactly if some divisor
in it comes to zero, and otherwise every step of it comes to what it is over the integers,
wrapped; the only quotient that this changes is the one of the smallest number by `-1`. -/
theorem arithmetic_wraps (apply : Value → List Value → Eval Value) (env : FrameId) :
    (∀ (e : Expr Unit) (z : Int), e.AmountsTo z → ∃ n, IsWord n ∧ n ≡ z [ZMOD 2 ^ 64] ∧
      (∀ m, IsWord m → m ≡ z [ZMOD 2 ^ 64] → m = n) ∧
      (evalExpr apply env e).Gives (Value.IsInt n)) ∧
    (∀ e : Expr Unit, e.IsArithmetic →
      ((evalExpr apply env e).Gives (Value.IsFault .divisionByZero) ↔ e.DividesByZero) ∧
      (¬e.DividesByZero → ∃ n, e.Yields n ∧ (evalExpr apply env e).Gives (Value.IsInt n))) ∧
    Fault.divisionByZero.message = "division by zero" ∧
    ∀ m n, IsWord m →
      wrap (m.tdiv n) = if m = -2 ^ 63 ∧ n = -1 then -2 ^ 63 else m.tdiv n := by
  refine ⟨fun e z h => ?_, fun e h => ⟨⟨fun hgives => ?_, fun hzero => hzero.gives h⟩, ?_⟩, rfl,
    fun m n hm => ?_⟩
  · obtain ⟨n, hn, hmod⟩ := h.exists_yields
    refine ⟨n, hn.isWord, hmod, fun m hm hmod' => ?_, hn.gives⟩
    exact hm.eq_of_modEq hn.isWord (hmod'.trans hmod.symm)
  · rcases h.yields_or_dividesByZero with ⟨n, hn⟩ | hzero
    · exact absurd hgives hn.gives.not_isFault
    · exact hzero
  · intro hzero
    obtain ⟨n, hn⟩ := h.yields_or_dividesByZero.resolve_right hzero
    exact ⟨n, hn, hn.gives⟩
  · split
    next hmin =>
      obtain ⟨rfl, rfl⟩ := hmin
      decide
    next hmin => exact (isWord_tdiv hm hmin).wrap_eq

/-- `-9223372036854775807 - 1` -/
def smallest : Expr Unit :=
  .binary () .subtract (.unary () .negate (.int () 9223372036854775807)) (.int () 1)

/-- `-1` -/
def minusOne : Expr Unit :=
  .unary () .negate (.int () 1)

theorem operation?_subtract : BinaryOp.subtract.operation? = some (· - ·) := rfl

theorem smallest_amountsTo : smallest.AmountsTo (-2 ^ 63) :=
  .binary operation?_subtract nofun (.negate .int) .int

theorem smallest_yields : smallest.Yields (-2 ^ 63) :=
  .binary operation?_subtract nofun (.negate .int) .int

theorem smallest_isArithmetic : smallest.IsArithmetic :=
  .binary operation?_subtract (.negate .int) .int

/-- The product of the two is `2 ^ 63` over the integers, the quotient overflows, and the
difference of the smallest number and itself is no divisor. -/
theorem smallest_and_minusOne :
    (∃ n, IsWord n ∧ n ≡ 2 ^ 63 [ZMOD 2 ^ 64] ∧ (evalExpr (Monkey.apply 0) 0
      (.binary () .multiply smallest minusOne)).Gives (Value.IsInt n)) ∧
    (evalExpr (Monkey.apply 0) 0 (.binary () .divide smallest minusOne)).Gives
      (Value.IsInt (-2 ^ 63)) ∧
    (evalExpr (Monkey.apply 0) 0 (.binary () .divide minusOne
      (.binary () .subtract smallest smallest))).Gives (Value.IsFault .divisionByZero) := by
  obtain ⟨hproduct, hquotient, -⟩ := arithmetic_wraps (Monkey.apply 0) 0
  have hmultiply : BinaryOp.multiply.operation? = some (· * ·) := rfl
  have hdivide : BinaryOp.divide.operation? = some Int.tdiv := rfl
  have hminus : minusOne.AmountsTo (-1) := .negate .int
  have hminus' : minusOne.Yields (-1) := .negate .int
  have hminus'' : minusOne.IsArithmetic := .negate .int
  refine ⟨?_, ?_, ?_⟩
  · have hamounts : (Expr.binary () .multiply smallest minusOne).AmountsTo (2 ^ 63) :=
      .binary hmultiply nofun smallest_amountsTo hminus
    obtain ⟨n, hn, hmod, -, hgives⟩ := hproduct _ _ hamounts
    exact ⟨n, hn, hmod, hgives⟩
  · have hyields : (Expr.binary () .divide smallest minusOne).Yields (-2 ^ 63) :=
      .binary hdivide (fun _ => by decide) smallest_yields hminus'
    have harithmetic : (Expr.binary () .divide smallest minusOne).IsArithmetic :=
      .binary hdivide smallest_isArithmetic hminus''
    obtain ⟨n, hn, hgives⟩ := (hquotient _ harithmetic).2 hyields.not_dividesByZero
    rwa [hn.unique hyields] at hgives
  · have hzero : (Expr.binary () .subtract smallest smallest).Yields 0 :=
      .binary operation?_subtract nofun smallest_yields smallest_yields
    have harithmetic : (Expr.binary () .subtract smallest smallest).IsArithmetic :=
      .binary operation?_subtract smallest_isArithmetic smallest_isArithmetic
    exact (hquotient _ (.binary hdivide hminus'' harithmetic)).1.mpr (.here hzero)

end Monkey
