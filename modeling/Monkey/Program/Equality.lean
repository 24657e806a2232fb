import Monkey.Program.Parse

/-!
# Comparing programs

Two programs are equal if they have the same nodes with the same tags in the same
places; over tags that can be compared this is decidable. So it is with what is read.
-/

namespace Monkey

variable {α : Type} [DecidableEq α]

mutual

/-- Whether two expressions are the same, tags included. -/
def Expr.same : Expr α → Expr α → Bool
  | .ident i, .ident j => i = j
  | .int t m, .int u n => t = u && m = n
  | .bool t a, .bool u b => t = u && a = b
  | .unary t o x, .unary u p y => t = u && o = p && x.same y
  | .binary t o x y, .binary u p z w => t = u && o = p && x.same z && y.same w
  | .cond t c x none, .cond u d y none => t = u && c.same d && x.same y
  | .cond t c x (some y), .cond u d z (some w) =>
      t = u && c.same d && x.same z && y.same w
  | .function t ps x, .function u qs y => t = u && ps = qs && x.same y
  | .call t f xs, .call u g ys => t = u && f.same g && Expr.sameAll xs ys
  | _, _ => false

/-- `Expr.same` position by position. -/
def Expr.sameAll : List (Expr α) → List (Expr α) → Bool
  | [], [] => true
  | x :: xs, y :: ys => x.same y && Expr.sameAll xs ys
  | _, _ => false

/-- Whether two statements are the same, tags included. -/
def Stmt.same : Stmt α → Stmt α → Bool
  | .let_ t i x, .let_ u j y => t = u && i = j && x.same y
  | .return_ t x, .return_ u y => t = u && x.same y
  | .expr t x, .expr u y => t = u && x.same y
  | .block x, .block y => x.same y
  | _, _ => false

/-- `Stmt.same` position by position. -/
def Stmt.sameAll : List (Stmt α) → List (Stmt α) → Bool
  | [], [] => true
  | x :: xs, y :: ys => x.same y && Stmt.sameAll xs ys
  | _, _ => false

/-- Whether two blocks are the same, tags included. -/
def Block.same : Block α → Block α → Bool
  | .mk t xs, .mk u ys => t = u && Stmt.sameAll xs ys

end

mutual

theorem Expr.same_iff : ∀ x y : Expr α, x.same y = true ↔ x = y
  | .ident i, y => by cases y <;> simp [Expr.same]
  | .int t m, y => by cases y <;> simp [Expr.same]
  | .bool t a, y => by cases y <;> simp [Expr.same]
  | .unary t o x, y => by
      cases y <;> simp [Expr.same, Expr.same_iff x, and_assoc]
  | .binary t o x y, z => by
      cases z <;> simp [Expr.same, Expr.same_iff x, Expr.same_iff y, and_assoc]
  | .cond t c x none, y => by
      rcases y with _ | _ | _ | _ | _ | ⟨_, _, _, _ | _⟩ | _ | _ <;>
        simp [Expr.same, Expr.same_iff c, Block.same_iff x, and_assoc]
  | .cond t c x (some y), z => by
      rcases z with _ | _ | _ | _ | _ | ⟨_, _, _, _ | _⟩ | _ | _ <;>
        simp [Expr.same, Expr.same_iff c, Block.same_iff x, Block.same_iff y, and_assoc]
  | .function t ps x, y => by
      cases y <;> simp [Expr.same, Block.same_iff x, and_assoc]
  | .call t f xs, y => by
      cases y <;> simp [Expr.same, Expr.same_iff f, Expr.sameAll_iff xs, and_assoc]

theorem Expr.sameAll_iff : ∀ xs ys : List (Expr α), Expr.sameAll xs ys = true ↔ xs = ys
  | [], ys => by cases ys <;> simp [Expr.sameAll]
  | x :: xs, ys => by
      cases ys <;> simp [Expr.sameAll, Expr.same_iff x, Expr.sameAll_iff xs]

theorem Stmt.same_iff : ∀ x y : Stmt α, x.same y = true ↔ x = y
  | .let_ t i x, y => by cases y <;> simp [Stmt.same, Expr.same_iff x, and_assoc]
  | .return_ t x, y => by cases y <;> simp [Stmt.same, Expr.same_iff x]
  | .expr t x, y => by cases y <;> simp [Stmt.same, Expr.same_iff x]
  | .block x, y => by cases y <;> simp [Stmt.same, Block.same_iff x]

theorem Stmt.sameAll_iff : ∀ xs ys : List (Stmt α), Stmt.sameAll xs ys = true ↔ xs = ys
  | [], ys => by cases ys <;> simp [Stmt.sameAll]
  | x :: xs, ys => by
      cases ys <;> simp [Stmt.sameAll, Stmt.same_iff x, Stmt.sameAll_iff xs]

theorem Block.same_iff : ∀ x y : Block α, x.same y = true ↔ x = y
  | .mk t xs, .mk u ys => by simp [Block.same, Stmt.sameAll_iff xs]

end

instance : DecidableEq (Expr α) := fun x y =>
  decidable_of_iff (x.same y = true) (Expr.same_iff x y)

instance : DecidableEq (Stmt α) := fun x y =>
  decidable_of_iff (x.same y = true) (Stmt.same_iff x y)

instance : DecidableEq (Block α) := fun x y =>
  decidable_of_iff (x.same y = true) (Block.same_iff x y)

instance : DecidableEq (Program α) := fun p q =>
  decidable_of_iff (p.statements = q.statements)
    ⟨fun h => by cases p; cases q; exact congrArg Program.mk h, congrArg Program.statements⟩

deriving instance DecidableEq for Reply, Parsed

end Monkey
