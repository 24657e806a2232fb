import Mathlib.Data.List.Forall2
import Monkey.Program.Basic

/-!
# Renaming a parameter

A parameter of a function literal gets a new name by replacing the old one wherever it
stands in the literal: among the parameters, as a name that is looked up, in `let`
statements, and as a parameter further inside. The rest of the program stays as it is
(`Program.RenamesLiteral`).

After this, every part of the program has a counterpart, which depends on the side that
the part is on: inside the literal the name is replaced, and outside at most the literal
is. The parts of counterparts are counterparts.
-/

namespace Monkey

variable {α : Type} {p q : String}

/-! ## Names -/

mutual

/-- The names that the expression mentions, in any role. -/
def Expr.names : Expr α → List String
  | .ident id => [id.name]
  | .int _ _ | .bool _ _ => []
  | .unary _ _ operand => operand.names
  | .binary _ _ left right => left.names ++ right.names
  | .cond _ condition consequence none => condition.names ++ consequence.names
  | .cond _ condition consequence (some alternative) =>
      condition.names ++ (consequence.names ++ alternative.names)
  | .function _ params body => params.map Ident.name ++ body.names
  | .call _ callee args => callee.names ++ Expr.allNames args

/-- `Expr.names` for several expressions. -/
def Expr.allNames : List (Expr α) → List String
  | [] => []
  | e :: es => e.names ++ Expr.allNames es

/-- The names that the statement mentions, in any role. -/
def Stmt.names : Stmt α → List String
  | .let_ _ id value => id.name :: value.names
  | .return_ _ value | .expr _ value => value.names
  | .block body => body.names

/-- `Stmt.names` for several statements. -/
def Stmt.allNames : List (Stmt α) → List String
  | [] => []
  | s :: ss => s.names ++ Stmt.allNames ss

/-- The names that the block mentions, in any role. -/
def Block.names : Block α → List String
  | .mk _ statements => Stmt.allNames statements

end

theorem Expr.mem_allNames {x : String} {es : List (Expr α)} :
    x ∈ Expr.allNames es ↔ ∃ e ∈ es, x ∈ e.names := by
  induction es with
  | nil => simp [allNames]
  | cons e es ih => simp [allNames, ih]

theorem Stmt.mem_allNames {x : String} {ss : List (Stmt α)} :
    x ∈ Stmt.allNames ss ↔ ∃ s ∈ ss, x ∈ s.names := by
  induction ss with
  | nil => simp [allNames]
  | cons s ss ih => simp [allNames, ih]

/-! ## Replacing a name -/

/-- The name, unless it is `p`: then `q`. -/
def replaceName (p q x : String) : String :=
  if x = p then q else x

/-- The identifier with `q` for the name `p`. -/
def Ident.replace (p q : String) (id : Ident α) : Ident α :=
  ⟨id.tag, replaceName p q id.name⟩

mutual

/-- The expression with `q` for the name `p` wherever it is mentioned. -/
def Expr.replace (p q : String) : Expr α → Expr α
  | .ident id => .ident (id.replace p q)
  | .int tag value => .int tag value
  | .bool tag value => .bool tag value
  | .unary tag op operand => .unary tag op (operand.replace p q)
  | .binary tag op left right => .binary tag op (left.replace p q) (right.replace p q)
  | .cond tag condition consequence none =>
      .cond tag (condition.replace p q) (consequence.replace p q) none
  | .cond tag condition consequence (some alternative) =>
      .cond tag (condition.replace p q) (consequence.replace p q)
        (some (alternative.replace p q))
  | .function tag params body =>
      .function tag (params.map (Ident.replace p q)) (body.replace p q)
  | .call tag callee args => .call tag (callee.replace p q) (Expr.replaceAll p q args)

/-- `Expr.replace` on each of several expressions. -/
def Expr.replaceAll (p q : String) : List (Expr α) → List (Expr α)
  | [] => []
  | e :: es => e.replace p q :: Expr.replaceAll p q es

/-- The statement with `q` for the name `p` wherever it is mentioned. -/
def Stmt.replace (p q : String) : Stmt α → Stmt α
  | .let_ tag id value => .let_ tag (id.replace p q) (value.replace p q)
  | .return_ tag value => .return_ tag (value.replace p q)
  | .expr tag value => .expr tag (value.replace p q)
  | .block body => .block (body.replace p q)

/-- `Stmt.replace` on each of several statements. -/
def Stmt.replaceAll (p q : String) : List (Stmt α) → List (Stmt α)
  | [] => []
  | s :: ss => s.replace p q :: Stmt.replaceAll p q ss

/-- The block with `q` for the name `p` wherever it is mentioned. -/
def Block.replace (p q : String) : Block α → Block α
  | .mk tag statements => .mk tag (Stmt.replaceAll p q statements)

end

theorem Expr.replaceAll_eq_map (es : List (Expr α)) :
    Expr.replaceAll p q es = es.map (Expr.replace p q) := by
  induction es with
  | nil => rfl
  | cons e es ih => rw [replaceAll, ih, List.map_cons]

theorem Stmt.replaceAll_eq_map (ss : List (Stmt α)) :
    Stmt.replaceAll p q ss = ss.map (Stmt.replace p q) := by
  induction ss with
  | nil => rfl
  | cons s ss ih => rw [replaceAll, ih, List.map_cons]

mutual

/-- The two expressions are the same but for one function literal in the first one that
has the parameter `p` and does not mention `q`: there, `q` replaces `p`. -/
inductive Expr.RenamesLiteral (p q : String) : Expr α → Expr α → Prop
  | here {tag params body} : p ∈ params.map Ident.name →
      q ∉ (Expr.function tag params body).names →
      Expr.RenamesLiteral p q (.function tag params body)
        ((Expr.function tag params body).replace p q)
  | operand {tag op e e'} : e.RenamesLiteral p q e' →
      Expr.RenamesLiteral p q (.unary tag op e) (.unary tag op e')
  | left {tag op l l' r} : l.RenamesLiteral p q l' →
      Expr.RenamesLiteral p q (.binary tag op l r) (.binary tag op l' r)
  | right {tag op l r r'} : r.RenamesLiteral p q r' →
      Expr.RenamesLiteral p q (.binary tag op l r) (.binary tag op l r')
  | condition {tag c c' b a} : c.RenamesLiteral p q c' →
      Expr.RenamesLiteral p q (.cond tag c b a) (.cond tag c' b a)
  | consequence {tag c b b' a} : b.RenamesLiteral p q b' →
      Expr.RenamesLiteral p q (.cond tag c b a) (.cond tag c b' a)
  | alternative {tag c b a a'} : a.RenamesLiteral p q a' →
      Expr.RenamesLiteral p q (.cond tag c b (some a)) (.cond tag c b (some a'))
  | body {tag params b b'} : b.RenamesLiteral p q b' →
      Expr.RenamesLiteral p q (.function tag params b) (.function tag params b')
  | callee {tag f f' es} : f.RenamesLiteral p q f' →
      Expr.RenamesLiteral p q (.call tag f es) (.call tag f' es)
  | argument {tag f es e e' es'} : e.RenamesLiteral p q e' →
      Expr.RenamesLiteral p q (.call tag f (es ++ e :: es'))
        (.call tag f (es ++ e' :: es'))

/-- As for expressions. -/
inductive Stmt.RenamesLiteral (p q : String) : Stmt α → Stmt α → Prop
  | let_ {tag id e e'} : e.RenamesLiteral p q e' →
      Stmt.RenamesLiteral p q (.let_ tag id e) (.let_ tag id e')
  | return_ {tag e e'} : e.RenamesLiteral p q e' →
      Stmt.RenamesLiteral p q (.return_ tag e) (.return_ tag e')
  | expr {tag e e'} : e.RenamesLiteral p q e' →
      Stmt.RenamesLiteral p q (.expr tag e) (.expr tag e')
  | block {b b'} : b.RenamesLiteral p q b' →
      Stmt.RenamesLiteral p q (.block b) (.block b')

/-- As for expressions: one of the statements has the literal inside. -/
inductive Block.RenamesLiteral (p q : String) : Block α → Block α → Prop
  | mk {tag ss s s' ss'} : s.RenamesLiteral p q s' →
      Block.RenamesLiteral p q (.mk tag (ss ++ s :: ss')) (.mk tag (ss ++ s' :: ss'))

end

/-- The two programs are the same but for one function literal in the first one that has
the parameter `p` and does not mention `q`: there, `q` replaces `p`. -/
inductive Program.RenamesLiteral (p q : String) : Program α → Program α → Prop
  | mk {ss s s' ss'} : s.RenamesLiteral p q s' →
      Program.RenamesLiteral p q ⟨ss ++ s :: ss'⟩ ⟨ss ++ s' :: ss'⟩

/-! ## Counterparts -/

/-- Code is outside the literal, which it may have inside, or inside it. -/
inductive Side where
  | outside
  | inside

namespace Side

/-- The name in the counterpart of code on the side. -/
def rename (p q : String) : Side → String → String
  | outside, x => x
  | inside, x => replaceName p q x

/-- The name may be mentioned on the side. -/
def Mentions (q : String) : Side → String → Prop
  | outside, _ => True
  | inside, x => x ≠ q

/-- What stands on the first side may have inside it what stands on the second one: nothing
leads out of the literal, and what leads into it is the literal itself, which binds `p`. -/
inductive Opens (binds : Prop) : Side → Side → Prop
  | same {side} : Opens binds side side
  | literal : binds → Opens binds outside inside

theorem Opens.imp {binds binds' : Prop} {around side : Side} (himp : binds → binds')
    (h : around.Opens binds side) : around.Opens binds' side := by
  cases h with
  | same => exact .same
  | literal hbinds => exact .literal (himp hbinds)

theorem rename_eq_iff {side : Side} {x y : String} (hx : side.Mentions q x)
    (hy : side.Mentions q y) : side.rename p q x = side.rename p q y ↔ x = y := by
  refine ⟨fun h => ?_, congrArg _⟩
  cases side with
  | outside => exact h
  | inside =>
      simp only [rename, replaceName] at h
      by_cases hxp : x = p
      · by_cases hyp : y = p
        · exact hxp.trans hyp.symm
        · rw [if_pos hxp, if_neg hyp] at h
          exact absurd h.symm hy
      · by_cases hyp : y = p
        · rw [if_neg hxp, if_pos hyp] at h
          exact absurd h hx
        · rwa [if_neg hxp, if_neg hyp] at h

theorem rename_of_ne {side : Side} {x : String} (hx : x ≠ p) : side.rename p q x = x := by
  cases side with
  | outside => rfl
  | inside => exact if_neg hx

end Side

/-- The expression is what stands for the other one on the side. -/
def Expr.Counterpart (p q : String) : Side → Expr α → Expr α → Prop
  | .outside, e, e' => e = e' ∨ e.RenamesLiteral p q e'
  | .inside, e, e' => q ∉ e.names ∧ e.replace p q = e'

/-- The statement is what stands for the other one on the side. -/
def Stmt.Counterpart (p q : String) : Side → Stmt α → Stmt α → Prop
  | .outside, s, s' => s = s' ∨ s.RenamesLiteral p q s'
  | .inside, s, s' => q ∉ s.names ∧ s.replace p q = s'

/-- The block is what stands for the other one on the side. -/
def Block.Counterpart (p q : String) : Side → Block α → Block α → Prop
  | .outside, b, b' => b = b' ∨ b.RenamesLiteral p q b'
  | .inside, b, b' => q ∉ b.names ∧ b.replace p q = b'

/-- The second function is what stands for the first one, whose body is on the side. -/
structure FunctionCounterpart (p q : String) (side : Side) (params : List String)
    (body : Block α) (params' : List String) (body' : Block α) : Prop where
  mentions : ∀ x ∈ params, side.Mentions q x
  params : params' = params.map (side.rename p q)
  body : body.Counterpart p q side body'

theorem not_mem_append {x : String} {xs ys : List String} :
    x ∉ xs ++ ys ↔ x ∉ xs ∧ x ∉ ys := by
  rw [List.mem_append, not_or]

theorem forall₂_append_cons {σ : Type} {R : σ → σ → Prop} {x y : σ} {xs ys : List σ}
    (hrefl : ∀ z, R z z) (h : R x y) : List.Forall₂ R (xs ++ x :: ys) (xs ++ y :: ys) :=
  List.rel_append (List.forall₂_same.mpr fun z _ => hrefl z)
    (.cons h (List.forall₂_same.mpr fun z _ => hrefl z))

namespace Expr.Counterpart

variable {side : Side} {tag : α} {e e' l r : Expr α} {b : Block α}

theorem refl (e : Expr α) : e.Counterpart p q .outside e :=
  .inl rfl

theorem ident {id : Ident α} (h : (Expr.ident id).Counterpart p q side e') :
    side.Mentions q id.name ∧ e' = .ident ⟨id.tag, side.rename p q id.name⟩ := by
  cases side with
  | outside =>
      obtain rfl | h := h
      · exact ⟨trivial, rfl⟩
      · cases h
  | inside =>
      obtain ⟨hq, rfl⟩ := h
      exact ⟨fun heq => hq (List.mem_singleton.mpr heq.symm), rfl⟩

theorem int {n : Int64} (h : (Expr.int tag n).Counterpart p q side e') :
    e' = .int tag n := by
  cases side with
  | outside =>
      obtain rfl | h := h
      · rfl
      · cases h
  | inside => exact h.2.symm

theorem bool {b : Bool} (h : (Expr.bool tag b).Counterpart p q side e') :
    e' = .bool tag b := by
  cases side with
  | outside =>
      obtain rfl | h := h
      · rfl
      · cases h
  | inside => exact h.2.symm

theorem unary {op : UnaryOp} (h : (Expr.unary tag op e).Counterpart p q side e') :
    ∃ o, e' = .unary tag op o ∧ e.Counterpart p q side o := by
  cases side with
  | outside =>
      obtain rfl | h := h
      · exact ⟨_, rfl, .refl e⟩
      · cases h with
        | operand h => exact ⟨_, rfl, .inr h⟩
  | inside =>
      obtain ⟨hq, rfl⟩ := h
      exact ⟨_, rfl, hq, rfl⟩

theorem binary {op : BinaryOp} (h : (Expr.binary tag op l r).Counterpart p q side e') :
    ∃ l' r', e' = .binary tag op l' r' ∧ l.Counterpart p q side l' ∧
      r.Counterpart p q side r' := by
  cases side with
  | outside =>
      obtain rfl | h := h
      · exact ⟨_, _, rfl, .refl l, .refl r⟩
      · cases h with
        | left h => exact ⟨_, _, rfl, .inr h, .refl r⟩
        | right h => exact ⟨_, _, rfl, .refl l, .inr h⟩
  | inside =>
      obtain ⟨hq, rfl⟩ := h
      obtain ⟨hl, hr⟩ := not_mem_append.mp hq
      exact ⟨_, _, rfl, ⟨hl, rfl⟩, hr, rfl⟩

theorem cond {c : Expr α} (h : (Expr.cond tag c b none).Counterpart p q side e') :
    ∃ c' b', e' = .cond tag c' b' none ∧ c.Counterpart p q side c' ∧
      b.Counterpart p q side b' := by
  cases side with
  | outside =>
      obtain rfl | h := h
      · exact ⟨_, _, rfl, .refl c, .inl rfl⟩
      · cases h with
        | condition h => exact ⟨_, _, rfl, .inr h, .inl rfl⟩
        | consequence h => exact ⟨_, _, rfl, .refl c, .inr h⟩
  | inside =>
      obtain ⟨hq, rfl⟩ := h
      obtain ⟨hc, hb⟩ := not_mem_append.mp hq
      exact ⟨_, _, rfl, ⟨hc, rfl⟩, hb, rfl⟩

theorem condElse {c : Expr α} {a : Block α}
    (h : (Expr.cond tag c b (some a)).Counterpart p q side e') :
    ∃ c' b' a', e' = .cond tag c' b' (some a') ∧ c.Counterpart p q side c' ∧
      b.Counterpart p q side b' ∧ a.Counterpart p q side a' := by
  cases side with
  | outside =>
      obtain rfl | h := h
      · exact ⟨_, _, _, rfl, .refl c, .inl rfl, .inl rfl⟩
      · cases h with
        | condition h => exact ⟨_, _, _, rfl, .inr h, .inl rfl, .inl rfl⟩
        | consequence h => exact ⟨_, _, _, rfl, .refl c, .inr h, .inl rfl⟩
        | alternative h => exact ⟨_, _, _, rfl, .refl c, .inl rfl, .inr h⟩
  | inside =>
      obtain ⟨hq, rfl⟩ := h
      obtain ⟨hc, hq⟩ := not_mem_append.mp hq
      obtain ⟨hb, ha⟩ := not_mem_append.mp hq
      exact ⟨_, _, _, rfl, ⟨hc, rfl⟩, ⟨hb, rfl⟩, ha, rfl⟩

/-- What a function literal evaluates to is determined by the names of its parameters and
its body. -/
theorem function {ids : List (Ident α)}
    (h : (Expr.function tag ids b).Counterpart p q side e') :
    ∃ ids' b' inner, e' = .function tag ids' b' ∧
      side.Opens (p ∈ ids.map Ident.name) inner ∧
      FunctionCounterpart p q inner (ids.map Ident.name) b (ids'.map Ident.name) b' := by
  have hreplaced : q ∉ (Expr.function tag ids b).names →
      FunctionCounterpart p q .inside (ids.map Ident.name) b
        ((ids.map (Ident.replace p q)).map Ident.name) (b.replace p q) := by
    intro hq
    obtain ⟨hids, hb⟩ := not_mem_append.mp hq
    exact ⟨fun x hx heq => hids (heq ▸ hx), by simp [Ident.replace, Side.rename], hb, rfl⟩
  have hkept : ∀ {b'}, b.Counterpart p q .outside b' →
      FunctionCounterpart p q .outside (ids.map Ident.name) b (ids.map Ident.name) b' :=
    fun hb => ⟨fun _ _ => trivial, (List.map_id _).symm, hb⟩
  cases side with
  | outside =>
      obtain rfl | h := h
      · exact ⟨_, _, _, rfl, .same, hkept (.inl rfl)⟩
      · cases h with
        | here hp hq => exact ⟨_, _, _, rfl, .literal hp, hreplaced hq⟩
        | body h => exact ⟨_, _, _, rfl, .same, hkept (.inr h)⟩
  | inside =>
      obtain ⟨hq, rfl⟩ := h
      exact ⟨_, _, _, rfl, .same, hreplaced hq⟩

theorem call {es : List (Expr α)} (h : (Expr.call tag e es).Counterpart p q side e') :
    ∃ f es', e' = .call tag f es' ∧ e.Counterpart p q side f ∧
      List.Forall₂ (Expr.Counterpart p q side) es es' := by
  cases side with
  | outside =>
      have hes : List.Forall₂ (Expr.Counterpart p q .outside) es es :=
        List.forall₂_same.mpr fun e _ => .refl e
      obtain rfl | h := h
      · exact ⟨_, _, rfl, .refl e, hes⟩
      · cases h with
        | callee h => exact ⟨_, _, rfl, .inr h, hes⟩
        | argument h => exact ⟨_, _, rfl, .refl e, forall₂_append_cons refl (.inr h)⟩
  | inside =>
      obtain ⟨hq, rfl⟩ := h
      obtain ⟨he, hes⟩ := not_mem_append.mp hq
      refine ⟨_, _, rfl, ⟨he, rfl⟩, ?_⟩
      rw [Expr.replaceAll_eq_map, List.forall₂_map_right_iff, List.forall₂_same]
      exact fun e hmem => ⟨fun hname => hes (Expr.mem_allNames.mpr ⟨e, hmem, hname⟩), rfl⟩

end Expr.Counterpart

namespace Stmt.Counterpart

variable {side : Side} {tag : α} {e : Expr α} {s' : Stmt α}

theorem refl (s : Stmt α) : s.Counterpart p q .outside s :=
  .inl rfl

theorem let_ {id : Ident α} (h : (Stmt.let_ tag id e).Counterpart p q side s') :
    ∃ e', s' = .let_ tag ⟨id.tag, side.rename p q id.name⟩ e' ∧
      side.Mentions q id.name ∧ e.Counterpart p q side e' := by
  cases side with
  | outside =>
      obtain rfl | h := h
      · exact ⟨_, rfl, trivial, .refl e⟩
      · cases h with
        | let_ h => exact ⟨_, rfl, trivial, .inr h⟩
  | inside =>
      obtain ⟨hq, rfl⟩ := h
      obtain ⟨hid, he⟩ := List.ne_and_not_mem_of_not_mem_cons hq
      exact ⟨_, rfl, hid.symm, he, rfl⟩

theorem return_ (h : (Stmt.return_ tag e).Counterpart p q side s') :
    ∃ e', s' = .return_ tag e' ∧ e.Counterpart p q side e' := by
  cases side with
  | outside =>
      obtain rfl | h := h
      · exact ⟨_, rfl, .refl e⟩
      · cases h with
        | return_ h => exact ⟨_, rfl, .inr h⟩
  | inside =>
      obtain ⟨hq, rfl⟩ := h
      exact ⟨_, rfl, hq, rfl⟩

theorem expr (h : (Stmt.expr tag e).Counterpart p q side s') :
    ∃ e', s' = .expr tag e' ∧ e.Counterpart p q side e' := by
  cases side with
  | outside =>
      obtain rfl | h := h
      · exact ⟨_, rfl, .refl e⟩
      · cases h with
        | expr h => exact ⟨_, rfl, .inr h⟩
  | inside =>
      obtain ⟨hq, rfl⟩ := h
      exact ⟨_, rfl, hq, rfl⟩

theorem block {b : Block α} (h : (Stmt.block b).Counterpart p q side s') :
    ∃ b', s' = .block b' ∧ b.Counterpart p q side b' := by
  cases side with
  | outside =>
      obtain rfl | h := h
      · exact ⟨_, rfl, .inl rfl⟩
      · cases h with
        | block h => exact ⟨_, rfl, .inr h⟩
  | inside =>
      obtain ⟨hq, rfl⟩ := h
      exact ⟨_, rfl, hq, rfl⟩

end Stmt.Counterpart

theorem Block.Counterpart.mk {side : Side} {tag : α} {ss : List (Stmt α)} {b' : Block α}
    (h : (Block.mk tag ss).Counterpart p q side b') :
    ∃ ss', b' = .mk tag ss' ∧ List.Forall₂ (Stmt.Counterpart p q side) ss ss' := by
  cases side with
  | outside =>
      obtain rfl | h := h
      · exact ⟨_, rfl, List.forall₂_same.mpr fun s _ => .refl s⟩
      · cases h with
        | mk h => exact ⟨_, rfl, forall₂_append_cons Stmt.Counterpart.refl (.inr h)⟩
  | inside =>
      obtain ⟨hq, rfl⟩ := h
      refine ⟨_, rfl, ?_⟩
      rw [Stmt.replaceAll_eq_map, List.forall₂_map_right_iff, List.forall₂_same]
      exact fun s hmem => ⟨fun hname => hq (Stmt.mem_allNames.mpr ⟨s, hmem, hname⟩), rfl⟩

theorem Program.RenamesLiteral.counterpart {P P' : Program α} (h : P.RenamesLiteral p q P') :
    List.Forall₂ (Stmt.Counterpart p q .outside) P.statements P'.statements := by
  obtain ⟨h⟩ := h
  exact forall₂_append_cons Stmt.Counterpart.refl (.inr h)

/-! ## A name replaced by itself -/

theorem replaceName_self (p x : String) : replaceName p p x = x := by
  unfold replaceName
  split
  next h => exact h.symm
  next => rfl

mutual

theorem Expr.replace_self (p : String) : (e : Expr α) → e.replace p p = e
  | .ident id => by simp [Expr.replace, Ident.replace, replaceName_self]
  | .int tag value => rfl
  | .bool tag value => rfl
  | .unary tag op operand => by rw [Expr.replace, Expr.replace_self p operand]
  | .binary tag op left right => by
      rw [Expr.replace, Expr.replace_self p left, Expr.replace_self p right]
  | .cond tag condition consequence none => by
      rw [Expr.replace, Expr.replace_self p condition, Block.replace_self p consequence]
  | .cond tag condition consequence (some alternative) => by
      rw [Expr.replace, Expr.replace_self p condition, Block.replace_self p consequence,
        Block.replace_self p alternative]
  | .function tag params body => by
      have hid : Ident.replace (α := α) p p = id := by
        funext x
        simp [Ident.replace, replaceName_self]
      rw [Expr.replace, Block.replace_self p body, hid, List.map_id]
  | .call tag callee args => by
      rw [Expr.replace, Expr.replace_self p callee, Expr.replaceAll_self p args]

theorem Expr.replaceAll_self (p : String) : (es : List (Expr α)) → Expr.replaceAll p p es = es
  | [] => rfl
  | e :: es => by rw [Expr.replaceAll, Expr.replace_self p e, Expr.replaceAll_self p es]

theorem Stmt.replace_self (p : String) : (s : Stmt α) → s.replace p p = s
  | .let_ tag id value => by
      simp [Stmt.replace, Ident.replace, replaceName_self, Expr.replace_self p value]
  | .return_ tag value => by rw [Stmt.replace, Expr.replace_self p value]
  | .expr tag value => by rw [Stmt.replace, Expr.replace_self p value]
  | .block body => by rw [Stmt.replace, Block.replace_self p body]

theorem Stmt.replaceAll_self (p : String) : (ss : List (Stmt α)) → Stmt.replaceAll p p ss = ss
  | [] => rfl
  | s :: ss => by rw [Stmt.replaceAll, Stmt.replace_self p s, Stmt.replaceAll_self p ss]

theorem Block.replace_self (p : String) : (b : Block α) → b.replace p p = b
  | .mk tag statements => by rw [Block.replace, Stmt.replaceAll_self p statements]

end

mutual

theorem Expr.RenamesLiteral.eq {e e' : Expr α} : e.RenamesLiteral p p e' → e = e'
  | .here _ _ => (Expr.replace_self p _).symm
  | .operand h => by rw [h.eq]
  | .left h => by rw [h.eq]
  | .right h => by rw [h.eq]
  | .condition h => by rw [h.eq]
  | .consequence h => by rw [h.eq]
  | .alternative h => by rw [h.eq]
  | .body h => by rw [h.eq]
  | .callee h => by rw [h.eq]
  | .argument h => by rw [h.eq]

theorem Stmt.RenamesLiteral.eq {s s' : Stmt α} : s.RenamesLiteral p p s' → s = s'
  | .let_ h => by rw [h.eq]
  | .return_ h => by rw [h.eq]
  | .expr h => by rw [h.eq]
  | .block h => by rw [h.eq]

theorem Block.RenamesLiteral.eq {b b' : Block α} : b.RenamesLiteral p p b' → b = b'
  | .mk h => by rw [h.eq]

end

theorem Block.Counterpart.eq {side : Side} {b b' : Block α} (h : b.Counterpart p p side b') :
    b = b' := by
  cases side with
  | outside =>
      rcases h with rfl | h
      · rfl
      · exact h.eq
  | inside => exact (Block.replace_self p b).symm.trans h.2

theorem FunctionCounterpart.eq {side : Side} {params params' : List String} {body body' : Block α}
    (h : FunctionCounterpart p p side params body params' body') :
    params' = params ∧ body' = body := by
  refine ⟨?_, h.body.eq.symm⟩
  rw [h.params]
  cases side with
  | outside => exact List.map_id params
  | inside =>
      have hid : Side.inside.rename p p = id := funext (replaceName_self p)
      rw [hid, List.map_id]

end Monkey
