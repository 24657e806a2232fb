import Monkey.Program.Render

/-!
# Trees without tags

What a tree says and not where it was read: the same tree with every tag replaced by
`()`. One equation for each kind of node says how its parts are erased. The text of a
tree is that of the tree without tags (`Program.render_erase`).
-/

namespace Monkey

variable {α : Type}

/-- The name without its tag. -/
def Ident.erase (id : Ident α) : Ident Unit :=
  id.map fun _ => ()

/-- The expression without its tags. -/
def Expr.erase (e : Expr α) : Expr Unit :=
  e.map fun _ => ()

/-- The statement without its tags. -/
def Stmt.erase (s : Stmt α) : Stmt Unit :=
  s.map fun _ => ()

/-- The block without its tags. -/
def Block.erase (b : Block α) : Block Unit :=
  b.map fun _ => ()

variable {tag : α}

@[simp] theorem Ident.erase_mk {name : String} :
    (Ident.mk tag name).erase = ⟨(), name⟩ := rfl

@[simp] theorem Ident.name_erase {id : Ident α} : id.erase.name = id.name := rfl

namespace Expr

@[simp] theorem erase_ident {id : Ident α} : (ident id).erase = ident id.erase := rfl

@[simp] theorem erase_int {n : Int64} : (int tag n).erase = int () n := rfl

@[simp] theorem erase_bool {b : Bool} : (bool tag b).erase = bool () b := rfl

@[simp] theorem erase_unary {op : UnaryOp} {e : Expr α} :
    (unary tag op e).erase = unary () op e.erase := rfl

@[simp] theorem erase_binary {op : BinaryOp} {l r : Expr α} :
    (binary tag op l r).erase = binary () op l.erase r.erase := rfl

@[simp] theorem erase_cond {c : Expr α} {b : Block α} {a : Option (Block α)} :
    (cond tag c b a).erase = cond () c.erase b.erase (a.map Block.erase) := by
  cases a <;> rfl

@[simp] theorem erase_function {ids : List (Ident α)} {b : Block α} :
    (function tag ids b).erase = function () (ids.map Ident.erase) b.erase := rfl

@[simp] theorem erase_call {f : Expr α} {es : List (Expr α)} :
    (call tag f es).erase = call () f.erase (es.map Expr.erase) := by
  simp only [Expr.erase, Expr.map, mapAll_eq_map]
  rfl

end Expr

namespace Stmt

@[simp] theorem erase_let {id : Ident α} {e : Expr α} :
    (let_ tag id e).erase = let_ () id.erase e.erase := rfl

@[simp] theorem erase_return {e : Expr α} :
    (return_ tag e).erase = return_ () e.erase := rfl

@[simp] theorem erase_expr {e : Expr α} : (expr tag e).erase = expr () e.erase := rfl

@[simp] theorem erase_block {b : Block α} : (block b).erase = block b.erase := rfl

end Stmt

@[simp] theorem Block.erase_mk {ss : List (Stmt α)} :
    (Block.mk tag ss).erase = ⟨(), ss.map Stmt.erase⟩ := by
  simp only [Block.erase, Block.map, Stmt.mapAll_eq_map]
  rfl

@[simp] theorem Program.statements_erase (p : Program α) :
    p.erase.statements = p.statements.map Stmt.erase := by
  simp only [Program.erase, Program.map, Stmt.mapAll_eq_map]
  rfl

/-- Two programs that say the same have the same statements up to tags. -/
theorem Program.erase_eq_iff {p : Program α} {q : Program Unit} :
    p.erase = q ↔ p.statements.map Stmt.erase = q.statements := by
  constructor
  · rintro rfl
    exact p.statements_erase.symm
  · intro h
    rw [← p.statements_erase] at h
    exact congrArg Program.mk h

/-! ## Other tags -/

variable {β : Type}

@[simp] theorem Ident.erase_map (f : α → β) (id : Ident α) : (id.map f).erase = id.erase := rfl

mutual

@[simp] theorem Expr.erase_map (f : α → β) : (e : Expr α) → (e.map f).erase = e.erase
  | .ident id => rfl
  | .int tag value => rfl
  | .bool tag value => rfl
  | .unary tag op operand => by simp [Expr.map, Expr.erase_map f operand]
  | .binary tag op left right => by
      simp [Expr.map, Expr.erase_map f left, Expr.erase_map f right]
  | .cond tag condition consequence none => by
      simp [Expr.map, Expr.erase_map f condition, Block.erase_map f consequence]
  | .cond tag condition consequence (some alternative) => by
      simp [Expr.map, Expr.erase_map f condition, Block.erase_map f consequence,
        Block.erase_map f alternative]
  | .function tag params body => by
      simp [Expr.map, Block.erase_map f body, Function.comp_def]
  | .call tag callee args => by
      rw [Expr.map, Expr.erase_call, Expr.erase_map f callee, Expr.map_erase_mapAll f args,
        Expr.erase_call]

theorem Expr.map_erase_mapAll (f : α → β) : (es : List (Expr α)) →
    (Expr.mapAll f es).map Expr.erase = es.map Expr.erase
  | [] => rfl
  | e :: es => by
      rw [Expr.mapAll, List.map_cons, List.map_cons, Expr.erase_map f e,
        Expr.map_erase_mapAll f es]

@[simp] theorem Stmt.erase_map (f : α → β) : (s : Stmt α) → (s.map f).erase = s.erase
  | .let_ tag id value => by simp [Stmt.map, Expr.erase_map f value]
  | .return_ tag value => by simp [Stmt.map, Expr.erase_map f value]
  | .expr tag value => by simp [Stmt.map, Expr.erase_map f value]
  | .block body => by simp [Stmt.map, Block.erase_map f body]

theorem Stmt.map_erase_mapAll (f : α → β) : (ss : List (Stmt α)) →
    (Stmt.mapAll f ss).map Stmt.erase = ss.map Stmt.erase
  | [] => rfl
  | s :: ss => by
      rw [Stmt.mapAll, List.map_cons, List.map_cons, Stmt.erase_map f s,
        Stmt.map_erase_mapAll f ss]

@[simp] theorem Block.erase_map (f : α → β) : (b : Block α) → (b.map f).erase = b.erase
  | .mk tag statements => by
      rw [Block.map, Block.erase_mk, Stmt.map_erase_mapAll f statements, Block.erase_mk]

end

/-- Other tags do not change what a program says. -/
theorem Program.erase_map (f : α → β) (p : Program α) : (p.map f).erase = p.erase := by
  rw [Program.erase_eq_iff, Program.statements_erase, Program.map, Stmt.map_erase_mapAll]

/-! ## Trees that have no tags -/

mutual

theorem Expr.erase_unit : (e : Expr Unit) → e.erase = e
  | .ident id => rfl
  | .int _ value => rfl
  | .bool _ value => rfl
  | .unary _ op operand => by simp [Expr.erase_unit operand]
  | .binary _ op left right => by simp [Expr.erase_unit left, Expr.erase_unit right]
  | .cond _ condition consequence none => by
      simp [Expr.erase_unit condition, Block.erase_unit consequence]
  | .cond _ condition consequence (some alternative) => by
      simp [Expr.erase_unit condition, Block.erase_unit consequence,
        Block.erase_unit alternative]
  | .function _ params body => by
      have hparams : params.map Ident.erase = params := List.map_id params
      rw [Expr.erase_function, hparams, Block.erase_unit body]
  | .call _ callee args => by
      rw [Expr.erase_call, Expr.erase_unit callee, Expr.map_erase_unit args]

theorem Expr.map_erase_unit : (es : List (Expr Unit)) → es.map Expr.erase = es
  | [] => rfl
  | e :: es => by rw [List.map_cons, Expr.erase_unit e, Expr.map_erase_unit es]

theorem Stmt.erase_unit : (s : Stmt Unit) → s.erase = s
  | .let_ _ _ value => by
      rw [Stmt.erase_let, Expr.erase_unit value]
      rfl
  | .return_ _ value => by simp [Expr.erase_unit value]
  | .expr _ value => by simp [Expr.erase_unit value]
  | .block body => by simp [Block.erase_unit body]

theorem Stmt.map_erase_unit : (ss : List (Stmt Unit)) → ss.map Stmt.erase = ss
  | [] => rfl
  | s :: ss => by rw [List.map_cons, Stmt.erase_unit s, Stmt.map_erase_unit ss]

theorem Block.erase_unit : (b : Block Unit) → b.erase = b
  | .mk _ statements => by rw [Block.erase_mk, Stmt.map_erase_unit statements]

end

/-! ## Texts -/

theorem Stmt.separator_erase (s : Stmt α) : s.erase.separator = s.separator := by
  cases s <;> rfl

theorem Stmt.renderAll_cons_cons {s s' : Stmt α} {ss : List (Stmt α)} :
    Stmt.renderAll (s :: s' :: ss) = s.render ++ s.separator ++ Stmt.renderAll (s' :: ss) := by
  rw [Stmt.renderAll]
  exact List.cons_ne_nil s' ss

mutual

theorem Expr.render_erase : (e : Expr α) → e.erase.render = e.render
  | .ident id => rfl
  | .int tag value => rfl
  | .bool tag value => rfl
  | .unary tag op operand => by simp [Expr.render, Expr.render_erase operand]
  | .binary tag op left right => by
      simp [Expr.render, Expr.render_erase left, Expr.render_erase right]
  | .cond tag condition consequence none => by
      simp [Expr.render, Expr.render_erase condition, Block.render_erase consequence]
  | .cond tag condition consequence (some alternative) => by
      simp [Expr.render, Expr.render_erase condition, Block.render_erase consequence,
        Block.render_erase alternative]
  | .function tag params body => by
      simp [Expr.render, Block.render_erase body, Function.comp_def]
  | .call tag callee args => by
      have hargs := Expr.renderAll_erase args
      simp only [Expr.renderAll_eq_map] at hargs
      simp [Expr.render, Expr.render_erase callee, hargs]

theorem Expr.renderAll_erase : (es : List (Expr α)) →
    Expr.renderAll (es.map Expr.erase) = Expr.renderAll es
  | [] => rfl
  | e :: es => by
      rw [List.map_cons, Expr.renderAll, Expr.renderAll, Expr.render_erase e,
        Expr.renderAll_erase es]

theorem Stmt.render_erase : (s : Stmt α) → s.erase.render = s.render
  | .let_ tag id value => by simp [Stmt.render, Expr.render_erase value]
  | .return_ tag value => by simp [Stmt.render, Expr.render_erase value]
  | .expr tag value => by simp [Stmt.render, Expr.render_erase value]
  | .block body => by simp [Stmt.render, Block.render_erase body]

theorem Stmt.renderAll_erase : (ss : List (Stmt α)) →
    Stmt.renderAll (ss.map Stmt.erase) = Stmt.renderAll ss
  | [] => rfl
  | [s] => Stmt.render_erase s
  | s :: s' :: ss => by
      have hmore := Stmt.renderAll_erase (s' :: ss)
      rw [List.map_cons] at hmore ⊢
      rw [List.map_cons, Stmt.renderAll_cons_cons, Stmt.renderAll_cons_cons, Stmt.render_erase s,
        Stmt.separator_erase, hmore]

theorem Block.render_erase : (b : Block α) → b.erase.render = b.render
  | .mk tag [] => rfl
  | .mk tag (s :: ss) => by
      have hstatements := Stmt.renderAll_erase (s :: ss)
      rw [List.map_cons] at hstatements
      simp [Block.render, hstatements]

end

/-- Tags do not show in the text. -/
theorem Program.render_erase (p : Program α) : p.erase.render = p.render := by
  rw [Program.render, Program.statements_erase, Stmt.renderAll_erase, Program.render]

end Monkey
