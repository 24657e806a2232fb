import Mathlib.Data.List.Basic
import Monkey.Program.Parse.Equations

/-!
# Where the nodes of a tree come from

Whatever the parse functions answer, with errors or without, every node is tagged with a
token that fits it, and the tokens of all nodes, in the order in which a text mentions
them, are among those that were taken, in the same order and none of them twice
(`parse_anchors`). Only an expression statement may share its token, with the node that its
expression begins with.
-/

namespace Monkey

/-! ## Tokens that fit -/

/-- The tag is the name that is mentioned. -/
def Ident.Fits (id : Ident Token) : Prop :=
  id.tag.kind = .ident ∧ id.tag.literal = id.name

mutual

/-- Every node of the expression is tagged with the token that makes it what it is. -/
def Expr.Fits : Expr Token → Prop
  | .ident id => id.Fits
  | .int tag value => tag.kind = .int ∧ tag.integer? = some value
  | .bool tag value => tag.kind = .keyword (if value then .true_ else .false_)
  | .unary tag op operand => UnaryOp.ofKind? tag.kind = some op ∧ operand.Fits
  | .binary tag op left right =>
      BinaryOp.ofKind? tag.kind = some op ∧ left.Fits ∧ right.Fits
  | .cond tag condition consequence none =>
      tag.kind = .keyword .if_ ∧ condition.Fits ∧ consequence.Fits
  | .cond tag condition consequence (some alternative) =>
      tag.kind = .keyword .if_ ∧ condition.Fits ∧ consequence.Fits ∧ alternative.Fits
  | .function tag params body =>
      tag.kind = .keyword .function ∧ (∀ id ∈ params, id.Fits) ∧ body.Fits
  | .call tag callee args => tag.kind = .lparen ∧ callee.Fits ∧ Expr.AllFit args

/-- `Expr.Fits` for each of several expressions. -/
def Expr.AllFit : List (Expr Token) → Prop
  | [] => True
  | e :: es => e.Fits ∧ Expr.AllFit es

/-- Every node of the statement is tagged with the token that makes it what it is. An
expression statement is nothing beside its expression. -/
def Stmt.Fits : Stmt Token → Prop
  | .let_ tag id value => tag.kind = .keyword .let_ ∧ id.Fits ∧ value.Fits
  | .return_ tag value => tag.kind = .keyword .return_ ∧ value.Fits
  | .expr _ value => value.Fits
  | .block body => body.Fits

/-- `Stmt.Fits` for each of several statements. -/
def Stmt.AllFit : List (Stmt Token) → Prop
  | [] => True
  | s :: ss => s.Fits ∧ Stmt.AllFit ss

/-- Every node of the block is tagged with the token that makes it what it is. -/
def Block.Fits : Block Token → Prop
  | .mk tag statements => tag.kind = .lbrace ∧ Stmt.AllFit statements

end

/-! ## Tokens in order -/

variable {α : Type}

mutual

/-- The tags of an expression, in the order of the text. -/
def Expr.tags : Expr α → List α
  | .ident id => [id.tag]
  | .int tag _ | .bool tag _ => [tag]
  | .unary tag _ operand => tag :: operand.tags
  | .binary tag _ left right => left.tags ++ tag :: right.tags
  | .cond tag condition consequence none => tag :: condition.tags ++ consequence.tags
  | .cond tag condition consequence (some alternative) =>
      tag :: condition.tags ++ consequence.tags ++ alternative.tags
  | .function tag params body => tag :: params.map Ident.tag ++ body.tags
  | .call tag callee args => callee.tags ++ tag :: Expr.allTags args

/-- The tags of several expressions, in the order of the text. -/
def Expr.allTags : List (Expr α) → List α
  | [] => []
  | e :: es => e.tags ++ Expr.allTags es

/-- The tags of a statement, in the order of the text. The tag of an expression statement
is left out, which is where its expression begins. -/
def Stmt.tags : Stmt α → List α
  | .let_ tag id value => tag :: id.tag :: value.tags
  | .return_ tag value => tag :: value.tags
  | .expr _ value => value.tags
  | .block body => body.tags

/-- The tags of several statements, in the order of the text. -/
def Stmt.allTags : List (Stmt α) → List α
  | [] => []
  | s :: ss => s.tags ++ Stmt.allTags ss

/-- The tags of a block, in the order of the text. -/
def Block.tags : Block α → List α
  | .mk tag statements => tag :: Stmt.allTags statements

end

/-- The tags behind a tag that is not listed twice if they begin with it. -/
def opening [DecidableEq α] (tag : α) (tags : List α) : List α :=
  if tags.head? = some tag then tags else tag :: tags

section

variable [DecidableEq α]

mutual

/-- The tags of an expression with those of its expression statements, in the order of the
text. -/
def Expr.anchors : Expr α → List α
  | .ident id => [id.tag]
  | .int tag _ | .bool tag _ => [tag]
  | .unary tag _ operand => tag :: operand.anchors
  | .binary tag _ left right => left.anchors ++ tag :: right.anchors
  | .cond tag condition consequence none => tag :: condition.anchors ++ consequence.anchors
  | .cond tag condition consequence (some alternative) =>
      tag :: condition.anchors ++ consequence.anchors ++ alternative.anchors
  | .function tag params body => tag :: params.map Ident.tag ++ body.anchors
  | .call tag callee args => callee.anchors ++ tag :: Expr.allAnchors args

/-- `Expr.anchors` of several expressions. -/
def Expr.allAnchors : List (Expr α) → List α
  | [] => []
  | e :: es => e.anchors ++ Expr.allAnchors es

/-- The tags of a statement with those of its expression statements, in the order of the
text. The tag of an expression statement stands before those of its expression, unless it is
the first of them itself. -/
def Stmt.anchors : Stmt α → List α
  | .let_ tag id value => tag :: id.tag :: value.anchors
  | .return_ tag value => tag :: value.anchors
  | .expr tag value => opening tag value.anchors
  | .block body => body.anchors

/-- `Stmt.anchors` of several statements. -/
def Stmt.allAnchors : List (Stmt α) → List α
  | [] => []
  | s :: ss => s.anchors ++ Stmt.allAnchors ss

/-- The tags of a block with those of its expression statements, in the order of the text. -/
def Block.anchors : Block α → List α
  | .mk tag statements => tag :: Stmt.allAnchors statements

end

end

@[simp] theorem Expr.allFit_iff {es : List (Expr Token)} :
    Expr.AllFit es ↔ ∀ e ∈ es, e.Fits := by
  induction es with
  | nil => simp [Expr.AllFit]
  | cons e es ih => rw [Expr.AllFit, ih, List.forall_mem_cons]

@[simp] theorem Stmt.allFit_iff {ss : List (Stmt Token)} :
    Stmt.AllFit ss ↔ ∀ s ∈ ss, s.Fits := by
  induction ss with
  | nil => simp [Stmt.AllFit]
  | cons s ss ih => rw [Stmt.AllFit, ih, List.forall_mem_cons]

@[simp] theorem Expr.allTags_eq_flatMap (es : List (Expr α)) :
    Expr.allTags es = es.flatMap Expr.tags := by
  induction es with
  | nil => rfl
  | cons e es ih => rw [Expr.allTags, ih, List.flatMap_cons]

@[simp] theorem Stmt.allTags_eq_flatMap (ss : List (Stmt α)) :
    Stmt.allTags ss = ss.flatMap Stmt.tags := by
  induction ss with
  | nil => rfl
  | cons s ss ih => rw [Stmt.allTags, ih, List.flatMap_cons]

section

variable [DecidableEq α]

@[simp] theorem Expr.allAnchors_eq_flatMap (es : List (Expr α)) :
    Expr.allAnchors es = es.flatMap Expr.anchors := by
  induction es with
  | nil => rfl
  | cons e es ih => rw [Expr.allAnchors, ih, List.flatMap_cons]

@[simp] theorem Stmt.allAnchors_eq_flatMap (ss : List (Stmt α)) :
    Stmt.allAnchors ss = ss.flatMap Stmt.anchors := by
  induction ss with
  | nil => rfl
  | cons s ss ih => rw [Stmt.allAnchors, ih, List.flatMap_cons]

theorem sublist_opening (tag : α) (tags : List α) : tags.Sublist (opening tag tags) := by
  unfold opening
  split
  · exact List.Sublist.refl tags
  · exact List.sublist_cons_self tag tags

mutual

/-- The tags of the expression statements are the only ones that are left out. -/
theorem Expr.tags_sublist_anchors (e : Expr α) : e.tags.Sublist e.anchors := by
  match e with
  | .ident _ | .int _ _ | .bool _ _ => exact List.Sublist.refl _
  | .unary t _ e => exact (Expr.tags_sublist_anchors e).cons_cons t
  | .binary t _ l r =>
      exact (Expr.tags_sublist_anchors l).append ((Expr.tags_sublist_anchors r).cons_cons t)
  | .cond t c b none =>
      exact ((Expr.tags_sublist_anchors c).cons_cons t).append (Block.tags_sublist_anchors b)
  | .cond t c b (some a) =>
      refine List.Sublist.append ?_ (Block.tags_sublist_anchors a)
      exact ((Expr.tags_sublist_anchors c).cons_cons t).append (Block.tags_sublist_anchors b)
  | .function t ids b => exact (List.Sublist.refl _).append (Block.tags_sublist_anchors b)
  | .call t f es =>
      exact (Expr.tags_sublist_anchors f).append ((Expr.allTags_sublist_anchors es).cons_cons t)
termination_by structural e

theorem Expr.allTags_sublist_anchors (es : List (Expr α)) :
    (Expr.allTags es).Sublist (Expr.allAnchors es) := by
  match es with
  | [] => exact List.Sublist.refl _
  | e :: es => exact (Expr.tags_sublist_anchors e).append (Expr.allTags_sublist_anchors es)
termination_by structural es

theorem Stmt.tags_sublist_anchors (s : Stmt α) : s.tags.Sublist s.anchors := by
  match s with
  | .let_ t id e => exact ((Expr.tags_sublist_anchors e).cons_cons id.tag).cons_cons t
  | .return_ t e => exact (Expr.tags_sublist_anchors e).cons_cons t
  | .expr t e => exact (Expr.tags_sublist_anchors e).trans (sublist_opening t e.anchors)
  | .block b => exact Block.tags_sublist_anchors b
termination_by structural s

theorem Stmt.allTags_sublist_anchors (ss : List (Stmt α)) :
    (Stmt.allTags ss).Sublist (Stmt.allAnchors ss) := by
  match ss with
  | [] => exact List.Sublist.refl _
  | s :: ss => exact (Stmt.tags_sublist_anchors s).append (Stmt.allTags_sublist_anchors ss)
termination_by structural ss

theorem Block.tags_sublist_anchors (b : Block α) : b.tags.Sublist b.anchors := by
  match b with
  | .mk t ss => exact (Stmt.allTags_sublist_anchors ss).cons_cons t
termination_by structural b

end

theorem Stmt.flatMap_tags_sublist (ss : List (Stmt α)) :
    (ss.flatMap Stmt.tags).Sublist (ss.flatMap Stmt.anchors) := by
  simpa using Stmt.allTags_sublist_anchors ss

end

mutual

/-- No node is tagged with a closing brace. -/
theorem Expr.Fits.ne_rbrace {e : Expr Token} (h : e.Fits) : ∀ t ∈ e.tags, t.kind ≠ .rbrace := by
  match e with
  | .ident id => simp [Expr.tags, h.1]
  | .int t n => simp [Expr.tags, h.1]
  | .bool t b =>
      have hkind : t.kind = .keyword (if b then .true_ else .false_) := h
      simp [Expr.tags, hkind]
  | .unary t op e =>
      obtain ⟨hop, he⟩ := h
      refine List.forall_mem_cons.mpr ⟨fun hk => ?_, he.ne_rbrace⟩
      rw [hk] at hop
      cases hop
  | .binary t op l r =>
      obtain ⟨hop, hl, hr⟩ := h
      refine List.forall_mem_append.mpr ⟨hl.ne_rbrace, ?_⟩
      refine List.forall_mem_cons.mpr ⟨fun hk => ?_, hr.ne_rbrace⟩
      rw [hk] at hop
      cases hop
  | .cond t c b none =>
      obtain ⟨hk, hc, hb⟩ := h
      refine List.forall_mem_cons.mpr ⟨by simp [hk], ?_⟩
      exact List.forall_mem_append.mpr ⟨hc.ne_rbrace, hb.ne_rbrace⟩
  | .cond t c b (some a) =>
      obtain ⟨hk, hc, hb, ha⟩ := h
      refine List.forall_mem_cons.mpr ⟨by simp [hk], ?_⟩
      refine List.forall_mem_append.mpr ⟨?_, ha.ne_rbrace⟩
      exact List.forall_mem_append.mpr ⟨hc.ne_rbrace, hb.ne_rbrace⟩
  | .function t ids b =>
      obtain ⟨hk, hids, hb⟩ := h
      refine List.forall_mem_cons.mpr ⟨by simp [hk], ?_⟩
      refine List.forall_mem_append.mpr ⟨?_, hb.ne_rbrace⟩
      refine List.forall_mem_map.mpr fun id hid => ?_
      simp [(hids id hid).1]
  | .call t f es =>
      obtain ⟨hk, hf, hes⟩ := h
      refine List.forall_mem_append.mpr ⟨hf.ne_rbrace, ?_⟩
      exact List.forall_mem_cons.mpr ⟨by simp [hk], hes.ne_rbrace⟩
termination_by structural e

theorem Expr.AllFit.ne_rbrace {es : List (Expr Token)} (h : Expr.AllFit es) :
    ∀ t ∈ Expr.allTags es, t.kind ≠ .rbrace := by
  match es with
  | [] => exact List.forall_mem_nil _
  | e :: es => exact List.forall_mem_append.mpr ⟨Expr.Fits.ne_rbrace h.1, Expr.AllFit.ne_rbrace h.2⟩
termination_by structural es

theorem Stmt.Fits.ne_rbrace {s : Stmt Token} (h : s.Fits) : ∀ t ∈ s.tags, t.kind ≠ .rbrace := by
  match s with
  | .let_ t id e =>
      obtain ⟨hk, hid, he⟩ := h
      refine List.forall_mem_cons.mpr ⟨by simp [hk], ?_⟩
      exact List.forall_mem_cons.mpr ⟨by simp [hid.1], he.ne_rbrace⟩
  | .return_ t e =>
      obtain ⟨hk, he⟩ := h
      exact List.forall_mem_cons.mpr ⟨by simp [hk], he.ne_rbrace⟩
  | .expr t e => exact Expr.Fits.ne_rbrace h
  | .block b => exact Block.Fits.ne_rbrace h
termination_by structural s

theorem Stmt.AllFit.ne_rbrace {ss : List (Stmt Token)} (h : Stmt.AllFit ss) :
    ∀ t ∈ Stmt.allTags ss, t.kind ≠ .rbrace := by
  match ss with
  | [] => exact List.forall_mem_nil _
  | s :: ss => exact List.forall_mem_append.mpr ⟨Stmt.Fits.ne_rbrace h.1, Stmt.AllFit.ne_rbrace h.2⟩
termination_by structural ss

theorem Block.Fits.ne_rbrace {b : Block Token} (h : b.Fits) :
    ∀ t ∈ b.tags, t.kind ≠ .rbrace := by
  match b with
  | .mk t ss =>
      obtain ⟨hk, hss⟩ := h
      exact List.forall_mem_cons.mpr ⟨by simp [hk], hss.ne_rbrace⟩
termination_by structural b

end

/-! ## Answers -/

namespace Reply

variable {β γ : Type} {r : Reply β} {fits : β → Prop} {tags : β → List Token}
  {before taken ts : List Token} {last t : Token}

/-- The tokens that are left are the last ones of `ts`. If there is a result, it fits, and
what it is tagged with comes, in order, from the tokens taken `before` and now. -/
def Anchors (r : Reply β) (fits : β → Prop) (tags : β → List Token)
    (before ts : List Token) : Prop :=
  r.rest <:+ ts ∧ ∀ b ∈ r.result?, fits b ∧ (tags b ++ r.rest).Sublist (before ++ ts)

theorem anchors_giveUp {error : SyntaxError} :
    (giveUp error last ts).Anchors fits tags before ts :=
  ⟨List.suffix_refl ts, by simp [giveUp]⟩

theorem anchors_done {b : β} (hfits : fits b) (htags : (tags b).Sublist before) :
    (done b last ts).Anchors fits tags before ts := by
  refine ⟨List.suffix_refl ts, ?_⟩
  simp only [done, Option.mem_some, forall_eq']
  exact ⟨hfits, htags.append (List.Sublist.refl ts)⟩

/-- The next token may be among those taken before. -/
theorem Anchors.cons (h : r.Anchors fits tags (before ++ [t]) ts) :
    r.Anchors fits tags before (t :: ts) := by
  refine ⟨h.1.trans (List.suffix_cons t ts), fun b hb => ?_⟩
  simpa using h.2 b hb

/-- The next token may be taken without a node for it. -/
theorem Anchors.skip (h : r.Anchors fits tags before ts) :
    r.Anchors fits tags before (t :: ts) := by
  refine ⟨h.1.trans (List.suffix_cons t ts), fun b hb => ?_⟩
  obtain ⟨hfits, htags⟩ := h.2 b hb
  refine ⟨hfits, htags.trans ?_⟩
  exact (List.Sublist.refl before).append (List.sublist_cons_self t ts)

/-- More tokens may have been taken before. -/
theorem Anchors.append (h : r.Anchors fits tags taken ts) :
    r.Anchors fits (fun b => before ++ tags b) (before ++ taken) ts := by
  refine ⟨h.1, fun b hb => ?_⟩
  obtain ⟨hfits, htags⟩ := h.2 b hb
  refine ⟨hfits, ?_⟩
  rw [List.append_assoc, List.append_assoc]
  exact (List.Sublist.refl before).append htags

theorem Anchors.behind (h : r.Anchors fits tags [] ts) :
    r.Anchors fits (fun b => before ++ tags b) before ts := by
  have happend : r.Anchors fits (fun b => before ++ tags b) (before ++ []) ts := h.append
  rwa [List.append_nil] at happend

theorem Anchors.andThen {f : β → Token → List Token → Reply γ} {fits' : γ → Prop}
    {tags' : γ → List Token} (h : r.Anchors fits tags before ts)
    (hf : ∀ b last rest, rest <:+ ts → fits b →
      (f b last rest).Anchors fits' tags' (tags b) rest) :
    (r.andThen f).Anchors fits' tags' before ts := by
  obtain ⟨result?, errors, last, rest⟩ := r
  obtain ⟨hrest, hresult⟩ := h
  cases result? with
  | none => exact ⟨hrest, by simp [Reply.andThen]⟩
  | some b =>
      obtain ⟨hfits, htags⟩ := hresult b rfl
      obtain ⟨hrest', hresult'⟩ := hf b last rest hrest hfits
      refine ⟨hrest'.trans hrest, fun c hc => ?_⟩
      obtain ⟨hfits', htags'⟩ := hresult' c hc
      exact ⟨hfits', htags'.trans htags⟩

/-- The next token may be that of an expression statement, also if it is not that of a node of
the expression. -/
theorem Anchors.opening (h : r.Anchors fits tags [t] ts) :
    r.Anchors fits (fun b => opening t (tags b)) [t] ts := by
  refine ⟨h.1, fun b hb => ?_⟩
  obtain ⟨hfits, htags⟩ := h.2 b hb
  refine ⟨hfits, ?_⟩
  dsimp only [Monkey.opening]
  split
  next => exact htags
  next hne =>
    refine List.Sublist.cons_cons t ?_
    cases hhead : tags b with
    | nil => exact h.1.sublist
    | cons u us =>
        rw [hhead] at htags hne
        exact List.Sublist.of_cons_of_ne (fun heq => hne (congrArg some heq)) htags

/-- The same, with no result for a list without elements. -/
theorem Anchors.toList (h : r.Anchors fits tags [] ts) :
    (∀ b ∈ r.result?.toList, fits b) ∧
      (r.result?.toList.flatMap tags ++ r.rest).Sublist ts := by
  obtain ⟨hrest, hresult⟩ := h
  cases hb : r.result? with
  | none => exact ⟨by simp, by simpa using hrest.sublist⟩
  | some b => simpa using hresult b hb

end Reply

/-! ## Parse functions -/

namespace Parse

open Reply

variable {eof last t : Token} {ts before : List Token}

theorem expect_anchors {kind : Kind} :
    (expect eof kind last ts).1.Anchors (·.kind = kind) (fun t => [t]) [] ts := by
  cases ts with
  | nil => exact anchors_giveUp
  | cons t ts =>
      rw [expect_cons]
      split
      next ht =>
        refine Anchors.cons ?_
        exact anchors_done ht (List.Sublist.refl _)
      next => exact anchors_giveUp

/-- A mark that has to stand somewhere needs no node. -/
theorem expect_skips {kind : Kind} :
    (expect eof kind last ts).1.Anchors (fun _ => True) (fun _ => []) [] ts := by
  cases ts with
  | nil => exact anchors_giveUp
  | cons t ts =>
      rw [expect_cons]
      split
      next => exact (anchors_done trivial (List.Sublist.refl _)).skip
      next => exact anchors_giveUp

theorem finish_anchors {s : Stmt Token} (hfits : s.Fits) (htags : s.anchors.Sublist before) :
    (finish s last ts).1.Anchors Stmt.Fits Stmt.anchors before ts := by
  cases ts with
  | nil => exact anchors_done hfits htags
  | cons t ts =>
      rw [finish_cons]
      split
      next => exact (anchors_done hfits htags).skip
      next => exact anchors_done hfits htags

mutual

theorem someParams_anchors (last : Token) (ts : List Token) :
    (someParams eof last ts).1.Anchors (∀ id ∈ ·, Ident.Fits id) (List.map Ident.tag) [] ts := by
  rw [someParams_eq]
  refine expect_anchors.andThen fun name last rest hrest hname => ?_
  have hlen := hrest.length_le
  refine (moreParams_anchors last rest).behind.andThen fun ids last rest _ hids => ?_
  refine anchors_done ?_ (by simp)
  exact List.forall_mem_cons.mpr ⟨⟨hname, rfl⟩, hids⟩
termination_by 2 * ts.length + 1

theorem moreParams_anchors (last : Token) (ts : List Token) :
    (moreParams eof last ts).1.Anchors (∀ id ∈ ·, Ident.Fits id) (List.map Ident.tag) [] ts := by
  cases ts with
  | nil =>
      rw [moreParams_nil]
      exact anchors_giveUp
  | cons t ts =>
      rw [moreParams_cons]
      split
      next => exact (someParams_anchors t ts).skip
      next =>
        refine expect_skips.andThen fun _ last rest _ _ => ?_
        exact anchors_done (by simp) (by simp)
termination_by 2 * ts.length

end

theorem params_anchors :
    (params eof last ts).1.Anchors (∀ id ∈ ·, Ident.Fits id) (List.map Ident.tag) [] ts := by
  cases ts with
  | nil =>
      rw [params_nil]
      exact someParams_anchors last []
  | cons t ts =>
      rw [params_cons]
      split
      next => exact (anchors_done (by simp) (by simp)).skip
      next => exact someParams_anchors last (t :: ts)

/-! ## Expressions and statements -/

/-- The other branch of a condition fits, if there is one. -/
def AlternativeFits (b : Option (Block Token)) : Prop :=
  ∀ b' ∈ b, b'.Fits

/-- `Block.anchors` of the other branch of a condition, if there is one. -/
def alternativeAnchors (b : Option (Block Token)) : List Token :=
  b.elim [] Block.anchors

mutual

theorem expressionAt_anchors (p : Precedence) (t : Token) (ts : List Token) :
    (expressionAt eof p t ts).1.Anchors Expr.Fits Expr.anchors [t] ts := by
  rw [expressionAt_eq]
  refine (operand_anchors t ts).andThen fun left last rest hrest hleft => ?_
  have hlen := hrest.length_le
  exact operators_anchors p left last rest hleft
termination_by 5 * (ts.length + 1) + 1

theorem expression_anchors (p : Precedence) (ts : List Token) :
    (expression eof p ts).1.Anchors Expr.Fits Expr.anchors [] ts := by
  cases ts with
  | nil =>
      rw [expression_nil]
      exact anchors_giveUp
  | cons t ts =>
      rw [expression_cons]
      exact (expressionAt_anchors p t ts).cons
termination_by 5 * ts.length + 2

theorem operand_anchors (t : Token) (ts : List Token) :
    (operand eof t ts).1.Anchors Expr.Fits Expr.anchors [t] ts := by
  cases hk : t.kind with
  | ident =>
      rw [operand_ident hk]
      exact anchors_done ⟨hk, rfl⟩ (List.Sublist.refl _)
  | int =>
      rw [operand_int hk]
      split
      next hn => exact anchors_done ⟨hk, hn⟩ (List.Sublist.refl _)
      next => exact anchors_giveUp
  | bang | minus =>
      obtain ⟨op, hop⟩ : ∃ op, UnaryOp.ofKind? t.kind = some op := ⟨_, by rw [hk]; rfl⟩
      rw [operand_unary hop]
      refine (expression_anchors .unary ts).behind.andThen fun e last rest _ he => ?_
      exact anchors_done ⟨hop, he⟩ (List.Sublist.refl _)
  | lparen =>
      rw [operand_lparen hk]
      refine (expression_anchors .lowest ts).behind.andThen fun e last rest _ he => ?_
      refine expect_skips.behind.andThen fun _ last rest _ _ => ?_
      exact anchors_done he (by simp)
  | keyword w =>
      cases w with
      | true_ =>
          rw [operand_true hk]
          exact anchors_done hk (List.Sublist.refl _)
      | false_ =>
          rw [operand_false hk]
          exact anchors_done hk (List.Sublist.refl _)
      | if_ =>
          rw [operand_if hk]
          refine expect_skips.behind.andThen fun _ last rest hrest _ => ?_
          have hlen₁ := hrest.length_le
          refine (expression_anchors .lowest rest).behind.andThen fun c last rest hrest hc => ?_
          have hlen₂ := hrest.length_le
          refine expect_skips.behind.andThen fun _ last rest hrest _ => ?_
          have hlen₃ := hrest.length_le
          refine expect_anchors.behind.andThen fun brace _ rest hrest hbrace => ?_
          have hlen₄ := hrest.length_le
          refine (block_anchors brace rest hbrace).append.andThen fun b last rest hrest hb => ?_
          have hlen₅ := hrest.length_le
          refine (alternative_anchors last rest).behind.andThen fun a last rest _ ha => ?_
          cases a with
          | none => exact anchors_done ⟨hk, hc, hb⟩ (by simp [Expr.anchors, alternativeAnchors])
          | some a =>
              exact anchors_done ⟨hk, hc, hb, ha a rfl⟩ (by simp [Expr.anchors, alternativeAnchors])
      | function =>
          rw [operand_function hk]
          refine expect_skips.behind.andThen fun _ last rest hrest _ => ?_
          have hlen₁ := hrest.length_le
          refine params_anchors.behind.andThen fun ids last rest hrest hids => ?_
          have hlen₂ := hrest.length_le
          refine expect_anchors.behind.andThen fun brace _ rest hrest hbrace => ?_
          have hlen₃ := hrest.length_le
          refine (block_anchors brace rest hbrace).append.andThen fun b last rest hrest hb => ?_
          exact anchors_done ⟨hk, hids, hb⟩ (by simp [Expr.anchors])
      | let_ | else_ | return_ =>
          rw [operand_other (by simp [Kind.OpensExpr, hk])]
          exact anchors_giveUp
  | _ =>
      rw [operand_other (by simp [Kind.OpensExpr, hk])]
      exact anchors_giveUp
termination_by 5 * (ts.length + 1)

theorem alternative_anchors (last : Token) (ts : List Token) :
    (alternative eof last ts).1.Anchors AlternativeFits alternativeAnchors [] ts := by
  cases ts with
  | nil =>
      rw [alternative_nil]
      exact anchors_done (by simp [AlternativeFits]) (List.Sublist.refl _)
  | cons t ts =>
      rw [alternative_cons]
      split
      next =>
        refine Anchors.skip ?_
        refine expect_anchors.andThen fun brace _ rest hrest hbrace => ?_
        have hlen := hrest.length_le
        refine (block_anchors brace rest hbrace).andThen fun b last rest _ hb => ?_
        refine anchors_done ?_ (List.Sublist.refl _)
        simpa [AlternativeFits] using hb
      next => exact anchors_done (by simp [AlternativeFits]) (List.Sublist.refl _)
termination_by 5 * ts.length

theorem operators_anchors (p : Precedence) (left : Expr Token) (last : Token)
    (ts : List Token) (hleft : left.Fits) :
    (operators eof p left last ts).1.Anchors Expr.Fits Expr.anchors left.anchors ts := by
  match ts with
  | [] =>
      rw [operators_nil]
      exact anchors_done hleft (List.Sublist.refl _)
  | t :: ts =>
      by_cases hparen : t.kind = .lparen
      · rw [operators_lparen hparen]
        refine Anchors.cons ?_
        refine (args_anchors ts).behind.andThen fun es last rest hrest hes => ?_
        have hlen := hrest.length_le
        have hcall : (Expr.call t left es).Fits :=
          ⟨hparen, hleft, Expr.allFit_iff.mpr hes⟩
        simpa [Expr.anchors] using operators_anchors p (.call t left es) last rest hcall
      cases hop : BinaryOp.ofKind? t.kind with
      | none =>
          rw [operators_other hparen hop]
          exact anchors_done hleft (List.Sublist.refl _)
      | some op =>
          rw [operators_binary hop]
          split
          next =>
            refine Anchors.cons ?_
            refine (expression_anchors op.precedence ts).behind.andThen
              fun right last rest hrest hright => ?_
            have hlen := hrest.length_le
            have hbinary : (Expr.binary t op left right).Fits := ⟨hop, hleft, hright⟩
            simpa [Expr.anchors] using
              operators_anchors p (.binary t op left right) last rest hbinary
          next => exact anchors_done hleft (List.Sublist.refl _)
termination_by 5 * ts.length

theorem args_anchors (ts : List Token) :
    (args eof ts).1.Anchors (∀ e ∈ ·, Expr.Fits e) (List.flatMap Expr.anchors) [] ts := by
  cases ts with
  | nil =>
      rw [args_nil]
      exact anchors_giveUp
  | cons t ts =>
      rw [args_cons]
      split
      next => exact (anchors_done (by simp) (by simp)).skip
      next =>
        refine Anchors.cons ?_
        refine (expressionAt_anchors .lowest t ts).andThen fun e last rest hrest he => ?_
        have hlen := hrest.length_le
        refine (moreArgs_anchors last rest).behind.andThen fun es last rest _ hes => ?_
        exact anchors_done (List.forall_mem_cons.mpr ⟨he, hes⟩) (by simp)
termination_by 5 * ts.length + 2

theorem moreArgs_anchors (last : Token) (ts : List Token) :
    (moreArgs eof last ts).1.Anchors (∀ e ∈ ·, Expr.Fits e) (List.flatMap Expr.anchors) [] ts := by
  cases ts with
  | nil =>
      rw [moreArgs_nil]
      exact anchors_giveUp
  | cons t ts =>
      rw [moreArgs_cons]
      split
      next =>
        refine Anchors.skip ?_
        refine (expression_anchors .lowest ts).andThen fun e last rest hrest he => ?_
        have hlen := hrest.length_le
        refine (moreArgs_anchors last rest).behind.andThen fun es last rest _ hes => ?_
        exact anchors_done (List.forall_mem_cons.mpr ⟨he, hes⟩) (by simp)
      next =>
        refine expect_skips.andThen fun _ last rest _ _ => ?_
        exact anchors_done (by simp) (by simp)
termination_by 5 * ts.length

theorem block_anchors (brace : Token) (ts : List Token) (hbrace : brace.kind = .lbrace) :
    (block eof brace ts).1.Anchors Block.Fits Block.anchors [brace] ts := by
  rw [block_eq]
  refine (blockStatements_anchors ts).behind.andThen fun ss last rest _ hss => ?_
  exact anchors_done ⟨hbrace, Stmt.allFit_iff.mpr hss⟩ (by simp [Block.anchors])
termination_by 5 * ts.length + 4

theorem blockStatements_anchors (ts : List Token) :
    (blockStatements eof ts).1.Anchors (∀ s ∈ ·, Stmt.Fits s) (List.flatMap Stmt.anchors) []
      ts := by
  cases ts with
  | nil =>
      rw [blockStatements_nil]
      exact anchors_giveUp
  | cons t ts =>
      by_cases ht : t.kind = .rbrace
      · rw [blockStatements_rbrace ht]
        exact (anchors_done (by simp) (by simp)).skip
      have hlen := (statement eof t ts).2
      have hfirst : (statement eof t ts).1.Anchors Stmt.Fits Stmt.anchors [] (t :: ts) :=
        (statement_anchors t ts).cons
      obtain ⟨hfits, htags⟩ := hfirst.toList
      rw [blockStatements_cons ht]
      dsimp only
      split
      next => exact ⟨hfirst.1, by simpa using hfirst.1.sublist⟩
      next =>
        have hmore := blockStatements_anchors (statement eof t ts).1.rest
        refine ⟨hmore.1.trans hfirst.1, fun ss hss => ?_⟩
        obtain ⟨more, hresult, rfl⟩ := Option.map_eq_some_iff.mp hss
        obtain ⟨hfits', htags'⟩ := hmore.2 more hresult
        refine ⟨List.forall_mem_append.mpr ⟨hfits, hfits'⟩, ?_⟩
        rw [List.flatMap_append, List.append_assoc]
        exact ((List.Sublist.refl _).append htags').trans htags
termination_by 5 * ts.length + 3

theorem statement_anchors (t : Token) (ts : List Token) :
    (statement eof t ts).1.Anchors Stmt.Fits Stmt.anchors [t] ts := by
  by_cases hlet : t.kind = .keyword .let_
  · rw [statement_let hlet]
    refine expect_anchors.behind.andThen fun name last rest hrest hname => ?_
    have hlen₁ := hrest.length_le
    refine expect_skips.behind.andThen fun _ _ rest hrest _ => ?_
    have hlen₂ := hrest.length_le
    refine (expression_anchors .lowest rest).behind.andThen fun e last rest _ he => ?_
    exact finish_anchors ⟨hlet, ⟨hname, rfl⟩, he⟩ (by simp [Stmt.anchors])
  by_cases hreturn : t.kind = .keyword .return_
  · rw [statement_return hreturn]
    refine (expression_anchors .lowest ts).behind.andThen fun e last rest _ he => ?_
    exact finish_anchors ⟨hreturn, he⟩ (by simp [Stmt.anchors])
  by_cases hbrace : t.kind = .lbrace
  · rw [statement_lbrace hbrace]
    refine (block_anchors t ts hbrace).andThen fun b last rest _ hb => ?_
    exact anchors_done hb (List.Sublist.refl _)
  · rw [statement_expr hlet hreturn hbrace]
    refine (expressionAt_anchors .lowest t ts).opening.andThen fun e last rest _ he => ?_
    exact finish_anchors he (List.Sublist.refl _)
termination_by 5 * (ts.length + 1) + 2

end

theorem statements_anchors : (ts : List Token) →
    (∀ s ∈ (statements eof ts).1, s.Fits) ∧
      ((statements eof ts).1.flatMap Stmt.anchors).Sublist ts
  | [] => by simp [statements_nil]
  | t :: ts => by
      have hlen := (statement eof t ts).2
      -- a statement without a result has no nodes, and what it took is gone all the same
      have hfirst : (statement eof t ts).1.Anchors Stmt.Fits Stmt.anchors [] (t :: ts) :=
        (statement_anchors t ts).cons
      obtain ⟨hfits, htags⟩ := hfirst.toList
      obtain ⟨hfits', htags'⟩ := statements_anchors (statement eof t ts).1.rest
      rw [statements_cons]
      refine ⟨List.forall_mem_append.mpr ⟨hfits, hfits'⟩, ?_⟩
      rw [List.flatMap_append]
      exact ((List.Sublist.refl _).append htags').trans htags
termination_by ts => ts.length

end Parse

/-- Every node of what a text is read as is tagged with a token that fits it, and these
tokens, in the order of the nodes, are tokens of the text in its order. -/
theorem parse_anchors (source : String) :
    (∀ s ∈ (parse source).program.statements, s.Fits) ∧
      ((parse source).program.statements.flatMap Stmt.anchors).Sublist (tokenize source) :=
  Parse.statements_anchors (tokenize source)

end Monkey
