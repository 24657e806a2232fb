import Monkey.Proofs.Run.Visits

/-!
# What a run writes

A run binds names in its own frame and in no other one that was there before, and only
names of the `let` statements that belong to the code itself: those in function bodies
are for the frames of calls, which are new. So a call leaves all frames as they were.
Nothing is ever unbound, and no frame is moved into another one
(`writes_own_frame`).
-/

namespace Monkey

variable {α : Type}

mutual

/-- The names of the `let` statements in the expression, function bodies apart. -/
def Expr.letNames : Expr α → List String
  | .ident _ | .int _ _ | .bool _ _ | .function _ _ _ => []
  | .unary _ _ operand => operand.letNames
  | .binary _ _ left right => left.letNames ++ right.letNames
  | .cond _ condition consequence none => condition.letNames ++ consequence.letNames
  | .cond _ condition consequence (some alternative) =>
      condition.letNames ++ (consequence.letNames ++ alternative.letNames)
  | .call _ callee args => callee.letNames ++ Expr.allLetNames args

/-- `Expr.letNames` for several expressions. -/
def Expr.allLetNames : List (Expr α) → List String
  | [] => []
  | e :: es => e.letNames ++ Expr.allLetNames es

/-- The names of the `let` statements in the statement, itself included. -/
def Stmt.letNames : Stmt α → List String
  | .let_ _ id value => id.name :: value.letNames
  | .return_ _ value | .expr _ value => value.letNames
  | .block body => body.letNames

/-- `Stmt.letNames` for several statements. -/
def Stmt.allLetNames : List (Stmt α) → List String
  | [] => []
  | s :: ss => s.letNames ++ Stmt.allLetNames ss

/-- The names of the `let` statements in the block. -/
def Block.letNames : Block α → List String
  | .mk _ statements => Stmt.allLetNames statements

end

/-- The names of the `let` statements in the program, function bodies apart. -/
def Program.letNames (p : Program α) : List String :=
  Stmt.allLetNames p.statements

/-- The names that the task can bind in its frame. A call has a frame of its own. -/
def Task.letNames : Task → List String
  | .expr e => e.letNames
  | .args es => Expr.allLetNames es
  | .stmt s => s.letNames
  | .stmts _ ss => Stmt.allLetNames ss
  | .block b => b.letNames
  | .call _ _ => []

/-- The second frame binds all that the first one binds, and what is not among the names
to the same value. -/
structure Frame.Extends (f : Frame) (names : List String) (f' : Frame) : Prop where
  outer : f'.outer = f.outer
  bound : ∀ m, (f.get? m).isSome → (f'.get? m).isSome
  other : ∀ m, m ∉ names → f'.get? m = f.get? m

/-- The frames of the first store are in the second one just as they were, but for those
names in the one frame. -/
def Store.Writes (s : Store) (env : FrameId) (names : List String) (s' : Store) : Prop :=
  ∀ i f, s.frames[i]? = some f →
    ∃ f', s'.frames[i]? = some f' ∧ f.Extends names f' ∧ (i ≠ env → f' = f)

variable {names names' : List String} {env i : FrameId} {s s' s₁ s₂ : Store} {f f' f'' : Frame}

namespace Frame.Extends

theorem refl : f.Extends names f :=
  ⟨rfl, fun _ h => h, fun _ _ => rfl⟩

theorem trans (h : f.Extends names f') (h' : f'.Extends names f'') : f.Extends names f'' :=
  ⟨h'.outer.trans h.outer, fun m hm => h'.bound m (h.bound m hm),
    fun m hm => (h'.other m hm).trans (h.other m hm)⟩

theorem mono (h : f.Extends names f') (hsub : names ⊆ names') : f.Extends names' f' :=
  ⟨h.outer, h.bound, fun m hm => h.other m fun hmem => hm (hsub hmem)⟩

theorem set {name : String} {v : Value} (hname : name ∈ names) :
    f.Extends names (f.set name v) := by
  refine ⟨rfl, fun m hm => ?_, fun m hm => ?_⟩
  · rw [get?_set]
    split
    · rfl
    · exact hm
  · have hne : m ≠ name := fun heq => hm (heq ▸ hname)
    rw [get?_set, if_neg hne]

end Frame.Extends

namespace Store.Writes

theorem refl : s.Writes env names s :=
  fun _ f hf => ⟨f, hf, .refl, fun _ => rfl⟩

theorem trans (h : s.Writes env names s₁) (h' : s₁.Writes env names s₂) :
    s.Writes env names s₂ := by
  intro i f hf
  obtain ⟨f₁, hf₁, hext, heq⟩ := h i f hf
  obtain ⟨f₂, hf₂, hext', heq'⟩ := h' i f₁ hf₁
  exact ⟨f₂, hf₂, hext.trans hext', fun hi => (heq' hi).trans (heq hi)⟩

theorem mono (h : s.Writes env names s') (hsub : names ⊆ names') : s.Writes env names' s' := by
  intro i f hf
  obtain ⟨f', hf', hext, heq⟩ := h i f hf
  exact ⟨f', hf', hext.mono hsub, heq⟩

theorem of_frames_eq (h : s.Writes env names s₁) (heq : s₂.frames = s₁.frames) :
    s.Writes env names s₂ := by
  unfold Writes
  rw [heq]
  exact h

theorem size_le (h : s.Writes env names s') : s.frames.size ≤ s'.frames.size := by
  refine Nat.le_of_not_lt fun hlt => ?_
  obtain ⟨f', hf', -⟩ := h _ _ (Array.getElem?_eq_getElem hlt)
  exact absurd hf' (by simp)

theorem set {name : String} {v : Value} (hname : name ∈ names) :
    s.Writes env names (s.set env name v) := by
  intro i f hf
  rw [getElem?_set, hf]
  split
  next heq => exact ⟨_, rfl, .set hname, fun hne => absurd heq.symm hne⟩
  next => exact ⟨f, rfl, .refl, fun _ => rfl⟩

theorem newFrame {outer : Option FrameId} : s.Writes env names (s.newFrame outer).2 := by
  intro i f hf
  have hne : i ≠ s.frames.size := (Array.getElem?_eq_some_iff.mp hf).1.ne
  refine ⟨f, ?_, .refl, fun _ => rfl⟩
  rw [getElem?_newFrame, if_neg hne, hf]

theorem bindAll {bs : List (String × Value)} :
    s.Writes env (bs.map Prod.fst) (s.bindAll env bs) := by
  induction bs generalizing s with
  | nil => exact .refl
  | cons b bs ih =>
      refine .trans (.set List.mem_cons_self) (ih.mono ?_)
      exact List.subset_cons_self _ _

/-- What is written to a frame that is made later is not written to the first store. -/
theorem trans_later {env' : FrameId} (h : s.Writes env names s₁)
    (h' : s₁.Writes env' names' s₂) (hlater : s.frames.size ≤ env') :
    s.Writes env names s₂ := by
  intro i f hf
  obtain ⟨f₁, hf₁, hext, heq⟩ := h i f hf
  obtain ⟨f₂, hf₂, -, heq'⟩ := h' i f₁ hf₁
  have hi : i < env' := Nat.lt_of_lt_of_le (Array.getElem?_eq_some_iff.mp hf).1 hlater
  obtain rfl := heq' hi.ne
  exact ⟨_, hf₂, hext, heq⟩

/-- The frame of a call, with the parameters bound, is no frame of the store. -/
theorem enclose {outer : Option FrameId} {bs : List (String × Value)} :
    s.Writes env names ((s.newFrame outer).2.bindAll (s.newFrame outer).1 bs) :=
  newFrame.trans_later bindAll (Nat.le_refl _)

/-- A frame that is not written to is there as it was. -/
theorem getElem?_eq (h : s.Writes env names s') (hi : i < s.frames.size) (hne : i ≠ env) :
    s'.frames[i]? = s.frames[i]? := by
  have hf := Array.getElem?_eq_getElem hi
  obtain ⟨f', hf', -, heq⟩ := h i _ hf
  rw [hf', hf, heq hne]

end Store.Writes

/-! ## Runs -/

variable {φ ψ : Task} {o : Outcome}

theorem Task.Heads.letNames_subset (h : φ.Heads ψ) : φ.letNames ⊆ ψ.letNames := by
  cases h with
  | @condition _ _ _ a => cases a <;> exact List.subset_append_left _ _
  | operand | returned => exact List.Subset.refl _
  | left | callee | arg => exact List.subset_append_left _ _
  | bound => exact List.subset_cons_self _ _

theorem Expr.consequence_letNames_subset {t : α} {c : Expr α} {b : Block α}
    {a : Option (Block α)} : b.letNames ⊆ (Expr.cond t c b a).letNames := by
  cases a with
  | none => exact List.subset_append_right _ _
  | some a => exact List.Subset.trans (List.subset_append_left _ _) (List.subset_append_right _ _)

theorem Expr.alternative_letNames_subset (t : α) {c : Expr α} {b a : Block α} :
    a.letNames ⊆ (Expr.cond t c b (some a)).letNames :=
  List.Subset.trans (List.subset_append_right _ _) (List.subset_append_right _ _)

/-- A run writes to its own frame only, and there only what its `let` statements bind. -/
theorem Runs.writes (h : Runs env φ s o s') : s.Writes env φ.letNames s' := by
  induction h with
  | error hheads _ _ ih => exact ih.mono hheads.letNames_subset
  | ident | unbound | int | bool | function | noArgs | done | wrongCount | notAFunction =>
      exact .of_frames_eq .refl rfl
  | unary _ _ hop ih => exact ih.of_frames_eq (givesScalar_evalUnary _ _ _ hop).2
  | binary _ _ _ _ hop ihl ihr =>
      refine .of_frames_eq (.trans (ihl.mono ?_) (ihr.mono ?_))
        (givesScalar_evalBinary _ _ _ hop).2
      · exact List.subset_append_left _ _
      · exact List.subset_append_right _ _
  | rightError _ _ _ _ ih₁ ih₂ | argsError _ _ _ ih₁ ih₂ | laterError _ _ _ ih₁ ih₂
  | moreArgs _ _ _ ih₁ ih₂ | next _ _ _ ih₁ ih₂ =>
      refine .trans (ih₁.mono ?_) (ih₂.mono ?_)
      · exact List.subset_append_left _ _
      · exact List.subset_append_right _ _
  | then_ _ _ _ _ ihc ihb =>
      refine .trans (ihc.mono Task.Heads.condition.letNames_subset) (ihb.mono ?_)
      exact Expr.consequence_letNames_subset
  | else_ _ _ _ _ ihc iha =>
      refine .trans (ihc.mono Task.Heads.condition.letNames_subset) (iha.mono ?_)
      exact Expr.alternative_letNames_subset ()
  | noElse _ _ _ ihc => exact ihc.mono Task.Heads.condition.letNames_subset
  | call _ _ _ _ ihf ihes ihcall =>
      refine .trans (ihf.mono ?_) (.trans (ihes.mono ?_) (ihcall.mono (List.nil_subset _)))
      · exact List.subset_append_left _ _
      · exact List.subset_append_right _ _
  | let_ _ _ ih =>
      exact .trans (ih.mono (List.subset_cons_self _ _)) (.set List.mem_cons_self)
  | return_ _ _ ih => exact ih.of_frames_eq rfl
  | expr _ ih | inner _ ih | block _ ih => exact ih
  | stop _ _ ih => exact ih.mono (List.subset_append_left _ _)
  | apply _ _ ih => exact Store.Writes.enclose.trans_later ih (Nat.le_refl _)

/-! ## Stores on the way -/

namespace Moment

variable {m m' : Moment} {t : Store}

/-- What the first evaluation can bind in its frame covers what the second one writes to
frames that were there at the beginning of the first one. -/
def Covers (m m' : Moment) : Prop :=
  m.env = m'.env ∧ m'.task.letNames ⊆ m.task.letNames ∨ m.store.frames.size ≤ m'.env

theorem Covers.writes (h : m.Covers m')
    (hm : m.store.Writes m.env m.task.letNames m'.store)
    (hm' : m'.store.Writes m'.env m'.task.letNames t) :
    m.store.Writes m.env m.task.letNames t := by
  obtain ⟨henv, hsub⟩ | hlater := h
  · rw [← henv] at hm'
    exact hm.trans (hm'.mono hsub)
  · exact hm.trans_later hm' hlater

theorem Enters.writes (h : m.Enters m') :
    m.store.Writes m.env m.task.letNames m'.store ∧ m.Covers m' := by
  cases h with
  | head hheads => exact ⟨.refl, .inl ⟨rfl, hheads.letNames_subset⟩⟩
  | right hrun | args hrun | later hrun | next hrun =>
      exact ⟨hrun.writes.mono (List.subset_append_left _ _),
        .inl ⟨rfl, List.subset_append_right _ _⟩⟩
  | then_ hrun =>
      exact ⟨hrun.writes.mono Task.Heads.condition.letNames_subset,
        .inl ⟨rfl, Expr.consequence_letNames_subset⟩⟩
  | else_ hrun =>
      exact ⟨hrun.writes.mono Task.Heads.condition.letNames_subset,
        .inl ⟨rfl, Expr.alternative_letNames_subset ()⟩⟩
  | call hf _ hes =>
      refine ⟨.trans (hf.writes.mono ?_) (hes.writes.mono ?_), .inl ⟨rfl, List.nil_subset _⟩⟩
      · exact List.subset_append_left _ _
      · exact List.subset_append_right _ _
  | expr | inner | block => exact ⟨.refl, .inl ⟨rfl, List.Subset.refl _⟩⟩
  | stmt => exact ⟨.refl, .inl ⟨rfl, List.subset_append_left _ _⟩⟩
  | body => exact ⟨.enclose, .inr (Nat.le_refl _)⟩

theorem Visits.writes (h : m.Visits m') :
    m.store.Writes m.env m.task.letNames m'.store ∧ m.Covers m' := by
  induction h with
  | refl => exact ⟨.refl, .inl ⟨rfl, List.Subset.refl _⟩⟩
  | tail _ henters ih =>
      obtain ⟨hwrites, hcovers⟩ := ih
      obtain ⟨hwrites', hcovers'⟩ := henters.writes
      refine ⟨hcovers.writes hwrites hwrites', ?_⟩
      obtain ⟨henv', hsub'⟩ | hlater' := hcovers'
      · unfold Covers
        rw [← henv']
        exact hcovers.imp_left fun h => ⟨h.1, List.Subset.trans hsub' h.2⟩
      · exact .inr (Nat.le_trans hwrites.size_le hlater')

/-- In every store on the way nothing but the frame of the evaluation has changed. -/
theorem Passes.writes (h : m.Passes t) : m.store.Writes m.env m.task.letNames t := by
  cases h with
  | start hvisits => exact hvisits.writes.1
  | stop hvisits hrun =>
      obtain ⟨hwrites, hcovers⟩ := hvisits.writes
      exact hcovers.writes hwrites hrun.writes
  | binding hvisits =>
      obtain ⟨hwrites, hcovers⟩ := hvisits.writes
      exact hcovers.writes hwrites .enclose

end Moment

/-! ## What is evaluated in a frame -/

/-- Whatever is evaluated in a frame: in all stores on the way and in the last one, the
frames that were there before are as they were, except that names of its own `let`
statements may be bound anew in this frame. A call changes none of them. -/
theorem writes_own_frame {env : FrameId} {s : Store} :
    (∀ φ t, Moment.Passes ⟨env, φ, s⟩ t → s.Writes env φ.letNames t) ∧
    (∀ depth p v s', evaluate depth p env s = some (v, s') → s.Writes env p.letNames s') ∧
    (∀ depth st v s', evalStmt (apply depth) env st s = some (v, s') →
      s.Writes env st.letNames s') ∧
    (∀ depth e v s', evalExpr (apply depth) env e s = some (v, s') →
      s.Writes env e.letNames s') ∧
    ∀ depth f vs v s', apply depth f vs s = some (v, s') →
      ∀ i < s.frames.size, s'.frames[i]? = s.frames[i]? := by
  refine ⟨fun φ t ht => ht.writes, ?_, ?_, ?_, ?_⟩
  · intro depth p v s' h
    obtain ⟨w, hw, -⟩ := evaluate_eq_some_iff.mp ⟨depth, h⟩
    exact hw.writes
  · intro depth st v s' h
    exact (runs_of_evalStmt (appliesLikeRuns_apply depth) h).writes
  · intro depth e v s' h
    exact (runs_of_evalExpr (appliesLikeRuns_apply depth) h).writes
  · intro depth f vs v s' h i hi
    -- a call does not look at the frame it is made in: it might be one that is not there
    have hrun := appliesLikeRuns_apply depth s.frames.size f vs s v s' h
    exact hrun.writes.getElem?_eq hi hi.ne

/-- `let z = fn(x) { let z = 5; 6 }(1);` -/
def letInBody : Program Unit :=
  ⟨[.let_ () ⟨(), "z"⟩ (.call ()
    (.function () [⟨(), "x"⟩] ⟨(), [.let_ () ⟨(), "z"⟩ (.int () 5), .expr () (.int () 6)]⟩)
    [.int () 1])]⟩

/-- The name is bound in the frame of the program and in that of the call, and the
parameter in the latter only. -/
theorem letInBody_writes_outer_name :
    ∃ v s', evaluate 1 letInBody 0 Store.single = some (v, s') ∧
      Store.single.Writes 0 ["z"] s' :=
  have h : evaluate 1 letInBody 0 Store.single = some (_, _) := rfl
  ⟨_, _, h, writes_own_frame.2.1 1 letInBody _ _ h⟩

end Monkey
