import Monkey.Proofs.Run.Order

/-!
# Where functions come from

A function is made by the evaluation of a function literal, and is only passed on from there:
it is bound to names and parameters, kept in the frames that other functions were made in,
wrapped by a `return` and unwrapped again. So every function that is met on the way of an
evaluation was there at its beginning, or a literal on the way has made it
(`Runs.functionsFrom`, `Moment.Meets.functionsFrom`). The literal makes no second one, and no
other literal makes one with the same number (`Moment.Makes.eq_of_ordered`).
-/

namespace Monkey

/-- The functions that the value is or wraps satisfy the predicate. -/
def Value.FunctionsFrom (O : Closure → Prop) : Value → Prop
  | closure c => O c
  | returned _ result => result.FunctionsFrom O
  | _ => True

/-- The functions that are bound in the store satisfy the predicate. -/
def Store.FunctionsFrom (s : Store) (O : Closure → Prop) : Prop :=
  s.Region (fun _ => True) (Value.FunctionsFrom O)

/-- The functions in the outcome satisfy the predicate. -/
def Outcome.FunctionsFrom (O : Closure → Prop) : Outcome → Prop
  | .value v => v.FunctionsFrom O
  | .values vs => ∀ v ∈ vs, v.FunctionsFrom O

/-- The functions that the task has been given satisfy the predicate. -/
def Task.FunctionsFrom (O : Closure → Prop) : Task → Prop
  | .stmts last _ => last.FunctionsFrom O
  | .call f vs => f.FunctionsFrom O ∧ ∀ v ∈ vs, v.FunctionsFrom O
  | _ => True

namespace Moment

/-- The evaluation is that of a function literal, and makes the function. -/
def Makes (m : Moment) (c : Closure) : Prop :=
  ∃ t ids b, m.task = .expr (.function t ids b) ∧
    c = ⟨m.store.nextObject, ids.map Ident.name, b, m.env⟩

/-- The functions that are made on the way satisfy the predicate. -/
def MakesOnly (m : Moment) (O : Closure → Prop) : Prop :=
  ∀ l c, m.Visits l → l.Makes c → O c

end Moment

variable {O : Closure → Prop} {v : Value} {s s' : Store} {m m' l l' : Moment} {c d : Closure}

theorem Value.FunctionsFrom.unwrap (h : v.FunctionsFrom O) : v.unwrap.FunctionsFrom O := by
  cases v <;> exact h

theorem Store.functionsFrom_single : single.FunctionsFrom O :=
  ⟨fun _ _ => trivial, fun _ _ _ _ _ _ => trivial,
    fun _ _ _ _ hf hb => absurd hb (not_mem_bindings_single hf)⟩

/-- In a new frame, functions are bound that satisfy the predicate. -/
theorem Store.FunctionsFrom.openFrame {env : FrameId} {bs : List (String × Value)}
    (h : s.FunctionsFrom O) (hbs : ∀ b ∈ bs, b.2.FunctionsFrom O) :
    (s.openFrame env bs).FunctionsFrom O :=
  (h.newFrame trivial).bindAll hbs

theorem Task.Heads.functionsFrom {φ ψ : Task} (h : φ.Heads ψ) : φ.FunctionsFrom O := by
  cases h <;> trivial

theorem Eval.Plain.functionsFrom {x : Eval Value} (h : x.Plain) (hx : x s = some (v, s'))
    (hs : s.FunctionsFrom O) : s'.FunctionsFrom O ∧ v.FunctionsFrom O := by
  cases h with
  | bool =>
      cases hx
      exact ⟨hs, trivial⟩
  | int | error =>
      cases hx
      exact ⟨hs.spend, trivial⟩

/-! ## Literals -/

namespace Moment

/-- The evaluation of a function literal has no parts. -/
theorem Makes.eq_of_visits (h : l.Makes c) (hvisits : l.Visits l') : l' = l := by
  obtain rfl | ⟨m, henters, -⟩ := Relation.ReflTransGen.cases_head hvisits
  · rfl
  obtain ⟨env, φ, s⟩ := l
  obtain ⟨t, ids, b, rfl, -⟩ := h
  cases henters with
  | head hheads => cases hheads

/-- The evaluation of a function literal gives the number of the function away. -/
theorem Makes.id_lt (h : l.Makes c) (h' : l'.Makes d) (hbefore : l.EndsBefore l') :
    c.id < d.id := by
  obtain ⟨env, φ, s⟩ := l
  obtain ⟨t, ids, b, rfl, rfl⟩ := h
  obtain ⟨t', ids', b', -, rfl⟩ := h'
  obtain ⟨o, s', hrun, hle⟩ := hbefore
  cases hrun with
  | error hheads => cases hheads
  | function => exact hle

/-- Functions with the same number were made by the same evaluation. -/
theorem Makes.eq_of_ordered (h : l.Makes c) (h' : l'.Makes d) (hid : c.id = d.id)
    (hordered : l.Visits l' ∨ l'.Visits l ∨ l.EndsBefore l' ∨ l'.EndsBefore l) : l' = l := by
  obtain hvisits | hvisits | hbefore | hbehind := hordered
  · exact h.eq_of_visits hvisits
  · exact (h'.eq_of_visits hvisits).symm
  · exact absurd hid (h.id_lt h' hbefore).ne
  · exact absurd hid (h'.id_lt h hbehind).ne'

theorem Makes.unique (h : l.Makes c) (h' : l.Makes d) : d = c := by
  obtain ⟨t, ids, b, htask, rfl⟩ := h
  obtain ⟨t', ids', b', htask', rfl⟩ := h'
  rw [htask] at htask'
  cases htask'
  rfl

theorem MakesOnly.enters (h : m.MakesOnly O) (henters : m.Enters m') : m'.MakesOnly O :=
  fun l c hl => h l c (.head henters hl)

theorem MakesOnly.visits (h : m.MakesOnly O) (hvisits : m.Visits m') : m'.MakesOnly O :=
  fun l c hl => h l c (hvisits.trans hl)

end Moment

/-! ## Runs -/

/-- A run passes functions on that were there, or that literals on the way have made. -/
theorem Runs.functionsFrom {env : FrameId} {φ : Task} {o : Outcome} (h : Runs env φ s o s')
    (hO : Moment.MakesOnly ⟨env, φ, s⟩ O) (hs : s.FunctionsFrom O) (hφ : φ.FunctionsFrom O) :
    s'.FunctionsFrom O ∧ o.FunctionsFrom O := by
  induction h with
  | error hheads _ _ ih => exact ih (hO.enters (.head hheads)) hs hheads.functionsFrom
  | ident hname => exact ⟨hs, hs.get? trivial hname⟩
  | unbound | int | wrongCount | notAFunction => exact ⟨hs.spend, trivial⟩
  | bool => exact ⟨hs, trivial⟩
  | function => exact ⟨hs.spend, hO _ _ .refl ⟨_, _, _, rfl, rfl⟩⟩
  | unary _ _ hop ih =>
      obtain ⟨hs₁, -⟩ := ih (hO.enters (.head .operand)) hs trivial
      exact (plain_evalUnary _ _).functionsFrom hop hs₁
  | rightError hl hlerror _ _ ihl ihr =>
      obtain ⟨hs₁, -⟩ := ihl (hO.enters (.head .left)) hs trivial
      exact ihr (hO.enters (.right hl hlerror)) hs₁ trivial
  | binary hl hlerror _ _ hop ihl ihr =>
      obtain ⟨hs₁, -⟩ := ihl (hO.enters (.head .left)) hs trivial
      obtain ⟨hs₂, -⟩ := ihr (hO.enters (.right hl hlerror)) hs₁ trivial
      exact (plain_evalBinary _ _ _).functionsFrom hop hs₂
  | then_ hc hcerror htruthy _ ihc ihb =>
      obtain ⟨hs₁, -⟩ := ihc (hO.enters (.head .condition)) hs trivial
      exact ihb (hO.enters (.then_ hc hcerror htruthy)) hs₁ trivial
  | else_ hc hcerror hfalse _ ihc ihb =>
      obtain ⟨hs₁, -⟩ := ihc (hO.enters (.head .condition)) hs trivial
      exact ihb (hO.enters (.else_ hc hcerror hfalse)) hs₁ trivial
  | noElse _ _ _ ih =>
      obtain ⟨hs₁, -⟩ := ih (hO.enters (.head .condition)) hs trivial
      exact ⟨hs₁, trivial⟩
  | argsError hf hferror _ ihf ihes =>
      obtain ⟨hs₁, -⟩ := ihf (hO.enters (.head .callee)) hs trivial
      exact ihes (hO.enters (.args hf hferror)) hs₁ trivial
  | call hf hferror hes _ ihf ihes ihcall =>
      obtain ⟨hs₁, hv⟩ := ihf (hO.enters (.head .callee)) hs trivial
      obtain ⟨hs₂, hvs⟩ := ihes (hO.enters (.args hf hferror)) hs₁ trivial
      exact ihcall (hO.enters (.call hf hferror hes)) hs₂ ⟨hv, hvs⟩
  | noArgs => exact ⟨hs, List.forall_mem_nil _⟩
  | laterError he heerror _ ihe ihes =>
      obtain ⟨hs₁, -⟩ := ihe (hO.enters (.head .arg)) hs trivial
      exact ihes (hO.enters (.later he heerror)) hs₁ trivial
  | moreArgs he heerror _ ihe ihes =>
      obtain ⟨hs₁, hv⟩ := ihe (hO.enters (.head .arg)) hs trivial
      obtain ⟨hs₂, hvs⟩ := ihes (hO.enters (.later he heerror)) hs₁ trivial
      exact ⟨hs₂, List.forall_mem_cons.mpr ⟨hv, hvs⟩⟩
  | let_ _ _ ih =>
      obtain ⟨hs₁, hv⟩ := ih (hO.enters (.head .bound)) hs trivial
      exact ⟨hs₁.set hv, trivial⟩
  | return_ _ _ ih =>
      obtain ⟨hs₁, hv⟩ := ih (hO.enters (.head .returned)) hs trivial
      exact ⟨hs₁.spend, hv⟩
  | expr _ ih => exact ih (hO.enters .expr) hs trivial
  | inner _ ih => exact ih (hO.enters .inner) hs trivial
  | done => exact ⟨hs, hφ⟩
  | stop _ _ ih => exact ih (hO.enters .stmt) hs trivial
  | next hst hgoes _ ihst ihss =>
      obtain ⟨hs₁, hv⟩ := ihst (hO.enters .stmt) hs trivial
      exact ihss (hO.enters (.next hst hgoes)) hs₁ hv
  | block _ ih => exact ih (hO.enters .block) hs trivial
  | apply hcount _ ih =>
      obtain ⟨hs₁, hv⟩ := ih (hO.enters (.body hcount))
        (hs.openFrame fun b hb => hφ.2 b.2 (List.of_mem_zip hb).2) trivial
      exact ⟨hs₁, Value.FunctionsFrom.unwrap hv⟩

/-! ## On the way -/

namespace Moment

/-- The value is met on the way: it is bound in a store that is passed, a part of the evaluation
results in it, or it is wrapped in a value that is met. -/
inductive Meets (m : Moment) : Value → Prop where
  | bound {t : Store} {i : FrameId} {f : Frame} {b : String × Value} : m.Passes t →
      t.frames[i]? = some f → b ∈ f.bindings → m.Meets b.2
  | result {m' v t} : m.Visits m' → Runs m'.env m'.task m'.store (.value v) t → m.Meets v
  | wrapped {i v} : m.Meets (.returned i v) → m.Meets v

/-- The functions that are there when the evaluation begins satisfy the predicate. -/
structure FunctionsFrom (m : Moment) (O : Closure → Prop) : Prop where
  store : m.store.FunctionsFrom O
  task : m.task.FunctionsFrom O

theorem Enters.functionsFrom (h : m.Enters m') (hO : m.MakesOnly O) (hm : m.FunctionsFrom O) :
    m'.FunctionsFrom O := by
  cases h with
  | head hheads => exact ⟨hm.store, hheads.functionsFrom⟩
  | expr | inner | stmt | block => exact ⟨hm.store, trivial⟩
  | right hl =>
      exact ⟨(hl.functionsFrom (hO.enters (.head .left)) hm.store trivial).1, trivial⟩
  | then_ hc | else_ hc =>
      exact ⟨(hc.functionsFrom (hO.enters (.head .condition)) hm.store trivial).1, trivial⟩
  | args hf =>
      exact ⟨(hf.functionsFrom (hO.enters (.head .callee)) hm.store trivial).1, trivial⟩
  | call hf hferror hes =>
      obtain ⟨hs₁, hv⟩ := hf.functionsFrom (hO.enters (.head .callee)) hm.store trivial
      obtain ⟨hs₂, hvs⟩ := hes.functionsFrom (hO.enters (.args hf hferror)) hs₁ trivial
      exact ⟨hs₂, hv, hvs⟩
  | later he =>
      exact ⟨(he.functionsFrom (hO.enters (.head .arg)) hm.store trivial).1, trivial⟩
  | next hst =>
      obtain ⟨hs₁, hv⟩ := hst.functionsFrom (hO.enters .stmt) hm.store trivial
      exact ⟨hs₁, hv⟩
  | body =>
      exact ⟨hm.store.openFrame fun b hb => hm.task.2 b.2 (List.of_mem_zip hb).2, trivial⟩

theorem Visits.functionsFrom (h : m.Visits m') (hO : m.MakesOnly O) (hm : m.FunctionsFrom O) :
    m'.FunctionsFrom O := by
  induction h with
  | refl => exact hm
  | tail hvisits henters ih => exact henters.functionsFrom (hO.visits hvisits) ih

theorem Passes.functionsFrom {t : Store} (h : m.Passes t) (hO : m.MakesOnly O)
    (hm : m.FunctionsFrom O) : t.FunctionsFrom O := by
  cases h with
  | start hvisits => exact (hvisits.functionsFrom hO hm).store
  | stop hvisits hrun =>
      have hm' := hvisits.functionsFrom hO hm
      exact (hrun.functionsFrom (hO.visits hvisits) hm'.store hm'.task).1
  | @binding env c vs s bs bs' hvisits hcount hzip =>
      have hm' := hvisits.functionsFrom hO hm
      refine hm'.store.openFrame fun b hb => hm'.task.2 b.2 ?_
      exact (List.of_mem_zip (hzip ▸ List.mem_append_left bs' hb)).2

/-- A function that is met on the way was there at the beginning, or was made on the way. -/
theorem Meets.functionsFrom (h : m.Meets v) (hO : m.MakesOnly O) (hm : m.FunctionsFrom O) :
    v.FunctionsFrom O := by
  induction h with
  | bound hpasses hf hb => exact (hpasses.functionsFrom hO hm).bound _ _ _ trivial hf hb
  | result hvisits hrun =>
      have hm' := hvisits.functionsFrom hO hm
      exact (hrun.functionsFrom (hO.visits hvisits) hm'.store hm'.task).2
  | wrapped _ ih => exact ih

end Moment

end Monkey
