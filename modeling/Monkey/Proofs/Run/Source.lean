import Monkey.Program.Equality
import Monkey.Proofs.Program.Regroup
import Monkey.Proofs.Run.Origin

/-!
# Functions as they are shown

A function is shown as a function literal, with the statements of its body on lines of their own.
Every function that is met when a program is run that was read from a text consists of what can
be written down (`Moment.Meets.writable`), and so what is shown can be read again: as a function
literal with the same parameters (`parse_inspect`). Its body is the same if and only if no
expression statement in it runs into the statement below it (`shown_function_is_read`).
-/

namespace Monkey

/-- What the function consists of can be written down. -/
structure Closure.Writable (c : Closure) : Prop where
  params : ∀ name ∈ c.params, IsName name
  body : c.body.Writable

/-- What the task evaluates can be written down, and what it has been given too. -/
def Task.Writable : Task → Prop
  | .expr e => e.Writable
  | .args es => Expr.AllWritable es
  | .stmt s => s.Writable
  | .stmts last ss => last.FunctionsFrom Closure.Writable ∧ Stmt.AllWritable ss
  | .block b => b.Writable
  | .call f vs =>
      f.FunctionsFrom Closure.Writable ∧ ∀ v ∈ vs, v.FunctionsFrom Closure.Writable

variable {φ ψ : Task} {s s' : Store} {v : Value} {m m' : Moment} {c : Closure}

/-! ## Runs -/

theorem Task.Heads.writable (h : φ.Heads ψ) (hψ : ψ.Writable) : φ.Writable := by
  cases h with
  | operand | returned => simpa only [Task.Writable, Expr.Writable, Stmt.Writable] using hψ
  | @condition _ _ _ a => cases a <;> exact hψ.1
  | left | callee | arg => exact hψ.1
  | bound => exact hψ.2

theorem Expr.Writable.function {ids : List (Ident Unit)} {b : Block Unit} {i : ObjectId}
    {env : FrameId} (h : (Expr.function () ids b).Writable) :
    Closure.Writable ⟨i, ids.map Ident.name, b, env⟩ := by
  rw [Expr.Writable] at h
  refine ⟨fun name hname => ?_, h.2⟩
  obtain ⟨id, hid, rfl⟩ := List.mem_map.mp hname
  exact h.1 id hid

/-- What a run of what can be written down binds and results in can be written down. -/
theorem Runs.writable {env : FrameId} {o : Outcome} (h : Runs env φ s o s')
    (hs : s.FunctionsFrom Closure.Writable) (hφ : φ.Writable) :
    s'.FunctionsFrom Closure.Writable ∧ o.FunctionsFrom Closure.Writable := by
  induction h with
  | error hheads _ _ ih => exact ih hs (hheads.writable hφ)
  | ident hname => exact ⟨hs, hs.get? trivial hname⟩
  | unbound | int | wrongCount | notAFunction => exact ⟨hs.spend, trivial⟩
  | bool => exact ⟨hs, trivial⟩
  | function => exact ⟨hs.spend, Expr.Writable.function hφ⟩
  | unary _ _ hop ih =>
      obtain ⟨hs₁, -⟩ := ih hs (Task.Heads.operand.writable hφ)
      exact (plain_evalUnary _ _).functionsFrom hop hs₁
  | rightError _ _ _ _ ihl ihr =>
      obtain ⟨hs₁, -⟩ := ihl hs hφ.1
      exact ihr hs₁ hφ.2
  | binary _ _ _ _ hop ihl ihr =>
      obtain ⟨hs₁, -⟩ := ihl hs hφ.1
      obtain ⟨hs₂, -⟩ := ihr hs₁ hφ.2
      exact (plain_evalBinary _ _ _).functionsFrom hop hs₂
  | @then_ _ _ _ _ a _ _ _ _ _ _ _ _ _ ihc ihb =>
      obtain ⟨hs₁, -⟩ := ihc hs (Task.Heads.condition.writable hφ)
      cases a with
      | none => exact ihb hs₁ hφ.2
      | some a => exact ihb hs₁ hφ.2.1
  | else_ _ _ _ _ ihc iha =>
      obtain ⟨hs₁, -⟩ := ihc hs hφ.1
      exact iha hs₁ hφ.2.2
  | noElse _ _ _ ih => exact ⟨(ih hs hφ.1).1, trivial⟩
  | argsError _ _ _ ihf ihes =>
      obtain ⟨hs₁, -⟩ := ihf hs hφ.1
      exact ihes hs₁ hφ.2
  | call _ _ _ _ ihf ihes ihcall =>
      obtain ⟨hs₁, hf⟩ := ihf hs hφ.1
      obtain ⟨hs₂, hvs⟩ := ihes hs₁ hφ.2
      exact ihcall hs₂ ⟨hf, hvs⟩
  | noArgs => exact ⟨hs, List.forall_mem_nil _⟩
  | laterError _ _ _ ihe ihes =>
      obtain ⟨hs₁, -⟩ := ihe hs hφ.1
      exact ihes hs₁ hφ.2
  | moreArgs _ _ _ ihe ihes =>
      obtain ⟨hs₁, hv⟩ := ihe hs hφ.1
      obtain ⟨hs₂, hvs⟩ := ihes hs₁ hφ.2
      exact ⟨hs₂, List.forall_mem_cons.mpr ⟨hv, hvs⟩⟩
  | let_ _ _ ih =>
      obtain ⟨hs₁, hv⟩ := ih hs hφ.2
      exact ⟨hs₁.set hv, trivial⟩
  | return_ _ _ ih =>
      obtain ⟨hs₁, hv⟩ := ih hs (Task.Heads.returned.writable hφ)
      exact ⟨hs₁.spend, hv⟩
  | expr _ ih | inner _ ih => exact ih hs (by simpa only [Task.Writable, Stmt.Writable] using hφ)
  | done => exact ⟨hs, hφ.1⟩
  | stop _ _ ih => exact ih hs hφ.2.1
  | next _ _ _ ihst ihss =>
      obtain ⟨hs₁, hv⟩ := ihst hs hφ.2.1
      exact ihss hs₁ ⟨hv, hφ.2.2⟩
  | block _ ih => exact ih hs ⟨trivial, hφ⟩
  | apply _ _ ih =>
      obtain ⟨hs₁, hv⟩ := ih (hs.openFrame fun b hb => hφ.2 b.2 (List.of_mem_zip hb).2) hφ.1.body
      exact ⟨hs₁, Value.FunctionsFrom.unwrap hv⟩

namespace Moment

/-- What is evaluated can be written down, and what is bound at its beginning too. -/
structure Writable (m : Moment) : Prop where
  store : m.store.FunctionsFrom Closure.Writable
  task : m.task.Writable

theorem Enters.writable (h : m.Enters m') (hm : m.Writable) : m'.Writable := by
  obtain ⟨hs, hφ⟩ := hm
  cases h with
  | head hheads => exact ⟨hs, hheads.writable hφ⟩
  | expr | inner => exact ⟨hs, by simpa only [Task.Writable, Stmt.Writable] using hφ⟩
  | stmt => exact ⟨hs, hφ.2.1⟩
  | block => exact ⟨hs, trivial, hφ⟩
  | right hl => exact ⟨(hl.writable hs hφ.1).1, hφ.2⟩
  | args hf | later hf => exact ⟨(hf.writable hs hφ.1).1, hφ.2⟩
  | @then_ _ _ _ _ a _ _ _ hc =>
      have hs₁ := (hc.writable hs (Task.Heads.condition.writable hφ)).1
      cases a with
      | none => exact ⟨hs₁, hφ.2⟩
      | some a => exact ⟨hs₁, hφ.2.1⟩
  | else_ hc => exact ⟨(hc.writable hs hφ.1).1, hφ.2.2⟩
  | call hf _ hes =>
      obtain ⟨hs₁, hv⟩ := hf.writable hs hφ.1
      obtain ⟨hs₂, hvs⟩ := hes.writable hs₁ hφ.2
      exact ⟨hs₂, hv, hvs⟩
  | next hst =>
      obtain ⟨hs₁, hv⟩ := hst.writable hs hφ.2.1
      exact ⟨hs₁, hv, hφ.2.2⟩
  | body => exact ⟨hs.openFrame fun b hb => hφ.2 b.2 (List.of_mem_zip hb).2, hφ.1.body⟩

theorem Visits.writable (h : m.Visits m') (hm : m.Writable) : m'.Writable := by
  induction h with
  | refl => exact hm
  | tail _ henters ih => exact henters.writable ih

/-- Every function that is made on the way can be written down. -/
theorem Writable.makesOnly (hm : m.Writable) : m.MakesOnly Closure.Writable := by
  intro l c hvisits hmakes
  obtain ⟨t, ids, b, htask, rfl⟩ := hmakes
  have htask' := (hvisits.writable hm).task
  rw [htask] at htask'
  exact Expr.Writable.function htask'

theorem Writable.functionsFrom (hm : m.Writable) : m.FunctionsFrom Closure.Writable := by
  obtain ⟨env, φ, s⟩ := m
  refine ⟨hm.store, ?_⟩
  match φ, hm.task with
  | .stmts _ _, hφ => exact hφ.1
  | .call _ _, hφ => exact hφ
  | .expr _, _ | .args _, _ | .stmt _, _ | .block _, _ => trivial

/-- Every function that is met on the way can be written down. -/
theorem Meets.writable (h : m.Meets (.closure c)) (hm : m.Writable) : c.Writable :=
  h.functionsFrom hm.makesOnly hm.functionsFrom

end Moment

/-! ## Reading what is shown -/

open Grammar in
/-- What is shown of a function is read as a function literal, with the statements of its body
regrouped. -/
theorem parse_inspect (h : c.Writable) :
    (parse c.inspect).errors = [] ∧
      (parse c.inspect).program.erase =
        ⟨[.expr () (.function () (c.params.map (Ident.mk ()))
          ⟨(), regroup c.body.statements⟩)]⟩ := by
  obtain ⟨i, params, ⟨_, statements⟩, env⟩ := c
  have hstatements : ∀ s ∈ statements, s.Writable := Stmt.allWritable_iff.mp h.body
  have hparams : ∀ id ∈ params.map (Ident.mk ()), id.Writable := by
    intro id hid
    obtain ⟨name, hname, rfl⟩ := List.mem_map.mp hid
    exact h.params name hname
  have hnames : (params.map (Ident.mk ())).map Ident.name = params := by
    simp [Function.comp_def]
  have hfunction := spells_function (spells_params hparams) (spells_linesInBraces hstatements)
  rw [hnames] at hfunction
  have htext : (Closure.inspect ⟨i, params, ⟨(), statements⟩, env⟩).toList =
      Keyword.function.spelling.toList ++ '(' :: (((", ".intercalate params).toList ++ [')']) ++
        ' ' :: '{' :: '\n' ::
          (("\n".intercalate (statements.map Stmt.render)).toList ++ ['\n', '}'])) := by
    simp [Closure.inspect, Keyword.spelling, Block.statements]
  refine parse_of_derives ?_
  change Derives true _ (scan 0 (Closure.inspect _).toList)
  rw [htext]
  have hnext := Derives.next (.unclosed (.expr (hfunction.loosest 0))) .done
    fun _ _ => not_continues_nil
  rwa [List.append_nil] at hnext

/-- Whatever text is read as a program and run, with nothing bound at first but functions that
can be written down: every function that is met on the way is shown as a text that is read
without errors, as one function literal with the same parameters. Its body is the same exactly
if no expression statement in it runs into the statement below it. -/
theorem shown_function_is_read (source : String) {env : FrameId}
    (hs : s.FunctionsFrom Closure.Writable)
    (hc : Moment.Meets ⟨env, .stmts .null (parse source).program.erase.statements, s⟩
      (.closure c)) :
    (parse c.inspect).errors = [] ∧
      ∃ b, (parse c.inspect).program.erase =
          ⟨[.expr () (.function () (c.params.map (Ident.mk ())) b)]⟩ ∧
        b.statements = regroup c.body.statements ∧
        (b = c.body ↔ c.body.statements.IsChain fun s s' => ¬s.RunsInto s') := by
  have hstatements : Stmt.AllWritable (parse source).program.erase.statements := by
    rw [Program.statements_erase]
    exact (Stmt.allWritable_iff.mpr (parse_writable source)).erase
  have hwritable : c.Writable := hc.writable ⟨hs, trivial, hstatements⟩
  obtain ⟨herrors, hprogram⟩ := parse_inspect hwritable
  refine ⟨herrors, _, hprogram, rfl, ?_⟩
  rw [← regroup_eq_self_iff]
  obtain ⟨i, params, ⟨_, statements⟩, env⟩ := c
  simp [Block.statements]

/-- A text that is read as a function literal results in a function. -/
theorem meets_of_parse {source : String} {ids : List (Ident Unit)} {b : Block Unit}
    (h : (parse source).program.erase = ⟨[.expr () (.function () ids b)]⟩) :
    Moment.Meets ⟨0, .stmts .null (parse source).program.erase.statements, .single⟩
      (.closure ⟨0, ids.map Ident.name, b, 0⟩) := by
  have hrun : Runs 0 (.stmts .null (parse source).program.erase.statements) .single
      (.value (.closure ⟨0, ids.map Ident.name, b, 0⟩)) Store.single.spend := by
    rw [h]
    exact .next (.expr .function) nofun .done
  exact .result .refl hrun

/-- `fn(x) { x; let y = x; -y }` -/
def letBetween : Closure :=
  ⟨0, ["x"], ⟨(), [.expr () (.ident ⟨(), "x"⟩), .let_ () ⟨(), "y"⟩ (.ident ⟨(), "x"⟩),
    .expr () (.unary () .negate (.ident ⟨(), "y"⟩))]⟩, 0⟩

theorem letBetween_is_read :
    Store.single.FunctionsFrom Closure.Writable ∧
      Moment.Meets ⟨0, .stmts .null
          (parse "fn(x) \x7b x; let y = x; -y \x7d").program.erase.statements, .single⟩
        (.closure letBetween) ∧
      (parse letBetween.inspect).errors = [] ∧
      (parse letBetween.inspect).program.erase =
        ⟨[.expr () (.function () [⟨(), "x"⟩] letBetween.body)]⟩ := by
  have hsource : (parse "fn(x) \x7b x; let y = x; -y \x7d").program.erase =
      ⟨[.expr () (.function () [⟨(), "x"⟩] letBetween.body)]⟩ := by
    decide +kernel
  have hc := meets_of_parse hsource
  obtain ⟨herrors, b, hprogram, -, hsame⟩ :=
    shown_function_is_read _ Store.functionsFrom_single hc
  have hchain : letBetween.body.statements.IsChain fun s s' => ¬s.RunsInto s' := by
    simp [letBetween, Block.statements, Stmt.RunsInto]
  rw [hsame.mpr hchain] at hprogram
  exact ⟨Store.functionsFrom_single, hc, herrors, hprogram⟩

/-- `fn() { 1; -2 }` -/
def oneThenMinusTwo : Closure :=
  ⟨0, [], ⟨(), [.expr () (.int () 1), .expr () (.unary () .negate (.int () 2))]⟩, 0⟩

/-- The second statement is shown in parentheses below the first one, and is read as what the
first one is called with. -/
theorem minusTwo_is_read_as_argument :
    Store.single.FunctionsFrom Closure.Writable ∧
      Moment.Meets ⟨0, .stmts .null
          (parse "fn() \x7b 1; -2 \x7d").program.erase.statements, .single⟩
        (.closure oneThenMinusTwo) ∧
      oneThenMinusTwo.inspect = "fn() \x7b\n1\n(-2)\n\x7d" ∧
      (parse oneThenMinusTwo.inspect).program.erase ≠
        ⟨[.expr () (.function () [] oneThenMinusTwo.body)]⟩ := by
  have hsource : (parse "fn() \x7b 1; -2 \x7d").program.erase =
      ⟨[.expr () (.function () [] oneThenMinusTwo.body)]⟩ := by
    decide +kernel
  have hread : (parse oneThenMinusTwo.inspect).program.erase =
      ⟨[.expr () (.function () []
        ⟨(), [.expr () (.call () (.int () 1) [.unary () .negate (.int () 2)])]⟩)]⟩ := by
    decide +kernel
  refine ⟨Store.functionsFrom_single, meets_of_parse hsource, by decide, ?_⟩
  rw [hread]
  simp [oneThenMinusTwo]

end Monkey
