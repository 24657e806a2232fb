import Monkey.Proofs.Run.Adequacy

/-!
# Where wrappers come from

A value gets a wrapper in a `return` statement and in no other place, keeps it on the
way out of statements, blocks and branches and under a name, and loses one on the way out
of a call. `Leaves` follows this way through a program, and counts exactly the wrappers
that the value of a run has (`Runs.leaves_iff`).
-/

namespace Monkey

/-- How many wrappers there are around the value. -/
def Value.wrappers : Value → Nat
  | returned _ result => result.wrappers + 1
  | _ => 0

theorem Value.wrappers_unwrap (v : Value) : v.unwrap.wrappers = v.wrappers - 1 := by
  cases v <;> rfl

theorem Value.type_eq_returnValue_iff {v : Value} :
    v.type = .returnValue ↔ 0 < v.wrappers := by
  cases v <;> simp [Value.type, Value.wrappers]

theorem Value.not_isError_of_wrappers_pos {v : Value} (h : 0 < v.wrappers) : ¬v.isError := by
  cases v with
  | returned id w => exact Bool.false_ne_true
  | _ => exact absurd h (Nat.lt_irrefl 0)

theorem Value.stops_of_wrappers_pos {v : Value} (h : 0 < v.wrappers) : v.stops := by
  cases v with
  | returned id w => rfl
  | _ => exact absurd h (Nat.lt_irrefl 0)

theorem Value.wrappers_eq_zero_of_isError {v : Value} (h : v.isError) : v.wrappers = 0 := by
  cases v with
  | error id fault => rfl
  | _ => exact absurd h Bool.false_ne_true

theorem Value.wrappers_eq_zero_of_not_stops {v : Value} (h : ¬v.stops) : v.wrappers = 0 := by
  cases v with
  | returned id w => exact absurd rfl h
  | _ => rfl

/-- No frame binds a wrapped value. -/
def Store.Unwrapped (s : Store) : Prop :=
  ∀ (i : FrameId) (f : Frame) (b : String × Value), s.frames[i]? = some f →
    b ∈ f.bindings → b.2.type ≠ .returnValue

theorem Store.unwrapped_single : single.Unwrapped :=
  fun _ _ _ hf hb => absurd hb (not_mem_bindings_single hf)

/-- The task comes to a value that is no error, and that has been through `n` more `return`
statements than ends of calls, or was bound to a name with the wrappers that are missing. -/
inductive Leaves : Nat → FrameId → Task → Store → Prop where
  | plain {env φ s v s'} : Runs env φ s (.value v) s' → ¬v.isError → Leaves 0 env φ s
  | name {n env id s v} : s.get? env id.name = some v → n < v.wrappers →
      Leaves (n + 1) env (.expr (.ident id)) s
  | then_ {n env t c b a s v s₁} : Runs env (.expr c) s (.value v) s₁ → ¬v.isError →
      v.isTruthy → Leaves (n + 1) env (.block b) s₁ →
      Leaves (n + 1) env (.expr (.cond t c b a)) s
  | else_ {n env t c b a s v s₁} : Runs env (.expr c) s (.value v) s₁ → ¬v.isError →
      ¬v.isTruthy → Leaves (n + 1) env (.block a) s₁ →
      Leaves (n + 1) env (.expr (.cond t c b (some a))) s
  | call {n env t f es s v s₁ vs s₂} : Runs env (.expr f) s (.value v) s₁ → ¬v.isError →
      Runs env (.args es) s₁ (.values vs) s₂ → Leaves (n + 1) env (.call v vs) s₂ →
      Leaves (n + 1) env (.expr (.call t f es)) s
  | return_ {n env t e s} : Leaves n env (.expr e) s →
      Leaves (n + 1) env (.stmt (.return_ t e)) s
  | expr {n env t e s} : Leaves (n + 1) env (.expr e) s →
      Leaves (n + 1) env (.stmt (.expr t e)) s
  | inner {n env b s} : Leaves (n + 1) env (.block b) s →
      Leaves (n + 1) env (.stmt (.block b)) s
  | stop {n env last st ss s} : Leaves (n + 1) env (.stmt st) s →
      Leaves (n + 1) env (.stmts last (st :: ss)) s
  | next {n env last st ss s v s₁} : Runs env (.stmt st) s (.value v) s₁ → ¬v.stops →
      Leaves (n + 1) env (.stmts v ss) s₁ → Leaves (n + 1) env (.stmts last (st :: ss)) s
  | block {n env t ss s} : Leaves (n + 1) env (.stmts .null ss) s →
      Leaves (n + 1) env (.block (.mk t ss)) s
  | apply {n env c vs s} : c.params.length = vs.length →
      Leaves (n + 2) (s.newFrame (some c.env)).1 (.block c.body)
        ((s.newFrame (some c.env)).2.bindAll (s.newFrame (some c.env)).1
          (c.params.zip vs)) →
      Leaves (n + 1) env (.call (.closure c) vs) s

/-- A statement goes on behind one that did not stop. -/
def Task.Continues : Task → Prop
  | .stmts last _ => ¬last.stops
  | _ => True

variable {n : Nat} {env : FrameId} {φ : Task} {s s' : Store} {v : Value}

/-- The way of a value leads to a value with all the wrappers from the way. -/
theorem Leaves.exists_runs (h : Leaves n env φ s) :
    ∃ v s', Runs env φ s (.value v) s' ∧ ¬v.isError ∧ n ≤ v.wrappers := by
  induction h with
  | plain hrun hv => exact ⟨_, _, hrun, hv, Nat.zero_le _⟩
  | name hname hlt =>
      have hpos : 0 < _ := Nat.lt_of_le_of_lt (Nat.zero_le _) hlt
      exact ⟨_, _, .ident hname, Value.not_isError_of_wrappers_pos hpos, hlt⟩
  | then_ hc hv htruthy _ ih =>
      obtain ⟨w, s', hb, hw, hle⟩ := ih
      exact ⟨w, s', .then_ hc hv htruthy hb, hw, hle⟩
  | else_ hc hv htruthy _ ih =>
      obtain ⟨w, s', ha, hw, hle⟩ := ih
      exact ⟨w, s', .else_ hc hv htruthy ha, hw, hle⟩
  | call hf hv hes _ ih =>
      obtain ⟨w, s', hcall, hw, hle⟩ := ih
      exact ⟨w, s', .call hf hv hes hcall, hw, hle⟩
  | return_ _ ih =>
      obtain ⟨v, s', he, hv, hle⟩ := ih
      exact ⟨_, _, .return_ he hv, Bool.false_ne_true, Nat.succ_le_succ hle⟩
  | expr _ ih =>
      obtain ⟨v, s', he, hv, hle⟩ := ih
      exact ⟨v, s', .expr he, hv, hle⟩
  | inner _ ih =>
      obtain ⟨v, s', hb, hv, hle⟩ := ih
      exact ⟨v, s', .inner hb, hv, hle⟩
  | stop _ ih =>
      obtain ⟨v, s', hst, hv, hle⟩ := ih
      have hstops := Value.stops_of_wrappers_pos (Nat.lt_of_lt_of_le (Nat.succ_pos _) hle)
      exact ⟨v, s', .stop hst hstops, hv, hle⟩
  | next hst hstops _ ih =>
      obtain ⟨w, s', hss, hw, hle⟩ := ih
      exact ⟨w, s', .next hst hstops hss, hw, hle⟩
  | block _ ih =>
      obtain ⟨v, s', hss, hv, hle⟩ := ih
      exact ⟨v, s', .block hss, hv, hle⟩
  | apply hcount _ ih =>
      -- one of the wrappers is lost here, and at least one is left: the value is no error
      obtain ⟨v, s', hbody, -, hle⟩ := ih
      have hwrappers : _ ≤ v.unwrap.wrappers := v.wrappers_unwrap ▸ Nat.le_sub_one_of_lt hle
      have hpos := Nat.lt_of_lt_of_le (Nat.succ_pos _) hwrappers
      exact ⟨_, s', .apply hcount hbody, Value.not_isError_of_wrappers_pos hpos, hwrappers⟩

/-- Arguments result in a single value only if it is an error. -/
theorem Runs.isError_of_args {es : List (Expr Unit)} (h : Runs env (.args es) s (.value v) s') :
    v.isError := by
  generalize hφ : Task.args es = φ at h
  generalize ho : Outcome.value v = o at h
  induction h generalizing es v with
  | error _ _ herror =>
      cases ho
      exact herror
  | laterError _ _ _ _ ih =>
      cases hφ
      exact ih rfl ho
  | noArgs | moreArgs => cases ho
  | _ => cases hφ

theorem Value.IsScalar.wrappers (h : v.IsScalar) : v.wrappers = 0 := by
  cases v with
  | returned id w => cases h
  | _ => rfl

theorem not_lt_wrappers (h : v.wrappers = 0) : ¬n < v.wrappers := by
  rw [h]
  exact Nat.not_lt_zero n

/-- Every wrapper of a value is from its way. -/
theorem Runs.leaves {o : Outcome} (h : Runs env φ s o s') :
    φ.Continues → ∀ {n v}, o = .value v → n < v.wrappers → Leaves (n + 1) env φ s := by
  induction h with
  | error _ _ herror =>
      rintro - n v ⟨⟩ hlt
      exact absurd hlt (not_lt_wrappers (Value.wrappers_eq_zero_of_isError herror))
  | ident hname =>
      rintro - n v ⟨⟩ hlt
      exact .name hname hlt
  | unbound | int | bool | function | noElse | let_ | wrongCount | notAFunction =>
      rintro - n v ⟨⟩ hlt
      exact absurd hlt (not_lt_wrappers rfl)
  | rightError _ _ _ herror =>
      rintro - n v ⟨⟩ hlt
      exact absurd hlt (not_lt_wrappers (Value.wrappers_eq_zero_of_isError herror))
  | unary _ _ hop =>
      rintro - n v ⟨⟩ hlt
      exact absurd hlt (not_lt_wrappers (givesScalar_evalUnary _ _ _ hop).1.wrappers)
  | binary _ _ _ _ hop =>
      rintro - n v ⟨⟩ hlt
      exact absurd hlt (not_lt_wrappers (givesScalar_evalBinary _ _ _ hop).1.wrappers)
  | then_ hc hv htruthy _ _ ih =>
      intro _ n w hw hlt
      exact .then_ hc hv htruthy (ih trivial hw hlt)
  | else_ hc hv htruthy _ _ ih =>
      intro _ n w hw hlt
      exact .else_ hc hv htruthy (ih trivial hw hlt)
  | argsError _ _ hes =>
      rintro - n v ⟨⟩ hlt
      exact absurd hlt (not_lt_wrappers (Value.wrappers_eq_zero_of_isError hes.isError_of_args))
  | laterError _ _ hes =>
      rintro - n v ⟨⟩ hlt
      exact absurd hlt (not_lt_wrappers (Value.wrappers_eq_zero_of_isError hes.isError_of_args))
  | call hf hv hes _ _ _ ih =>
      intro _ n w hw hlt
      exact .call hf hv hes (ih trivial hw hlt)
  | noArgs | moreArgs => rintro - n v ⟨⟩
  | return_ he hv ih =>
      rintro - n v ⟨⟩ hlt
      -- behind its last wrapper the way of a value need not be followed
      cases n with
      | zero => exact .return_ (.plain he hv)
      | succ n => exact .return_ (ih trivial rfl (Nat.lt_of_succ_lt_succ hlt))
  | expr _ ih =>
      intro _ n w hw hlt
      exact .expr (ih trivial hw hlt)
  | inner _ ih =>
      intro _ n w hw hlt
      exact .inner (ih trivial hw hlt)
  | done =>
      rintro hlast n v ⟨⟩ hlt
      exact absurd hlt (not_lt_wrappers (Value.wrappers_eq_zero_of_not_stops hlast))
  | stop _ _ ih =>
      intro _ n w hw hlt
      exact .stop (ih trivial hw hlt)
  | next hst hstops _ _ ih =>
      intro _ n w hw hlt
      exact .next hst hstops (ih hstops hw hlt)
  | block _ ih =>
      intro _ n w hw hlt
      exact .block (ih Bool.false_ne_true hw hlt)
  | apply hcount _ ih =>
      rintro - n v ⟨⟩ hlt
      rw [Value.wrappers_unwrap] at hlt
      exact .apply hcount (ih trivial rfl (Nat.add_lt_of_lt_sub hlt))

/-- A value of a run has as many wrappers as are left on its way. -/
theorem Runs.leaves_iff (h : Runs env φ s (.value v) s') (hφ : φ.Continues) :
    Leaves (n + 1) env φ s ↔ n < v.wrappers := by
  constructor
  · intro hleaves
    obtain ⟨w, s₁, hw, -, hle⟩ := hleaves.exists_runs
    cases (h.unique hw).1
    exact hle
  · intro hlt
    exact h.leaves hφ rfl hlt

end Monkey
