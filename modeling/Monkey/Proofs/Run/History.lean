import Monkey.Proofs.Run.Origin

/-!
# Programs one after another

In a fresh environment programs are run one after the other, each in the store that the ones
before it have left. All their evaluations follow one another, so that the evaluations that they
are made of are ordered as those of one program are (`History.ordered`). Each function that is
met on the way was made by exactly one evaluation of a function literal
(`History.existsUnique_makes`).
-/

namespace Monkey

/-- The evaluation of a program in the first frame. -/
def Moment.ofProgram (p : Program Unit) (s : Store) : Moment :=
  ⟨0, .stmts .null p.statements, s⟩

/-- The programs have been run one after the other in a fresh environment, the last one first:
where their evaluations began, and the store that is left. -/
inductive History : List (Program Unit) → List Moment → Store → Prop where
  | start : History [] [] .single
  | next {ps ms s p depth v t} : History ps ms s → evaluate depth p 0 s = some (v, t) →
      History (p :: ps) (.ofProgram p s :: ms) t

/-- The evaluation is a part of one of the others. -/
def PartOf (ms : List Moment) (l : Moment) : Prop :=
  ∃ m ∈ ms, m.Visits l

/-- The value is met on the way of one of the evaluations. -/
def MetIn (ms : List Moment) (v : Value) : Prop :=
  ∃ m ∈ ms, m.Meets v

variable {ps : List (Program Unit)} {ms : List Moment} {s t : Store} {p : Program Unit}
  {v : Value} {m l l' : Moment} {c : Closure} {depth : Nat}

/-- A program that has been run is an evaluation that has come to an end. -/
theorem runs_ofProgram (h : evaluate depth p 0 s = some (v, t)) :
    ∃ o, Runs (Moment.ofProgram p s).env (Moment.ofProgram p s).task (Moment.ofProgram p s).store
      o t := by
  obtain ⟨w, hrun, -⟩ := evaluate_eq_some_iff.mp ⟨depth, h⟩
  exact ⟨_, hrun⟩

namespace History

/-- The programs have come to an end before anything begins in the store that is left. -/
theorem endsBefore (h : History ps ms s) (hm : m ∈ ms)
    (hstore : s.nextObject ≤ l.store.nextObject) : m.EndsBefore l := by
  induction h generalizing l with
  | start => cases hm
  | next _ heval ih =>
      obtain ⟨o, hrun⟩ := runs_ofProgram heval
      obtain rfl | hm := List.mem_cons.mp hm
      · exact ⟨o, _, hrun, hstore⟩
      · exact ih hm (Nat.le_trans hrun.objects_le hstore)

/-- What is a part of the programs that have been run comes before all parts of the next one. -/
theorem endsBefore_of_partOf (h : History ps ms s) (hl : PartOf ms l)
    (hl' : (Moment.ofProgram p s).Visits l') : l.EndsBefore l' := by
  obtain ⟨m, hm, hvisits⟩ := hl
  exact (h.endsBefore hm (Nat.le_refl _)).visits hvisits hl'

theorem partOf_cons : PartOf (m :: ms) l ↔ m.Visits l ∨ PartOf ms l :=
  List.exists_mem_cons_iff _ _ _

/-- While one more program is running, any two evaluations are ordered: one is a part of the
other, or comes before it. -/
theorem ordered (h : History ps ms s) (hl : PartOf (.ofProgram p s :: ms) l)
    (hl' : PartOf (.ofProgram p s :: ms) l') :
    l.Visits l' ∨ l'.Visits l ∨ l.EndsBefore l' ∨ l'.EndsBefore l := by
  induction h generalizing p with
  | start =>
      obtain hl | ⟨m, hm, -⟩ := partOf_cons.mp hl
      · obtain hl' | ⟨m, hm, -⟩ := partOf_cons.mp hl'
        · exact hl.ordered hl'
        · cases hm
      · cases hm
  | next hhistory heval ih =>
      have hnext := History.next hhistory heval
      obtain hl | hl := partOf_cons.mp hl
      · obtain hl' | hl' := partOf_cons.mp hl'
        · exact hl.ordered hl'
        · exact .inr (.inr (.inr (hnext.endsBefore_of_partOf hl' hl)))
      · obtain hl' | hl' := partOf_cons.mp hl'
        · exact .inr (.inr (.inl (hnext.endsBefore_of_partOf hl hl')))
        · exact ih hl hl'

/-! ## Functions -/

/-- The functions that are there when a program begins were made by the programs before. -/
theorem functionsFrom {O : Closure → Prop} (h : History ps ms s)
    (hO : ∀ m ∈ ms, m.MakesOnly O) : s.FunctionsFrom O ∧ ∀ m ∈ ms, m.FunctionsFrom O := by
  induction h with
  | start => exact ⟨Store.functionsFrom_single, List.forall_mem_nil _⟩
  | @next ps ms s p _ _ _ _ heval ih =>
      obtain ⟨hmakes, hO⟩ := List.forall_mem_cons.mp hO
      obtain ⟨hs, hms⟩ := ih hO
      obtain ⟨o, hrun⟩ := runs_ofProgram heval
      have hbegins : (Moment.ofProgram p s).FunctionsFrom O := ⟨hs, trivial⟩
      have hends := hrun.functionsFrom hmakes hbegins.store hbegins.task
      exact ⟨hends.1, List.forall_mem_cons.mpr ⟨hbegins, hms⟩⟩

/-- A function that is met on the way was made on the way. -/
theorem exists_makes (h : History ps ms s) (hc : MetIn (.ofProgram p s :: ms) (.closure c)) :
    ∃ l, PartOf (.ofProgram p s :: ms) l ∧ l.Makes c := by
  obtain ⟨m, hm, hmeets⟩ := hc
  have hO : ∀ m ∈ Moment.ofProgram p s :: ms,
      m.MakesOnly fun c => ∃ l, PartOf (.ofProgram p s :: ms) l ∧ l.Makes c :=
    fun m hm l c hl hmakes => ⟨l, ⟨m, hm, hl⟩, hmakes⟩
  obtain ⟨hs, hms⟩ := h.functionsFrom fun m hm => hO m (List.mem_cons_of_mem _ hm)
  have hbegins : m.FunctionsFrom fun c => ∃ l, PartOf (.ofProgram p s :: ms) l ∧ l.Makes c := by
    obtain rfl | hm := List.mem_cons.mp hm
    · exact ⟨hs, trivial⟩
    · exact hms m hm
  exact hmeets.functionsFrom (hO m hm) hbegins

/-- Functions with the same number were made by the same evaluation. -/
theorem eq_of_makes {d : Closure} (h : History ps ms s)
    (hl : PartOf (.ofProgram p s :: ms) l) (hl' : PartOf (.ofProgram p s :: ms) l')
    (hc : l.Makes c) (hd : l'.Makes d) (hid : c.id = d.id) : l' = l :=
  hc.eq_of_ordered hd hid (h.ordered hl hl')

/-- A function that is met on the way was made by exactly one evaluation. -/
theorem existsUnique_makes (h : History ps ms s)
    (hc : MetIn (.ofProgram p s :: ms) (.closure c)) :
    ∃! l, PartOf (.ofProgram p s :: ms) l ∧ l.Makes c := by
  obtain ⟨l, hl, hmakes⟩ := h.exists_makes hc
  exact ⟨l, ⟨hl, hmakes⟩, fun l' hl' => h.eq_of_makes hl hl'.1 hmakes hl'.2 rfl⟩

end History

end Monkey
