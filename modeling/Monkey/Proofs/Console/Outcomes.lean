import Monkey.Proofs.Console.Dialogue
import Monkey.Proofs.Program.Erase
import Monkey.Store.Equality

/-!
# What is shown of outcomes

A program stops early if one of its statements, possibly the last one, results in an error or
in the value of a `return`. A session shows what a program results in, also if it stopped
early, unless the program is written so that it ends by binding a name. Then nothing is shown:
the name was bound and there is nothing but `null` to show, or the program stopped early and
what became of it is not told (`Session.feed_shows`, `not_every_early_stop_is_shown`).
-/

namespace Monkey

/-! ## How programs end -/

/-- The statements are run one after the other, and none of them stops the ones behind it. -/
inductive Completes (env : FrameId) : List (Stmt Unit) → Store → Store → Prop where
  | nil {s} : Completes env [] s s
  | cons {st ss s v s₁ s'} : Runs env (.stmt st) s (.value v) s₁ → ¬v.stops →
      Completes env ss s₁ s' → Completes env (st :: ss) s s'

/-- One of the statements, possibly the last one, results in a value that is not passed by: an
error, or the wrapped value of a `return`. -/
def StopsEarly (env : FrameId) (ss : List (Stmt Unit)) (s : Store) (v : Value) (s' : Store) :
    Prop :=
  ∃ done st rest s₁, ss = done ++ st :: rest ∧ Completes env done s s₁ ∧
    Runs env (.stmt st) s₁ (.value v) s' ∧ v.stops

/-- The last of the statements binds a name, and all of them are run to the end. -/
def BindsLast (env : FrameId) (ss : List (Stmt Unit)) (s s' : Store) : Prop :=
  ∃ init id e s₁ u s₂, ss = init ++ [.let_ () id e] ∧ Completes env init s s₁ ∧
    Runs env (.expr e) s₁ (.value u) s₂ ∧ ¬u.isError ∧ s' = s₂.set env id.name u

variable {env : FrameId} {ss rest : List (Stmt Unit)} {st : Stmt Unit} {s s₁ s' : Store}
  {v last : Value}

namespace StopsEarly

theorem cons {u : Value} (hrun : Runs env (.stmt st) s (.value u) s₁) (hgoes : ¬u.stops)
    (h : StopsEarly env ss s₁ v s') : StopsEarly env (st :: ss) s v s' := by
  obtain ⟨done, st', rest, s₂, rfl, hdone, hstop⟩ := h
  exact ⟨st :: done, st', rest, s₂, rfl, .cons hrun hgoes hdone, hstop⟩

theorem append (h : StopsEarly env ss s v s') : StopsEarly env (ss ++ rest) s v s' := by
  obtain ⟨done, st, behind, s₁, rfl, hstop⟩ := h
  refine ⟨done, st, behind ++ rest, s₁, ?_, hstop⟩
  rw [List.append_assoc, List.cons_append]

end StopsEarly

/-- Statements stop before the last one, or this one decides what they result in. -/
theorem Runs.stmts_concat (h : Runs env (.stmts last (ss ++ [st])) s (.value v) s') :
    StopsEarly env ss s v s' ∨
      ∃ s₁, Completes env ss s s₁ ∧ Runs env (.stmt st) s₁ (.value v) s' := by
  induction ss generalizing last s with
  | nil =>
      cases h with
      | error hheads => cases hheads
      | stop hrun _ => exact .inr ⟨_, .nil, hrun⟩
      | next hrun _ hnil =>
          cases hnil with
          | error hheads => cases hheads
          | done => exact .inr ⟨_, .nil, hrun⟩
  | cons st' ss ih =>
      cases h with
      | error hheads => cases hheads
      | stop hrun hstops => exact .inl ⟨[], st', ss, s, rfl, .nil, hrun, hstops⟩
      | next hrun hgoes hrest =>
          obtain hstop | ⟨s₁, hdone, hlast⟩ := ih hrest
          · exact .inl (hstop.cons hrun hgoes)
          · exact .inr ⟨s₁, .cons hrun hgoes hdone, hlast⟩

/-- Statements with a last one that binds a name stop early, or bind it and result in
nothing. -/
theorem Runs.stmts_let {t : Unit} {id : Ident Unit} {e : Expr Unit}
    (h : Runs env (.stmts last (ss ++ [.let_ t id e])) s (.value v) s') :
    StopsEarly env (ss ++ [.let_ t id e]) s v s' ∨
      v = .null ∧ BindsLast env (ss ++ [.let_ t id e]) s s' := by
  obtain hstop | ⟨s₁, hdone, hlet⟩ := h.stmts_concat
  · exact .inl hstop.append
  cases id
  cases hlet with
  | error hheads hrun herror =>
      have hstops : v.stops := by
        cases v with
        | error => rfl
        | _ => cases herror
      exact .inl ⟨ss, _, [], s₁, rfl, hdone, .error hheads hrun herror, hstops⟩
  | let_ hrun herror => exact .inr ⟨rfl, ss, _, e, s₁, _, _, rfl, hdone, hrun, herror, rfl⟩

/-- A program that ends by binding a name still does so without its tags. -/
theorem Program.exists_let_of_endsWithLet {α : Type} {p : Program α} (h : p.endsWithLet) :
    ∃ init id e, p.erase.statements = init ++ [.let_ () id e] := by
  rw [endsWithLet] at h
  split at h
  next t id e hlast =>
    obtain ⟨init, hinit⟩ := List.getLast?_eq_some_iff.mp hlast
    refine ⟨init.map Stmt.erase, id.erase, e.erase, ?_⟩
    rw [statements_erase, hinit, List.map_append, List.map_cons, List.map_nil, Stmt.erase_let]
  next => cases h

namespace Console

variable {depth : Nat} {t : Store} {p : Program Token} {l : String}

/-! ## What is shown -/

/-- With the line, the input of the session is complete, and a program without syntax errors:
neither white space nor the word that ends the session. -/
def Session.Receives (s : Session) (l : String) (p : Program Token) : Prop :=
  ∃ text, Text.eraseBackspaces (splitLineEnd (s.pending ++ l).toList).1 = some text.toList ∧
    verdict text = .closed ∧ trimmed text ≠ "" ∧ ¬isExit (trimmed text) ∧
    parse (trimmed text) = ⟨p, []⟩

/-- What is typed without backspaces is received with its line end. -/
theorem Session.receives_of_kept {s : Session} (hkept : Text.backspace ∉ (s.pending ++ l).toList)
    (hclosed : verdict (s.pending ++ l) = .closed) (hne : trimmed (s.pending ++ l) ≠ "")
    (hexit : isExit (trimmed (s.pending ++ l)) = false)
    (hparse : parse (trimmed (s.pending ++ l)) = ⟨p, []⟩) : s.Receives l p := by
  rw [← trimmed_typed] at hne hexit hparse
  rw [← verdict_typed] at hclosed
  have htyped := notMem_typed hkept
  refine ⟨typed (s.pending ++ l), ?_, hclosed, hne, Bool.eq_false_iff.mp hexit, hparse⟩
  rw [typed, String.toList_ofList] at htyped ⊢
  exact Text.eraseBackspaces_eq_some_self htyped

/-- A program that is received is run, and its last statement decides whether its result is
shown. -/
theorem Session.feed_of_receives {s : Session} (h : s.Receives l p)
    (heval : evaluate depth p.erase s.env s.store = some (v, t)) :
    s.feed depth l =
      .ok ⟨.answer (if p.endsWithLet then "" else v.inspect ++ "\n"), some ⟨"", t, s.env⟩⟩ := by
  obtain ⟨text, hread, hclosed, hne, hexit, hparse⟩ := h
  have hrun := execute_of_program depth { s with pending := "" } hne hexit
    (congrArg Parsed.errors hparse)
  rw [hparse] at hrun
  simp only [heval] at hrun
  rw [feed]
  simp only [hread, String.ofList_toList, hclosed]
  exact hrun

/-- What a program results in is shown, also if it has stopped early, unless it is written to
end by binding a name. Then nothing is shown, and either the program has stopped early, or the
name was bound and the result is `null`. -/
theorem Session.feed_shows {s : Session} (h : s.Receives l p)
    (heval : evaluate depth p.erase s.env s.store = some (v, t)) :
    ∃ shown, s.feed depth l = .ok ⟨.answer shown, some ⟨"", t, s.env⟩⟩ ∧
      (¬p.endsWithLet → shown = v.inspect ++ "\n") ∧
      (p.endsWithLet → shown = "" ∧
        ((∃ w, StopsEarly s.env p.erase.statements s.store w t ∧ w.unwrap = v) ∨
          v = .null ∧ BindsLast s.env p.erase.statements s.store t)) := by
  refine ⟨_, feed_of_receives h heval, fun hlet => if_neg hlet, fun hlet => ⟨if_pos hlet, ?_⟩⟩
  obtain ⟨w, hw, hunwrap⟩ := evaluate_eq_some_iff.mp ⟨depth, heval⟩
  obtain ⟨init, id, e, hstatements⟩ := Program.exists_let_of_endsWithLet hlet
  rw [hstatements] at hw ⊢
  obtain hstop | ⟨rfl, hbinds⟩ := hw.stmts_let
  · exact .inl ⟨w, hstop, hunwrap⟩
  · exact .inr ⟨hunwrap.symm, hbinds⟩

/-- A session that is asked for a name that nothing is bound to. -/
theorem unbound_name_is_shown :
    ∃ p v t, Session.start.Receives "y; 2\n" p ∧
      evaluate 1 p.erase 0 Session.start.store = some (v, t) ∧
      Session.start.feed 1 "y; 2\n" =
        .ok ⟨.answer "ERROR: identifier not found: y\n", some ⟨"", t, 0⟩⟩ := by
  have hreads : Session.start.Receives "y; 2\n" (parse "y; 2").program :=
    Session.receives_of_kept (by decide) (by decide +kernel) (by decide) (by decide +kernel)
      (by decide +kernel)
  have heval : evaluate 1 (parse "y; 2").program.erase 0 Session.start.store =
      some (.error 0 (.unboundName "y"), Session.start.store.spend) := by
    decide +kernel
  obtain ⟨shown, hfeed, hshown, -⟩ := Session.feed_shows hreads heval
  have hlet : (parse "y; 2").program.endsWithLet = false := by decide +kernel
  rw [hshown (Bool.eq_false_iff.mp hlet)] at hfeed
  exact ⟨_, _, _, hreads, heval, hfeed⟩

/-- What a program results in that has stopped early is not shown if the program is written to
end by binding a name: here the value of the name is the error. -/
theorem not_every_early_stop_is_shown :
    ¬∀ (s : Session) (l : String) (p : Program Token) (depth : Nat) (w v : Value) (t : Store),
      s.Receives l p → evaluate depth p.erase s.env s.store = some (v, t) →
      StopsEarly s.env p.erase.statements s.store w t → w.unwrap = v →
      s.feed depth l = .ok ⟨.answer (v.inspect ++ "\n"), some ⟨"", t, s.env⟩⟩ := by
  intro hall
  have hreads : Session.start.Receives "let x = y;\n" (parse "let x = y;").program :=
    Session.receives_of_kept (by decide) (by decide +kernel) (by decide) (by decide +kernel)
      (by decide +kernel)
  have heval : evaluate 1 (parse "let x = y;").program.erase 0 Session.start.store =
      some (.error 0 (.unboundName "y"), Session.start.store.spend) := by
    decide +kernel
  have hstatements : (parse "let x = y;").program.erase.statements =
      [.let_ () ⟨(), "x"⟩ (.ident ⟨(), "y"⟩)] := by
    decide +kernel
  have hstop : StopsEarly 0 (parse "let x = y;").program.erase.statements Session.start.store
      (.error 0 (.unboundName "y")) Session.start.store.spend := by
    rw [hstatements]
    have hnone : Session.start.store.get? 0 "y" = none := by decide +kernel
    exact ⟨[], _, [], _, rfl, .nil, .error .bound (.unbound hnone) rfl, rfl⟩
  have hlet : (parse "let x = y;").program.endsWithLet = true := by decide +kernel
  have hshown := hall _ _ _ 1 _ _ _ hreads heval hstop rfl
  rw [Session.feed_of_receives hreads heval, if_pos hlet] at hshown
  injection hshown with hturn
  injection hturn with hwritten
  injection hwritten with hanswers
  revert hanswers
  decide

end Console

end Monkey
