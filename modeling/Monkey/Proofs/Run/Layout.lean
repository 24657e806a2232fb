import Monkey.Proofs.Program.Relabel
import Monkey.Proofs.Run.Erasure

/-!
# Layout has no meaning

Two texts with the same tokens, at other places and with other blanks between them, are read as
the same program up to places, with the same errors up to places, and what is read runs alike
(`layout_has_no_meaning`).
-/

namespace Monkey

/-- The token at no place in particular. -/
def Token.unplaced (t : Token) : Token :=
  { t with span := ⟨0, 0⟩ }

theorem relabels_unplaced : Relabels Token.unplaced :=
  ⟨fun _ => rfl, fun _ => rfl⟩

/-- What is read, up to places, is what is read from the tokens at no place in particular. -/
theorem parse_unplaced (source : String) :
    Parse.statements (.unplaced (.eof 0)) ((tokenize source).map Token.unplaced) =
      ((parse source).program.statements.map (Stmt.map Token.unplaced),
        (parse source).errors.map (SyntaxError.map Token.unplaced)) := by
  have heof : Token.unplaced (.eof source.utf8ByteSize) = .unplaced (.eof 0) := rfl
  rw [← heof, parse_eq]
  exact Parse.statements_map relabels_unplaced (tokenize source)

theorem SyntaxError.message_map_unplaced (e : SyntaxError) :
    (e.map Token.unplaced).message = e.message := by
  cases e <;> rfl

/-- The tokens of the text, each as its kind and its text. -/
def words (source : String) : List (Kind × String) :=
  (tokenize source).map fun t => (t.kind, t.literal)

theorem map_unplaced_eq (source : String) :
    (tokenize source).map Token.unplaced = (words source).map fun w => ⟨w.1, w.2, ⟨0, 0⟩⟩ := by
  rw [words, List.map_map]
  rfl

variable {a b : String}

/-- Texts of the same words are read as the same statements and errors, up to places. -/
theorem parse_eq_of_words (h : words a = words b) :
    (parse a).program.map Token.unplaced = (parse b).program.map Token.unplaced ∧
    (parse a).errors.map (SyntaxError.map Token.unplaced) =
      (parse b).errors.map (SyntaxError.map Token.unplaced) := by
  have htokens : (tokenize a).map Token.unplaced = (tokenize b).map Token.unplaced := by
    rw [map_unplaced_eq, h, map_unplaced_eq]
  have hread := parse_unplaced a
  rw [htokens, parse_unplaced b] at hread
  obtain ⟨hprogram, herrors⟩ := Prod.mk.inj hread.symm
  rw [Program.map, Program.map, Stmt.mapAll_eq_map, Stmt.mapAll_eq_map, hprogram]
  exact ⟨rfl, herrors⟩

theorem messages_eq_of_map_unplaced {es es' : List SyntaxError}
    (h : es.map (SyntaxError.map Token.unplaced) = es'.map (SyntaxError.map Token.unplaced)) :
    es.map SyntaxError.message = es'.map SyntaxError.message := by
  have hmessage : SyntaxError.message ∘ SyntaxError.map Token.unplaced = SyntaxError.message :=
    funext SyntaxError.message_map_unplaced
  have hmessages := congrArg (List.map SyntaxError.message) h
  rwa [List.map_map, List.map_map, hmessage] at hmessages

open Tagged in
/-- Texts of the same words are read as the same program with the same errors, places apart, and
what is read of them, complete or not, runs alike: in every scope both come to an end or neither
does, and a user sees the same afterwards. More than this, what a program comes to depends on
what it says only: programs with any tags that say the same run alike, and up to tags they do
what the program without tags does. -/
theorem layout_has_no_meaning :
    (∀ a b : String, words a = words b →
      (parse a).program.map Token.unplaced = (parse b).program.map Token.unplaced ∧
      (parse a).program.erase = (parse b).program.erase ∧
      (parse a).errors.map (SyntaxError.map Token.unplaced) =
        (parse b).errors.map (SyntaxError.map Token.unplaced) ∧
      (parse a).errors.map SyntaxError.message = (parse b).errors.map SyntaxError.message ∧
      ∀ (depth : Nat) (env : FrameId) (s : Tagged.Store Token), Option.Rel SeenAlike
        (Tagged.evaluate depth (parse a).program env s)
        (Tagged.evaluate depth (parse b).program env s)) ∧
    ∀ (α β : Type) (p : Program α) (q : Program β) (s : Tagged.Store α) (t : Tagged.Store β)
      (depth : Nat) (env : FrameId),
      (p.erase = q.erase → s.erase = t.erase →
        Option.Rel SeenAlike (Tagged.evaluate depth p env s) (Tagged.evaluate depth q env t)) ∧
      evaluate depth p.erase env s.erase =
        (Tagged.evaluate depth p env s).map (Prod.map Value.erase Store.erase) := by
  refine ⟨fun a b h => ?_, fun α β p q s t depth env => ⟨fun hp hs => ?_, ?_⟩⟩
  · obtain ⟨hprogram, herrors⟩ := parse_eq_of_words h
    have hsays : (parse a).program.erase = (parse b).program.erase := by
      rw [← Program.erase_map Token.unplaced, hprogram, Program.erase_map]
    exact ⟨hprogram, hsays, herrors, messages_eq_of_map_unplaced herrors,
      fun depth env s => seenAlike_of_erase hsays rfl depth env⟩
  · exact seenAlike_of_erase hp hs depth env
  · exact evaluate_erases depth p env s

/-- A program with a fault in the middle, on one line. -/
def oneLine : String :=
  "let f = fn(x) \x7b x \x7d; let 1; f(3)"

/-- The same words on two lines. -/
def twoLines : String :=
  "let f=fn(x)\x7bx\x7d;let 1;\n\tf(3)"

theorem twoLines_run_like_oneLine :
    words oneLine = words twoLines ∧
    (parse oneLine).errors.map SyntaxError.message =
      (parse twoLines).errors.map SyntaxError.message ∧
    (parse twoLines).errors.map SyntaxError.expected? = [some .ident] ∧
    Option.Rel Tagged.SeenAlike
      (Tagged.evaluate 1 (parse oneLine).program 0 ⟨#[⟨none, []⟩], 0⟩)
      (Tagged.evaluate 1 (parse twoLines).program 0 ⟨#[⟨none, []⟩], 0⟩) ∧
    (Tagged.evaluate 1 (parse twoLines).program 0 ⟨#[⟨none, []⟩], 0⟩).map
      (fun r => (r.1.inspect, r.2.names 0)) = some ("3", ["f"]) := by
  have hwords : words oneLine = words twoLines := by decide +kernel
  have hfault : (parse twoLines).errors.map SyntaxError.expected? = [some .ident] := by
    decide +kernel
  obtain ⟨-, -, -, hmessages, hruns⟩ := layout_has_no_meaning.1 _ _ hwords
  exact ⟨hwords, hmessages, hfault, hruns 1 0 _, by decide +kernel⟩

end Monkey
