import Monkey.Proofs.Console.Dialogue

/-!
# What a whole session answers

The answers to an input are the greeting, the answers to its pieces one after the other, and a
farewell unless the session was ended before. Lines that are left behind the last piece are not
run. Pieces without a program can be left out of the input, and so can all that stands behind a
bracket that does not match.
-/

namespace Monkey.Console

open Filter

variable {depth : Nat} {s : Session} {input user text : String} {texts texts' : List String}
  {lines left : List String} {pieces : List (List String)}

theorem KeptAsTyped.notMem_line (h : KeptAsTyped input) :
    ∀ l ∈ linesOf input, Text.backspace ∉ l.toList := by
  intro l hl hmem
  refine keptAsTyped_iff.mp h ?_
  rw [← join_linesOf input, String.toList_join]
  exact List.mem_flatMap.mpr ⟨l, hl, hmem⟩

theorem KeptAsTyped.of_sublist (h : KeptAsTyped input) (hsub : lines.Sublist (linesOf input)) :
    KeptAsTyped (String.join lines) :=
  keptAsTyped_iff.mpr (notMem_join fun l hl => h.notMem_line l (hsub.subset hl))

/-- The greeting is followed by the answers to the pieces of the input. -/
theorem answers_transcript (depth : Nat) (user : String) (hkept : KeptAsTyped input)
    (hcut : Cut (linesOf input) pieces left) :
    (transcript depth user input).map Written.answers =
      (Session.start.replies depth (pieces.map String.join)).map (greeting user ++ ·) := by
  have hpieces : (cut [] (linesOf input)).1 = pieces :=
    ((cut_spec waits_nil (linesOf input)).unique hcut).1
  have hlines : ∀ l ∈ [] ++ linesOf input, Text.backspace ∉ l.toList := hkept.notMem_line
  have hanswers := Session.answers_readAll depth .start [] rfl hlines
  rw [hpieces] at hanswers
  change ((Session.start.readAll depth (linesOf input)).bind fun written =>
    .ok ((Written.answer (greeting user)).append written)).map Written.answers = _
  change _ = Session.start.replies depth (pieces.map String.join) at hanswers
  rw [← hanswers]
  cases Session.start.readAll depth (linesOf input) <;> rfl

/-- What a session answers are the answers of a dialogue about the pieces. -/
theorem exists_dialogue_of_transcript {out complaints : String} (hkept : KeptAsTyped input)
    (hcut : Cut (linesOf input) pieces left)
    (h : transcript depth user input = .ok ⟨out, complaints⟩) :
    ∃ outs exited, Dialogue Session.start.env Session.start.store (pieces.map String.join)
        outs exited ∧
      out = greeting user ++ (String.join outs ++ ending exited) := by
  have hanswers := answers_transcript depth user hkept hcut
  rw [h] at hanswers
  obtain ⟨more, hreplies, hout⟩ := map_eq_ok_iff.mp hanswers.symm
  obtain ⟨outs, exited, hdialogue, rfl⟩ := Session.exists_dialogue_of_replies hreplies
  exact ⟨outs, exited, hdialogue, hout.symm⟩

/-- If there is a dialogue about the pieces, this is what a session answers. -/
theorem eventually_transcript {outs : List String} {exited : Bool} (hkept : KeptAsTyped input)
    (hcut : Cut (linesOf input) pieces left)
    (h : Dialogue Session.start.env Session.start.store (pieces.map String.join) outs exited) :
    ∀ᶠ depth in atTop, ∃ complaints, transcript depth user input =
      .ok ⟨greeting user ++ (String.join outs ++ ending exited), complaints⟩ := by
  filter_upwards [Session.eventually_replies h] with depth hreplies
  have hanswers := answers_transcript depth user hkept hcut
  rw [hreplies] at hanswers
  obtain ⟨⟨out, complaints⟩, htranscript, rfl⟩ := map_eq_ok_iff.mp hanswers
  exact ⟨complaints, htranscript⟩

/-! ## Pieces that are left out -/

/-- A text that is not run does not change the answers to those behind it. -/
theorem replies_cons_of_silent
    (h : trimmed text = "" ∨ (parse (trimmed text)).errors ≠ []) :
    s.replies depth (text :: texts) = s.replies depth texts := by
  rw [Session.replies]
  rcases h with hblank | herrors
  · rw [Session.execute_of_blank hblank]
    exact answersThen_of_silent rfl
  · obtain ⟨complaints, hfaulty⟩ := Session.execute_of_faulty depth s herrors
    rw [hfaulty]
    exact answersThen_of_silent rfl

theorem replies_append_congr (before : List String)
    (h : ∀ s : Session, s.replies depth texts = s.replies depth texts') (s : Session) :
    s.replies depth (before ++ texts) = s.replies depth (before ++ texts') := by
  induction before generalizing s with
  | nil => exact h s
  | cons text before ih =>
      rw [List.cons_append, List.cons_append, Session.replies, Session.replies]
      exact answersThen_congr fun _ s' _ _ => ih s'

/-- A piece that is not run can be left out of the input. -/
theorem transcript_without {before after : List (List String)} {piece : List String}
    (hkept : KeptAsTyped input) (hcut : Cut (linesOf input) (before ++ piece :: after) left)
    (hsilent : trimmed (String.join piece) = "" ∨
      (parse (trimmed (String.join piece))).errors ≠ []) :
    (transcript depth user (String.join ((before ++ after).flatten ++ left))).map
        Written.answers =
      (transcript depth user input).map Written.answers := by
  have hfewer : (before ++ after).Sublist (before ++ piece :: after) :=
    (List.sublist_cons_self piece after).append_left before
  have hlines : ((before ++ after).flatten ++ left).Sublist (linesOf input) := by
    rw [hcut.lines_eq, List.flatten_append, List.flatten_append, List.flatten_cons]
    exact ((List.sublist_append_right piece _).append_left _).append_right left
  have hcut' := hcut.sublist hfewer
  rw [← linesOf_join hlines] at hcut'
  rw [answers_transcript depth user (hkept.of_sublist hlines) hcut',
    answers_transcript depth user hkept hcut,
    List.map_append, List.map_append, List.map_cons]
  exact congrArg _ (replies_append_congr _ (fun s => (replies_cons_of_silent hsilent).symm) _)

/-! ## Behind a bracket that does not match -/

/-- Behind a bracket that does not match no piece ends. -/
theorem Cut.of_unmatched {begun : List String} {t : Token} (h : Cut lines pieces left)
    (hbegun : begun <+: left) (hunmatched : verdict (String.join begun) = .unmatched t)
    (more : List String) : Cut (pieces.flatten ++ begun ++ more) pieces (begun ++ more) :=
  ⟨List.append_assoc _ _ _, h.isPiece,
    waits_append_of_unmatched (h.waits.of_prefix hbegun) hunmatched more⟩

/-- Lines behind the last piece are not answered to. -/
theorem transcript_flatten (hkept : KeptAsTyped input) (hcut : Cut (linesOf input) pieces left) :
    (transcript depth user (String.join pieces.flatten)).map Written.answers =
      (transcript depth user input).map Written.answers := by
  have hlines : pieces.flatten.Sublist (linesOf input) := by
    rw [hcut.lines_eq]
    exact List.sublist_append_left _ _
  have hcut' : Cut (linesOf (String.join pieces.flatten)) pieces [] := by
    rw [linesOf_join hlines]
    exact ⟨(List.append_nil _).symm, hcut.isPiece, waits_nil⟩
  rw [answers_transcript depth user (hkept.of_sublist hlines) hcut',
    answers_transcript depth user hkept hcut]

/-! ## Transcripts -/

/-- An input is cut into pieces in one way. What is answered to it is the greeting, the answers
to the pieces, each run once in the store that the ones before it have left, and a farewell
unless the session was ended; lines behind the last piece are dropped. If all that is run comes
to an end, so does the session. A piece that is blank or has syntax errors can be left out of
the input. Behind lines with a bracket that does not match no piece ends, whatever the lines
are, and no answer but the farewell is given to them. -/
theorem transcript_in_pieces (user : String) (hkept : KeptAsTyped input) :
    ∃ pieces left, Cut (linesOf input) pieces left ∧
      (∀ pieces' left', Cut (linesOf input) pieces' left' → pieces' = pieces ∧ left' = left) ∧
      (∀ depth out complaints, transcript depth user input = .ok ⟨out, complaints⟩ →
        ∃ outs exited, Dialogue Session.start.env Session.start.store
            (pieces.map String.join) outs exited ∧
          out = greeting user ++ (String.join outs ++ ending exited)) ∧
      (∀ outs exited, Dialogue Session.start.env Session.start.store
            (pieces.map String.join) outs exited →
        ∀ᶠ depth in atTop, ∃ complaints, transcript depth user input =
          .ok ⟨greeting user ++ (String.join outs ++ ending exited), complaints⟩) ∧
      (∀ before piece after, pieces = before ++ piece :: after →
        trimmed (String.join piece) = "" ∨
          (parse (trimmed (String.join piece))).errors ≠ [] →
        ∀ depth, (transcript depth user (String.join ((before ++ after).flatten ++ left))).map
            Written.answers =
          (transcript depth user input).map Written.answers) ∧
      ∀ begun t input', begun <+: left → verdict (String.join begun) = .unmatched t →
        KeptAsTyped input' → pieces.flatten ++ begun <+: linesOf input' →
        (∃ left', Cut (linesOf input') pieces (begun ++ left')) ∧
        ∀ depth, (transcript depth user input').map Written.answers =
          (transcript depth user (String.join pieces.flatten)).map Written.answers := by
  have hcut := cut_spec waits_nil (linesOf input)
  rw [List.nil_append] at hcut
  refine ⟨_, _, hcut, fun _ _ h => h.unique hcut, ?_, ?_, ?_, ?_⟩
  · exact fun depth out complaints h => exists_dialogue_of_transcript hkept hcut h
  · exact fun outs exited h => eventually_transcript hkept hcut h
  · intro before piece after hpieces hsilent depth
    rw [hpieces] at hcut
    exact transcript_without hkept hcut hsilent
  · rintro begun t input' hbegun hunmatched hkept' ⟨left', hlines⟩
    have hcut' := hcut.of_unmatched hbegun hunmatched left'
    rw [hlines] at hcut'
    exact ⟨⟨left', hcut'⟩, fun depth => (transcript_flatten hkept' hcut').symm⟩

/-- A function on two lines, a faulty line, and a call. -/
def functionAndCall : List (List String) :=
  [["let f = fn(x) \x7b\n", "x \x7d\n"], ["let 1\n"], ["f(2)\n"]]

/-- The same, and then a bracket that does not match. -/
def callThenBracket : String :=
  String.join (functionAndCall.flatten ++ [")\n", "5\n"])

theorem callThenBracket_in_pieces :
    KeptAsTyped callThenBracket ∧
    (∀ᶠ depth in atTop, ∃ complaints, transcript depth "you" callThenBracket =
      .ok ⟨greeting "you" ++ "2\n\nExiting.\n", complaints⟩) ∧
    (∀ depth, (transcript depth "you" "let f = fn(x) \x7b\nx \x7d\nf(2)\n)\n5\n").map
        Written.answers =
      (transcript depth "you" callThenBracket).map Written.answers) ∧
    ∀ depth, (transcript depth "you" callThenBracket).map Written.answers =
      (transcript depth "you" "let f = fn(x) \x7b\nx \x7d\nlet 1\nf(2)\n").map
        Written.answers := by
  have hkept : KeptAsTyped callThenBracket := keptAsTyped_iff.mpr (by decide)
  have hcut : Cut (linesOf callThenBracket) functionAndCall [")\n", "5\n"] := by
    have hspec := cut_spec waits_nil (linesOf callThenBracket)
    have hpieces : cut [] (linesOf callThenBracket) = (functionAndCall, [")\n", "5\n"]) := by
      decide +kernel
    rwa [hpieces] at hspec
  obtain ⟨pieces, left, -, hunique, -, hends, hwithout, hbehind⟩ :=
    transcript_in_pieces "you" hkept
  obtain ⟨rfl, rfl⟩ := hunique _ _ hcut
  have hfault : (parse (trimmed "let 1\n")).errors ≠ [] := by
    have hexpected : (parse (trimmed "let 1\n")).errors.map SyntaxError.expected? =
        [some .ident] := by
      decide +kernel
    intro hnil
    rw [hnil] at hexpected
    cases hexpected
  have hrun : Session.start.replies 1 ["let f = fn(x) \x7b\nx \x7d\n", "f(2)\n"] =
      .ok "2\n\nExiting.\n" := by
    decide +kernel
  have hreplies : Session.start.replies 1 (functionAndCall.map String.join) =
      .ok "2\n\nExiting.\n" := by
    rw [← hrun]
    exact replies_append_congr [_] (fun s => replies_cons_of_silent (.inr hfault)) .start
  obtain ⟨outs, exited, hdialogue, hout⟩ := Session.exists_dialogue_of_replies hreplies
  have hunmatched : verdict (String.join [")\n"]) =
      .unmatched { kind := .rparen, literal := ")", span := ⟨0, 1⟩ } := by
    decide +kernel
  have hbegins : functionAndCall.flatten ++ [")\n"] <+: linesOf callThenBracket := by
    rw [hcut.lines_eq]
    exact List.prefix_append _ ["5\n"]
  refine ⟨hkept, ?_, fun depth => ?_, fun depth => ?_⟩
  · rw [hout]
    exact hends outs exited hdialogue
  · exact hwithout [_] _ [_] rfl (.inr hfault) depth
  · exact (hbehind _ _ _ (List.prefix_append _ _) hunmatched hkept hbegins).2 depth

end Monkey.Console
