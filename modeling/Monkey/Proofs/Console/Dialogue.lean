import Monkey.Proofs.Console.Pieces
import Monkey.Proofs.Run.Adequacy

/-!
# Sessions piece by piece

A session runs the pieces of its input one after the other, each of them once and in the store
that the ones before it have left (`Session.answers_readAll`). Blank pieces and pieces with
syntax errors leave no trace among the answers, and nothing behind a bracket that does not match
is run. Whether the last line end of a piece is cut off makes no difference (`verdict_typed`,
`trimmed_typed`).

The line reader is taken to keep what is typed, that is, the input has no backspaces.
-/

namespace Monkey.Console

open Filter

/-- The line reader keeps every stretch of the input as it was typed. -/
def KeptAsTyped (input : String) : Prop :=
  ∀ cs, cs <:+: input.toList → Text.eraseBackspaces cs = some cs

/-- It does so unless there are backspaces. -/
theorem keptAsTyped_iff {input : String} : KeptAsTyped input ↔ Text.backspace ∉ input.toList := by
  constructor
  · intro h
    exact Text.backspace_notMem_eraseBackspaces (h _ List.infix_rfl)
  · intro h cs hcs
    exact Text.eraseBackspaces_eq_some_self fun hmem => h (hcs.subset hmem)

/-- What is read of a text: all but the white space around it. -/
def trimmed (text : String) : String :=
  String.ofList (Text.trim text.toList)

variable {depth : Nat} {s s' : Session} {text : String} {texts : List String} {t : Token}
  {begun lines : List String} {l : String}

/-! ## Line ends -/

theorem splitLineEnd_append (cs : List Char) : (splitLineEnd cs).1 ++ (splitLineEnd cs).2 = cs := by
  rw [← List.reverse_inj]
  unfold splitLineEnd
  split <;> simp_all

theorem mem_splitLineEnd {c : Char} {cs : List Char} (h : c ∈ (splitLineEnd cs).2) :
    c = '\r' ∨ c = '\n' := by
  unfold splitLineEnd at h
  split at h <;> simp_all

theorem trim_append_spaces {cs ds : List Char} (h : ∀ d ∈ ds, Text.isSpace d) :
    Text.trim (cs ++ ds) = Text.trim cs := by
  have htrimEnd : ∀ front, Text.trimEnd (front ++ ds) = Text.trimEnd front := by
    intro front
    rw [Text.trimEnd, Text.trimEnd, List.reverse_append,
      List.dropWhile_append_of_pos fun d hd => h d (List.mem_reverse.mp hd)]
  rw [Text.trim, Text.trim, List.dropWhile_append]
  split
  next hnil =>
    rw [List.isEmpty_iff.mp hnil, ← List.append_nil ds, List.dropWhile_append_of_pos h]
    rfl
  next => exact htrimEnd _

/-- The text before the line end at its end. -/
def typed (text : String) : String :=
  String.ofList (splitLineEnd text.toList).1

theorem verdict_typed (text : String) : verdict (typed text) = verdict text := by
  have hblank : ∀ c ∈ (splitLineEnd text.toList).2, isBlank c := by
    intro c hc
    rcases mem_splitLineEnd hc with rfl | rfl <;> rfl
  change judge [] (scan 0 (typed text).toList) = judge [] (scan 0 text.toList)
  rw [typed, String.toList_ofList, ← scan_append_blanks hblank, splitLineEnd_append]

theorem trimmed_typed (text : String) : trimmed (typed text) = trimmed text := by
  have hspace : ∀ c ∈ (splitLineEnd text.toList).2, Text.isSpace c := by
    intro c hc
    rcases mem_splitLineEnd hc with rfl | rfl <;> rfl
  rw [trimmed, trimmed, typed, String.toList_ofList, ← trim_append_spaces hspace,
    splitLineEnd_append]

theorem notMem_typed {c : Char} (h : c ∉ text.toList) : c ∉ (typed text).toList := by
  rw [typed, String.toList_ofList]
  intro hmem
  rw [← splitLineEnd_append text.toList] at h
  exact h (List.mem_append_left _ hmem)

theorem notMem_join {c : Char} (h : ∀ l ∈ lines, c ∉ l.toList) :
    c ∉ (String.join lines).toList := by
  rw [String.toList_join, List.mem_flatMap]
  rintro ⟨l, hl, hmem⟩
  exact h l hl hmem

/-! ## One more line -/

namespace Session

/-- What is typed without backspaces is judged as it is, and run or kept. -/
theorem feed_eq (h : Text.backspace ∉ (s.pending ++ l).toList) :
    s.feed depth l =
      match verdict (s.pending ++ l) with
      | .closed => execute depth { s with pending := "" } (s.pending ++ l)
      | .unfinished => .ok ⟨.nothing, some { s with pending := s.pending ++ l }⟩
      | .unmatched t =>
          .ok ⟨.complaint (unmatchedMessage t),
            some { s with pending := typed (s.pending ++ l) }⟩ := by
  generalize htext : s.pending ++ l = text at h ⊢
  have hkept : Text.eraseBackspaces (splitLineEnd text.toList).1 =
      some (splitLineEnd text.toList).1 := by
    have htyped := notMem_typed h
    rw [typed, String.toList_ofList] at htyped
    exact Text.eraseBackspaces_eq_some_self htyped
  have hpending : typed text ++ String.ofList (splitLineEnd text.toList).2 = text := by
    rw [typed, ← String.ofList_append, splitLineEnd_append, String.ofList_toList]
  have hexecute : ∀ s : Session, s.execute depth (typed text) = s.execute depth text := by
    intro s
    have htrim := trimmed_typed text
    rw [trimmed, trimmed] at htrim
    rw [execute, htrim, execute]
  rw [feed, htext]
  simp only [hkept]
  change (match verdict (typed text) with | .closed => _ | .unfinished => _ | .unmatched t => _) = _
  rw [verdict_typed]
  cases verdict text with
  | closed => exact hexecute _
  | unfinished =>
      rw [typed] at hpending
      simp only [hpending]
  | unmatched t => rfl

end Session

/-! ## The word that ends a session -/

theorem isWordChar_of_toLower {c : Char} (h : isWordChar c.toLower) : isWordChar c := by
  unfold Char.toLower at h
  split at h
  next hupper =>
    obtain ⟨hA, hZ⟩ := hupper
    have hA' : 'A' ≤ c := hA
    have hZ' : c ≤ 'Z' := hZ
    simp [isWordChar, hA', hZ']
  next => exact h

theorem errors_of_name {t eof : Token} (h : t.kind = .ident) :
    (Parse.statements eof [t]).2 = [] := by
  have hstatement : (Parse.statement eof t []).1 =
      .done (.expr t (.ident ⟨t, t.literal⟩)) t [] := by
    rw [Parse.statement_expr (by simp [h]) (by simp [h]) (by simp [h]), Parse.expressionAt_eq,
      Parse.operand_ident h]
    change ((Parse.operators eof .lowest (.ident ⟨t, t.literal⟩) t []).1.andThen _) = _
    rw [Parse.operators_nil]
    rfl
  rw [Parse.statements_cons, hstatement]
  simp [Reply.done, Parse.statements_nil]

theorem map_toLower_of_isExit {input : String} (h : isExit input) :
    input.toList.map Char.toLower = ['e', 'x', 'i', 't'] := by
  rw [← String.toList_map, of_decide_eq_true h]
  rfl

theorem ne_empty_of_isExit {input : String} (h : isExit input) : input ≠ "" := by
  rintro rfl
  cases map_toLower_of_isExit h

/-- The word that ends a session has no syntax errors. -/
theorem errors_eq_nil_of_isExit {input : String} (h : isExit input) :
    (parse input).errors = [] := by
  have hlower := map_toLower_of_isExit h
  have hkind : Kind.ofWord input = .ident := by
    refine Kind.ofWord_eq_ident_iff.mpr fun w hw => ?_
    rw [hw] at hlower
    revert hlower
    cases w <;> decide
  have hword : ∀ c ∈ input.toList, isWordChar c := by
    intro c hc
    have hmem := List.mem_map_of_mem (f := Char.toLower) hc
    rw [hlower] at hmem
    have hletters : ∀ d ∈ ['e', 'x', 'i', 't'], isWordChar d := List.all_eq_true.mp rfl
    exact isWordChar_of_toLower (hletters _ hmem)
  have hne : input.toList ≠ [] := fun hnil =>
    ne_empty_of_isExit h (String.toList_eq_nil_iff.mp hnil)
  have htokens : scan 0 (input.toList ++ []) = _ := scan_word hne hword (by simp)
  rw [List.append_nil, String.ofList_toList, hkind, scan_nil] at htokens
  change (Parse.statements _ (scan 0 input.toList)).2 = []
  rw [htokens]
  exact errors_of_name rfl

/-! ## One piece -/

/-- A text that does not end the session, run in the frame: what is answered, and the store
afterwards. -/
inductive Answered (env : FrameId) (store : Store) (text : String) : String → Store → Prop where
  /-- To white space nothing is answered. -/
  | blank : trimmed text = "" → Answered env store text "" store
  /-- A text with syntax errors is not run. -/
  | faulty : (parse (trimmed text)).errors ≠ [] → Answered env store text "" store
  /-- A program is run, and what it results in is shown unless it ends by binding a name. -/
  | run {depth : Nat} {v : Value} {store' : Store} : trimmed text ≠ "" →
      ¬isExit (trimmed text) → (parse (trimmed text)).errors = [] →
      evaluate depth (parse (trimmed text)).program.erase env store = some (v, store') →
      Answered env store text
        (if (parse (trimmed text)).program.endsWithLet then "" else v.inspect ++ "\n") store'

namespace Session

theorem execute_of_blank (h : trimmed text = "") :
    s.execute depth text = .ok ⟨.nothing, some s⟩ := by
  unfold execute
  exact if_pos h

theorem execute_of_exit (h : isExit (trimmed text)) :
    s.execute depth text = .ok ⟨.nothing, none⟩ := by
  unfold execute
  exact (if_neg (ne_empty_of_isExit h)).trans (if_pos h)

theorem execute_of_faulty (depth : Nat) (s : Session) (h : (parse (trimmed text)).errors ≠ []) :
    ∃ complaints, s.execute depth text = .ok ⟨.complaint complaints, some s⟩ := by
  have hne : trimmed text ≠ "" := by
    intro hblank
    rw [hblank] at h
    exact h (by decide +kernel)
  have hexit : ¬isExit (trimmed text) := fun hexit => h (errors_eq_nil_of_isExit hexit)
  have herrors : ¬(parse (trimmed text)).errors.isEmpty := by simpa using h
  unfold execute
  exact ⟨_, (if_neg hne).trans <| (if_neg hexit).trans <| if_neg herrors⟩

/-- A program without syntax errors is run. -/
theorem execute_of_program (depth : Nat) (s : Session) (hne : trimmed text ≠ "")
    (hexit : ¬isExit (trimmed text)) (h : (parse (trimmed text)).errors = []) :
    s.execute depth text =
      match evaluate depth (parse (trimmed text)).program.erase s.env s.store with
      | none => .error .tooDeep
      | some (v, store) =>
          .ok ⟨.answer (if (parse (trimmed text)).program.endsWithLet then "" else
            v.inspect ++ "\n"), some { s with store }⟩ := by
  have herrors : (parse (trimmed text)).errors.isEmpty := by simpa using h
  unfold execute
  exact (if_neg hne).trans <| (if_neg hexit).trans <| if_pos herrors

/-- Running a text ends the session, fails, or answers and goes on. -/
theorem execute_cases (depth : Nat) (s : Session) (text : String) :
    isExit (trimmed text) ∨ s.execute depth text = .error .tooDeep ∨
      ∃ out store complaints, Answered s.env s.store text out store ∧
        s.execute depth text = .ok ⟨⟨out, complaints⟩, some { s with store }⟩ := by
  by_cases hblank : trimmed text = ""
  · exact .inr (.inr ⟨"", s.store, "", .blank hblank, execute_of_blank hblank⟩)
  by_cases hexit : isExit (trimmed text)
  · exact .inl hexit
  by_cases herrors : (parse (trimmed text)).errors = []
  · have hrun := execute_of_program depth s hblank hexit herrors
    cases heval : evaluate depth (parse (trimmed text)).program.erase s.env s.store with
    | none =>
        rw [heval] at hrun
        exact .inr (.inl hrun)
    | some r =>
        rw [heval] at hrun
        exact .inr (.inr ⟨_, _, _, .run hblank hexit herrors heval, hrun⟩)
  · obtain ⟨complaints, hfaulty⟩ := execute_of_faulty depth s herrors
    exact .inr (.inr ⟨"", s.store, complaints, .faulty herrors, hfaulty⟩)

theorem exists_store_of_execute {turn : Turn} (h : s.execute depth text = .ok turn)
    (hnext : turn.next? = some s') : ∃ store, s' = { s with store } := by
  rcases execute_cases depth s text with hexit | hdeep | ⟨out, store, complaints, -, hrun⟩
  · rw [execute_of_exit hexit] at h
    cases h
    cases hnext
  · cases hdeep.symm.trans h
  · cases hrun.symm.trans h
    cases hnext
    exact ⟨store, rfl⟩

end Session

/-! ## Answers -/

theorem map_eq_ok_iff {α β ε : Type} {x : Except ε α} {f : α → β} {b : β} :
    x.map f = .ok b ↔ ∃ a, x = .ok a ∧ f a = b := by
  cases x <;> simp [Except.map]

/-- The answers of a turn, and those of the session behind it if it goes on. -/
def answersThen (turn : Except Breakdown Turn) (more : Session → Except Breakdown String) :
    Except Breakdown String := do
  let turn ← turn
  match turn.next? with
  | none => return turn.written.answers
  | some s => return turn.written.answers ++ (← more s)

theorem answersThen_congr {turn : Except Breakdown Turn}
    {more more' : Session → Except Breakdown String}
    (h : ∀ t s, turn = .ok t → t.next? = some s → more s = more' s) :
    answersThen turn more = answersThen turn more' := by
  match turn with
  | .error b => rfl
  | .ok ⟨written, none⟩ => rfl
  | .ok ⟨written, some s⟩ =>
      change (do return written.answers ++ (← more s)) = _
      rw [h _ s rfl rfl]
      rfl

theorem answersThen_of_next {written : Written} {more : Session → Except Breakdown String} :
    answersThen (.ok ⟨written, some s⟩) more = (more s).map (written.answers ++ ·) := by
  change (do return written.answers ++ (← more s)) = _
  cases more s <;> rfl

theorem answersThen_of_silent {written : Written} {more : Session → Except Breakdown String}
    (h : written.answers = "") : answersThen (.ok ⟨written, some s⟩) more = more s := by
  rw [answersThen_of_next, h]
  cases more s with
  | error b => rfl
  | ok out => exact congrArg Except.ok String.empty_append

namespace Session

/-- The answers to texts that are run one after the other, up to the end of the session. -/
def replies (depth : Nat) (s : Session) : List String → Except Breakdown String
  | [] => .ok farewell
  | text :: texts => answersThen (s.execute depth text) (·.replies depth texts)

theorem answers_readAll_cons (l : String) (lines : List String) :
    (s.readAll depth (l :: lines)).map Written.answers =
      answersThen (s.feed depth l) fun s => (s.readAll depth lines).map Written.answers := by
  rw [readAll]
  match s.feed depth l with
  | .error b => rfl
  | .ok ⟨written, none⟩ => rfl
  | .ok ⟨written, some s'⟩ =>
      change (do return written.append (← s'.readAll depth lines)).map _ =
        (do return written.answers ++ (← (s'.readAll depth lines).map Written.answers))
      cases s'.readAll depth lines <;> rfl

/-- Behind a bracket that does not match, nothing is answered. -/
theorem answers_readAll_of_unmatched (hpending : verdict s.pending = .unmatched t)
    (hkept : ∀ l ∈ s.pending :: lines, Text.backspace ∉ l.toList) :
    (s.readAll depth lines).map Written.answers = .ok farewell := by
  induction lines generalizing s with
  | nil => rfl
  | cons l lines ih =>
      obtain ⟨htyped, hkept⟩ := List.forall_mem_cons.mp hkept
      obtain ⟨hl, hkept⟩ := List.forall_mem_cons.mp hkept
      have htext : Text.backspace ∉ (s.pending ++ l).toList := by
        simp [htyped, hl]
      rw [answers_readAll_cons, feed_eq htext, verdict_append_of_unmatched hpending]
      simp only
      rw [answersThen_of_silent rfl]
      refine ih ?_ (List.forall_mem_cons.mpr ⟨?_, hkept⟩)
      · rw [verdict_typed, verdict_append_of_unmatched hpending]
      · exact notMem_typed htext

/-- The answers of a session are those to the pieces of its input. -/
theorem answers_readAll (depth : Nat) (s : Session) (begun : List String)
    (hpending : s.pending = String.join begun)
    (hkept : ∀ l ∈ begun ++ lines, Text.backspace ∉ l.toList) :
    (s.readAll depth lines).map Written.answers =
      replies depth { s with pending := "" } ((cut begun lines).1.map String.join) := by
  -- what is typed and not run are the lines of the piece that has begun
  induction lines generalizing s begun with
  | nil => rfl
  | cons l lines ih =>
      have hjoin : s.pending ++ l = String.join (begun ++ [l]) := by
        rw [hpending, String.join_append, String.join_cons, String.join_nil, String.append_empty]
      have hkept' : ∀ m ∈ (begun ++ [l]) ++ lines, Text.backspace ∉ m.toList := by
        simpa using hkept
      have htext : Text.backspace ∉ (s.pending ++ l).toList := by
        rw [hjoin]
        exact notMem_join fun m hm => hkept' m (List.mem_append_left _ hm)
      rw [answers_readAll_cons, feed_eq htext, hjoin]
      cases hverdict : verdict (String.join (begun ++ [l])) with
      | closed =>
          rw [cut_of_closed hverdict, List.map_cons, replies]
          refine answersThen_congr fun turn s' hturn hnext => ?_
          obtain ⟨store, rfl⟩ := exists_store_of_execute hturn hnext
          exact ih _ [] rfl fun m hm => hkept' m (List.mem_append_right _ hm)
      | unfinished =>
          rw [cut_of_not_closed hverdict Verdict.noConfusion]
          simp only
          rw [answersThen_of_silent rfl]
          exact ih _ _ rfl hkept'
      | unmatched t =>
          rw [cut_of_not_closed hverdict Verdict.noConfusion, cut_of_unmatched hverdict]
          simp only
          rw [answersThen_of_silent rfl]
          refine answers_readAll_of_unmatched ((verdict_typed _).trans hverdict) ?_
          refine List.forall_mem_cons.mpr ⟨?_, fun m hm => hkept' m (List.mem_append_right _ hm)⟩
          rw [hjoin] at htext
          exact notMem_typed htext

/-- A text is answered to as soon as calls may be nested deeply enough. -/
theorem eventually_execute {out : String} {store : Store}
    (h : Answered s.env s.store text out store) : ∀ᶠ depth in atTop,
      ∃ complaints, s.execute depth text = .ok ⟨⟨out, complaints⟩, some { s with store }⟩ := by
  cases h with
  | blank hblank => exact .of_forall fun depth => ⟨"", execute_of_blank hblank⟩
  | faulty herrors => exact .of_forall fun depth => execute_of_faulty depth s herrors
  | run hne hexit herrors heval =>
      filter_upwards [eventually_evaluate heval] with depth heval
      refine ⟨"", (execute_of_program depth s hne hexit herrors).trans ?_⟩
      rw [heval]
      rfl

end Session

/-! ## Dialogues -/

/-- Texts are run one after the other in the frame, each in the store that the ones before it
have left, up to the word that ends the session: what is answered to each of them, and whether
the word was met. -/
inductive Dialogue (env : FrameId) : Store → List String → List String → Bool → Prop where
  | ended {store : Store} : Dialogue env store [] [] false
  | exit {store : Store} {text : String} {texts : List String} : isExit (trimmed text) →
      Dialogue env store (text :: texts) [] true
  | next {store store' : Store} {text out : String} {texts outs : List String} {exited : Bool} :
      Answered env store text out store' → Dialogue env store' texts outs exited →
      Dialogue env store (text :: texts) (out :: outs) exited

/-- What is written behind the last answer: a farewell, unless it was asked for the end. -/
def ending (exited : Bool) : String :=
  if exited then "" else farewell

namespace Session

/-- What is answered to texts is a dialogue about them. -/
theorem exists_dialogue_of_replies {out : String} (h : s.replies depth texts = .ok out) :
    ∃ outs exited, Dialogue s.env s.store texts outs exited ∧
      out = String.join outs ++ ending exited := by
  induction texts generalizing s out with
  | nil =>
      cases h
      exact ⟨[], false, .ended, rfl⟩
  | cons text texts ih =>
      rw [replies] at h
      rcases execute_cases depth s text with hexit | hdeep | ⟨first, store, _, hfirst, hrun⟩
      · rw [execute_of_exit hexit] at h
        cases h
        exact ⟨[], true, .exit hexit, rfl⟩
      · rw [hdeep] at h
        cases h
      · rw [hrun, answersThen_of_next] at h
        obtain ⟨more, hmore, rfl⟩ := map_eq_ok_iff.mp h
        obtain ⟨outs, exited, hdialogue, rfl⟩ := ih hmore
        refine ⟨first :: outs, exited, .next hfirst hdialogue, ?_⟩
        rw [String.join_cons, String.append_assoc]

/-- If all texts up to the end of the session come to an end, they are answered to. -/
theorem eventually_replies {outs : List String} {exited : Bool}
    (h : Dialogue s.env s.store texts outs exited) :
    ∀ᶠ depth in atTop, s.replies depth texts = .ok (String.join outs ++ ending exited) := by
  generalize hstore : s.store = store at h
  generalize henv : s.env = env at h
  induction h generalizing s with
  | ended => exact .of_forall fun depth => rfl
  | exit hexit =>
      refine .of_forall fun depth => ?_
      rw [replies, execute_of_exit hexit]
      rfl
  | next hfirst _ ih =>
      subst hstore henv
      filter_upwards [eventually_execute hfirst, @ih { s with store := _ } rfl rfl]
        with depth ⟨complaints, hrun⟩ hmore
      rw [replies, hrun, answersThen_of_next, hmore, String.join_cons, String.append_assoc]
      rfl

end Session

end Monkey.Console
