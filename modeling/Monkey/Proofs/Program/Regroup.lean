import Mathlib.Data.List.Chain
import Monkey.Proofs.Program.RoundTrip

/-!
# Statements one below the other

When statements are written on lines of their own and nothing but the line ends separates them,
an expression statement does not end where its line does: if the next statement begins with a
parenthesis, then what stands there is what the expression is called with. The statements that
are read instead are given by `regroup` (`derives_regroup`). They are the ones that were written
if and only if no expression statement runs into the next one (`regroup_eq_self_iff`).
-/

namespace Monkey

/-- The text of the expression begins with a parenthesis. -/
def Expr.opensParen : Expr Unit → Bool
  | .unary _ _ _ | .binary _ _ _ _ => true
  | .call _ callee _ => callee.opensParen
  | _ => false

/-- How an expression whose text begins with a parenthesis is read behind the expression `f`:
its first part is what `f` is called with. -/
def Expr.behind : Expr Unit → Expr Unit → Expr Unit
  | .call t callee args, f => .call t (callee.behind f) args
  | e, f => .call () f [e]

/-- What is read where the statements stand one below the other. -/
def regroup : List (Stmt Unit) → List (Stmt Unit)
  | .expr t f :: .expr t' e :: ss =>
      if e.opensParen then regroup (.expr t (e.behind f) :: ss)
      else .expr t f :: regroup (.expr t' e :: ss)
  | s :: ss => s :: regroup ss
  | [] => []
termination_by ss => ss.length

/-- The statement is an expression, and the one below it continues this expression. -/
def Stmt.RunsInto : Stmt Unit → Stmt Unit → Prop
  | .expr _ _, .expr _ e => e.opensParen
  | _, _ => False

variable {s s' : Stmt Unit} {ss : List (Stmt Unit)} {e f : Expr Unit}

/-! ## Which statements stay as they are -/

theorem regroup_of_opensParen (h : e.opensParen) :
    regroup (.expr () f :: .expr () e :: ss) = regroup (.expr () (e.behind f) :: ss) := by
  rw [regroup, if_pos h]

theorem regroup_cons (h : ∀ s' ∈ ss.head?, ¬s.RunsInto s') :
    regroup (s :: ss) = s :: regroup ss := by
  match s, ss with
  | .expr t f, .expr t' e :: ss =>
      have he : ¬e.opensParen := h _ rfl
      rw [regroup, if_neg he]
  | .expr t f, [] | .expr t f, .let_ _ _ _ :: ss | .expr t f, .return_ _ _ :: ss
  | .expr t f, .block _ :: ss => rw [regroup]; simp
  | .let_ _ _ _, ss | .return_ _ _, ss | .block _, ss => rw [regroup]; simp

theorem regroup_nil : regroup [] = [] := by
  rw [regroup]

/-- Where a statement runs into the next one, the two are read as one. -/
theorem length_regroup_cons_le (s : Stmt Unit) (ss : List (Stmt Unit)) :
    (regroup (s :: ss)).length ≤ ss.length + 1 := by
  induction ss generalizing s with
  | nil =>
      rw [regroup_cons (by simp), regroup_nil]
      exact Nat.le_refl 1
  | cons s' ss ih =>
      by_cases h : s.RunsInto s'
      · match s, s', h with
        | .expr t f, .expr t' e, h =>
            rw [regroup_of_opensParen h]
            exact Nat.le_succ_of_le (ih _)
      · rw [regroup_cons (by simpa using h)]
        exact Nat.succ_le_succ (ih s')

theorem length_regroup_lt (h : s.RunsInto s') :
    (regroup (s :: s' :: ss)).length < ss.length + 2 := by
  match s, s', h with
  | .expr t f, .expr t' e, h =>
      rw [regroup_of_opensParen h]
      exact Nat.lt_succ_of_le (length_regroup_cons_le _ ss)

/-- The statements are read as they are exactly if none runs into the next one. -/
theorem regroup_eq_self_iff : regroup ss = ss ↔ ss.IsChain fun s s' => ¬s.RunsInto s' := by
  induction ss with
  | nil => simp [regroup_nil]
  | cons s ss ih =>
      rw [List.isChain_cons, ← ih]
      by_cases h : ∀ s' ∈ ss.head?, ¬s.RunsInto s'
      · rw [regroup_cons h, List.cons.injEq, and_iff_right rfl, and_iff_right h]
      · refine ⟨fun heq => ?_, fun hchain => absurd hchain.1 h⟩
        push Not at h
        obtain ⟨s', hs', h⟩ := h
        obtain ⟨ss, rfl⟩ : ∃ ts, ss = s' :: ts := List.head?_eq_some_iff.mp hs'
        have hlt : (regroup (s :: s' :: ss)).length < ss.length + 2 := length_regroup_lt h
        rw [heq] at hlt
        exact absurd hlt (Nat.lt_irrefl _)

/-! ## What is read -/

namespace Grammar

variable {offset : Nat} {c : Char} {cs : List Char} {us : List Token}

/-- The texts of the statements, each behind a line end. -/
def lines (ss : List (Stmt Unit)) : List Char :=
  ss.flatMap fun s => '\n' :: s.render.toList

theorem toList_intercalate_lines :
    ("\n".intercalate ((s :: ss).map Stmt.render)).toList = s.render.toList ++ lines ss := by
  induction ss generalizing s with
  | nil => simp [lines]
  | cons s' ss ih =>
      have hmore := ih (s := s')
      rw [List.map_cons] at hmore
      rw [List.map_cons, List.map_cons, String.intercalate_cons_cons, String.toList_append,
        String.toList_append, hmore]
      simp [lines]

/-- A line end belongs to no token. -/
theorem scan_lines_cons :
    scan offset (lines (s :: ss)) =
      scan (offset + '\n'.utf8Size) s.render.toList ++
        scan (offset + '\n'.utf8Size + byteCount s.render.toList) (lines ss) := by
  have hapart : Apart s.render.toList (lines ss) := by
    cases ss with
    | nil => simp [Apart, lines]
    | cons s' ss => exact apart_cons (by decide) (by decide) (by decide)
  rw [lines, List.flatMap_cons, List.cons_append, scan_blank rfl]
  exact scan_append hapart

/-! ### How texts begin -/

/-- The first character of a word or a number. -/
def Starts (c : Char) : Prop :=
  isWordChar c ∨ isDigit c

/-- The text of an expression begins with a word or a number, if not with a parenthesis. -/
theorem exists_render_cons {e : Expr Unit} (h : e.Writable) (hparen : ¬e.opensParen) :
    ∃ c cs, e.render.toList = c :: cs ∧ Starts c := by
  match e with
  | .ident id =>
      have hne : id.name.toList ≠ [] := by simpa using h.1
      obtain ⟨c, cs, hcs⟩ := List.exists_cons_of_ne_nil hne
      exact ⟨c, cs, hcs, .inl (h.2.1 c (hcs ▸ List.mem_cons_self))⟩
  | .int _ n =>
      obtain ⟨k, htext, -, -⟩ := exists_toDigits h
      obtain ⟨c, cs, hcs⟩ := List.exists_cons_of_ne_nil (Nat.toDigits_ne_nil (n := k) (b := 10))
      exact ⟨c, cs, htext.trans hcs, .inr (isDigit_of_mem_toDigits (hcs ▸ List.mem_cons_self))⟩
  | .bool _ true => exact ⟨'t', _, by simp [Expr.render]; rfl, .inl (by decide)⟩
  | .bool _ false => exact ⟨'f', _, by simp [Expr.render]; rfl, .inl (by decide)⟩
  | .unary _ _ _ | .binary _ _ _ _ => exact absurd rfl hparen
  | .cond _ _ _ none => exact ⟨'i', _, by simp [Expr.render]; rfl, .inl (by decide)⟩
  | .cond _ _ _ (some _) => exact ⟨'i', _, by simp [Expr.render]; rfl, .inl (by decide)⟩
  | .function _ _ _ => exact ⟨'f', _, by simp [Expr.render]; rfl, .inl (by decide)⟩
  | .call _ callee args =>
      obtain ⟨c, cs, hcs, hc⟩ := exists_render_cons h.1 hparen
      exact ⟨c, _, by simp only [Expr.render, String.toList_append, hcs, List.cons_append]; rfl, hc⟩

/-- The text of a statement that does not continue the expression above it begins with a word, a
number or a brace. -/
theorem exists_render_cons_of_not_runsInto {t : Unit} (h : s.Writable)
    (hruns : ¬Stmt.RunsInto (.expr t f) s) :
    ∃ c cs, s.render.toList = c :: cs ∧ (Starts c ∨ c = '{') := by
  match s with
  | .let_ _ _ _ => exact ⟨'l', _, by simp [Stmt.render]; rfl, .inl (.inl (by decide))⟩
  | .return_ _ _ => exact ⟨'r', _, by simp [Stmt.render]; rfl, .inl (.inl (by decide))⟩
  | .expr _ e =>
      rw [Stmt.Writable] at h
      obtain ⟨c, cs, hcs, hc⟩ := exists_render_cons h hruns
      exact ⟨c, cs, hcs, .inl hc⟩
  | .block ⟨_, []⟩ => exact ⟨'{', _, by simp [Stmt.render, Block.render]; rfl, .inr rfl⟩
  | .block ⟨_, _ :: _⟩ => exact ⟨'{', _, by simp [Stmt.render, Block.render]; rfl, .inr rfl⟩

theorem not_continues_scan (h : Starts c ∨ c = '{') : ¬Continues (scan offset (c :: cs)) := by
  obtain (hword | hdigit) | rfl := h
  · rw [scan_cons (not_isBlank_of_isWordChar hword), continues_cons, lexeme_word hword]
    dsimp only
    rw [Kind.ofWord]
    split <;> simp
  · rw [scan_cons (not_isBlank_of_isDigit hdigit), continues_cons,
      lexeme_digit (not_isWordChar_of_isDigit hdigit) hdigit]
    simp
  · rw [scan_mark (by decide), continues_cons]
    simp [Token.cut, Kind.ofMark]

/-! ### Regrouped statements -/

/-- An expression in parentheses is also one argument in parentheses. -/
theorem spells_arg (h : Spells (.expr .lowest e) cs) :
    Spells (.args [e]) ('(' :: (cs ++ [')'])) := by
  intro offset
  rw [scan_parens]
  exact .someArgs rfl (.lastExpr (h _)) rfl

/-- Behind an expression, one that begins with a parenthesis belongs to it. -/
theorem derives_behind {e : Expr Unit} (h : e.Writable) (hparen : e.opensParen)
    (hf : Derives true (.called f) us) :
    Derives true (.called (e.behind f)) (us ++ scan offset e.render.toList) := by
  match e with
  | .unary t op operand =>
      have hoperand : Spells (.called operand) operand.render.toList := by
        rw [Expr.Writable] at h
        simpa [Expr.erase_unit] using spells_expr h
      have harg : Spells (.args [.unary () op operand]) _ := spells_arg (spells_unary hoperand)
      exact .call hf (by simpa [Expr.render] using harg offset)
  | .binary t op left right =>
      have hleft : Spells (.called left) left.render.toList := by
        simpa [Expr.erase_unit] using spells_expr h.1
      have hright : Spells (.called right) right.render.toList := by
        simpa [Expr.erase_unit] using spells_expr h.2
      have harg : Spells (.args [.binary () op left right]) _ :=
        spells_arg (spells_binary hleft hright)
      exact .call hf (by simpa [Expr.render] using harg offset)
  | .call t callee args =>
      have hargs := spells_args (spells_allExpr h.2)
      rw [Expr.map_erase_unit] at hargs
      have hcallee := derives_behind h.1 hparen hf
      have hcall := Derives.call hcallee (hargs (offset + byteCount callee.render.toList))
      rw [List.append_assoc, ← scan_append_breaks (by decide)] at hcall
      rw [Expr.behind]
      simpa [Expr.render] using hcall

/-- A statement that is no expression is ended by its last character. -/
theorem spells_of_separator (h : s.Writable) (hs : s.separator = " ") :
    Spells (.statement s .mark) s.render.toList := by
  intro offset
  have hmark := (spells_stmt h).2 offset
  rw [hs, Stmt.erase_unit] at hmark
  have hblank : ∀ d ∈ " ".toList, isBlank d := by simp [isBlank]
  rwa [scan_append_blanks hblank] at hmark

/-- What is below a statement does not continue it, if it does not run into it. -/
theorem not_continues_lines {t : Unit} (hss : ∀ s ∈ ss, s.Writable)
    (hruns : ∀ s' ∈ ss.head?, ¬Stmt.RunsInto (.expr t f) s') :
    ¬Continues (scan offset (lines ss)) := by
  cases ss with
  | nil =>
      rw [lines, List.flatMap_nil, scan_nil]
      exact not_continues_nil
  | cons s ss =>
      obtain ⟨c, cs, hcs, hc⟩ :=
        exists_render_cons_of_not_runsInto (hss s List.mem_cons_self) (hruns s rfl)
      rw [lines, List.flatMap_cons, List.cons_append, scan_blank rfl, hcs, List.cons_append]
      exact not_continues_scan hc

/-- The regrouped statements are read, on their own and behind an expression. -/
theorem derives_regroup (hss : ∀ s ∈ ss, s.Writable) :
    (∀ offset, Derives true (.statements (regroup ss)) (scan offset (lines ss))) ∧
    ∀ f us offset, Derives true (.called f) us →
      Derives true (.statements (regroup (.expr () f :: ss))) (us ++ scan offset (lines ss)) := by
  induction ss with
  | nil =>
      have hnil : ∀ offset, Derives true (.statements []) (scan offset (lines [])) := by
        intro offset
        rw [lines, List.flatMap_nil, scan_nil]
        exact .done
      refine ⟨fun offset => by rw [regroup_nil]; exact hnil offset, fun f us offset hf => ?_⟩
      rw [regroup_cons (by simp), regroup_nil]
      exact .next (.unclosed (.expr hf.called.loosest)) (hnil offset)
        fun _ _ => not_continues_lines hss (f := f) (t := ()) (by simp)
  | cons s ss ih =>
      obtain ⟨hs, htail⟩ := List.forall_mem_cons.mp hss
      obtain ⟨hfirst, hbehind⟩ := ih htail
      -- first the statements on their own
      have hown : ∀ offset, Derives true (.statements (regroup (s :: ss)))
          (scan offset (lines (s :: ss))) := by
        intro offset
        rw [scan_lines_cons]
        match s, hs with
        | .expr _ e, hs =>
            rw [Stmt.Writable] at hs
            have he := spells_expr hs
            rw [Expr.erase_unit] at he
            exact hbehind e _ _ (he _)
        | .let_ _ _ _, hs | .return_ _ _, hs | .block _, hs =>
            rw [regroup_cons fun _ _ => id]
            exact .next (spells_of_separator hs rfl _) (hfirst _) (by simp)
      refine ⟨hown, fun f us offset hf => ?_⟩
      by_cases hruns : Stmt.RunsInto (.expr () f) s
      · match s, hs, hruns with
        | .expr _ e, hs, hruns =>
            rw [Stmt.Writable] at hs
            rw [regroup_of_opensParen hruns, scan_lines_cons, ← List.append_assoc]
            exact hbehind _ _ _ (derives_behind hs hruns hf)
      · have hnot : ∀ s' ∈ (s :: ss).head?, ¬Stmt.RunsInto (.expr () f) s' := by
          simpa using hruns
        rw [regroup_cons hnot]
        exact .next (.unclosed (.expr hf.called.loosest)) (hown offset)
          fun _ _ => not_continues_lines hss hnot

/-- Statements on lines of their own, in braces. -/
theorem spells_linesInBraces (hss : ∀ s ∈ ss, s.Writable) :
    Spells (.block ⟨(), regroup ss⟩)
      ('{' :: '\n' :: (("\n".intercalate (ss.map Stmt.render)).toList ++ ['\n', '}'])) := by
  intro offset
  have hlines : ∀ offset, scan offset ('\n' :: ("\n".intercalate (ss.map Stmt.render)).toList) =
      scan offset (lines ss) := by
    intro offset
    cases ss with
    | nil => simp [scan_blank, scan_nil, isBlank, lines]
    | cons s ss =>
        rw [toList_intercalate_lines]
        rfl
  rw [scan_mark (by decide), ← List.cons_append, scan_append_breaks (by decide), hlines,
    scan_blank rfl, scan_mark (by decide), scan_nil]
  exact .braces rfl ((derives_regroup hss).1 _) rfl

end Grammar

end Monkey
