import Monkey.Console.Session
import Monkey.Proofs.Console.Brackets

/-!
# Pieces of input

The lines of an input are cut into pieces: each piece is the shortest run of lines, from where
the one before ended, in which all brackets are closed. What is left at the end has no beginning
of this sort. There is one way to cut the lines so (`Cut.unique`), and going through them line
by line finds it (`cut_spec`).
-/

namespace Monkey.Console

/-! ## Lines -/

/-- The lines of an input, each with its line feed. -/
def linesOf (input : String) : List String :=
  (inputLines input.toList).map String.ofList

/-- A line feed ends each line, except that the last one may do without. -/
inductive AreLines : List (List Char) → Prop where
  | nil : AreLines []
  | last {l : List Char} : l ≠ [] → '\n' ∉ l → AreLines [l]
  | cons {l : List Char} {ls : List (List Char)} : '\n' ∉ l → AreLines ls →
      AreLines ((l ++ ['\n']) :: ls)

theorem areLines_inputLines (cs : List Char) : AreLines (inputLines cs) := by
  induction cs with
  | nil => exact .nil
  | cons c cs ih =>
      rw [inputLines]
      split
      next hc => exact .cons (l := []) List.not_mem_nil ih
      next hc =>
        generalize inputLines cs = ls at ih
        have hne : '\n' ≠ c := fun h => hc h.symm
        cases ih with
        | nil => exact .last (List.cons_ne_nil c []) (by simpa using hne)
        | last _ hl => exact .last (List.cons_ne_nil c _) (by simp [hne, hl])
        | cons hl hls => exact .cons (l := c :: _) (by simp [hne, hl]) hls

theorem inputLines_append_feed {l cs : List Char} (hl : '\n' ∉ l) :
    inputLines (l ++ '\n' :: cs) = (l ++ ['\n']) :: inputLines cs := by
  induction l with
  | nil => rw [List.nil_append, inputLines, if_pos rfl, List.nil_append]
  | cons c l ih =>
      obtain ⟨hc, hl⟩ := List.ne_and_not_mem_of_not_mem_cons hl
      rw [List.cons_append, inputLines, if_neg (Ne.symm hc), ih hl]
      rfl

theorem inputLines_of_no_feed {l : List Char} (hne : l ≠ []) (hl : '\n' ∉ l) :
    inputLines l = [l] := by
  induction l with
  | nil => exact absurd rfl hne
  | cons c l ih =>
      obtain ⟨hc, hl⟩ := List.ne_and_not_mem_of_not_mem_cons hl
      rw [inputLines, if_neg (Ne.symm hc)]
      cases l with
      | nil => rfl
      | cons d l =>
          rw [ih (List.cons_ne_nil d l) hl]
          rfl

/-- Lines put together have these lines. -/
theorem AreLines.inputLines_flatten {ls : List (List Char)} (h : AreLines ls) :
    inputLines ls.flatten = ls := by
  induction h with
  | nil => rfl
  | last hne hl => rw [List.flatten_singleton, inputLines_of_no_feed hne hl]
  | cons hl _ ih =>
      rw [List.flatten_cons, List.append_assoc, List.singleton_append, inputLines_append_feed hl,
        ih]

theorem AreLines.sublist {ls ms : List (List Char)} (h : AreLines ls) (hsub : ms.Sublist ls) :
    AreLines ms := by
  induction h generalizing ms with
  | nil => rw [List.sublist_nil.mp hsub]; exact .nil
  | last hne hl =>
      cases hsub with
      | cons _ hsub => rw [List.sublist_nil.mp hsub]; exact .nil
      | cons_cons _ hsub => rw [List.sublist_nil.mp hsub]; exact .last hne hl
  | cons hl _ ih =>
      cases hsub with
      | cons _ hsub => exact ih hsub
      | cons_cons _ hsub => exact .cons hl (ih hsub)

theorem flatten_inputLines (cs : List Char) : (inputLines cs).flatten = cs := by
  induction cs with
  | nil => rfl
  | cons c cs ih =>
      rw [inputLines]
      split
      next hc => rw [List.flatten_cons, ih, hc, List.singleton_append]
      next => rw [Text.flatten_consLine, ih]

theorem toList_join_map_ofList (ls : List (List Char)) :
    (String.join (ls.map String.ofList)).toList = ls.flatten := by
  induction ls with
  | nil => rfl
  | cons l ls ih =>
      rw [List.map_cons, String.join_cons, String.toList_append, String.toList_ofList, ih,
        List.flatten_cons]

/-- The lines of an input put together are the input. -/
theorem join_linesOf (input : String) : String.join (linesOf input) = input := by
  rw [String.ext_iff, linesOf, toList_join_map_ofList, flatten_inputLines]

/-- Some of the lines of an input put together have these lines. -/
theorem linesOf_join {input : String} {ls : List String} (h : ls.Sublist (linesOf input)) :
    linesOf (String.join ls) = ls := by
  obtain ⟨ms, hms, rfl⟩ := List.sublist_map_iff.mp h
  have hlines := (areLines_inputLines input.toList).sublist hms
  rw [linesOf, toList_join_map_ofList, hlines.inputLines_flatten]

/-! ## Cutting lines into pieces -/

/-- The brackets of no beginning of the lines are all closed. -/
def Waits (lines : List String) : Prop :=
  ∀ begun, begun <+: lines → begun ≠ [] → verdict (String.join begun) ≠ .closed

/-- With the last of these lines, and not before, all brackets are closed. -/
structure IsPiece (lines : List String) : Prop where
  ne_nil : lines ≠ []
  closed : verdict (String.join lines) = .closed
  shortest : Waits lines.dropLast

/-- The lines are pieces one after the other, and lines in which no further piece begins. -/
structure Cut (lines : List String) (pieces : List (List String)) (left : List String) :
    Prop where
  lines_eq : lines = pieces.flatten ++ left
  isPiece : ∀ piece ∈ pieces, IsPiece piece
  waits : Waits left

variable {lines begun left left' : List String} {piece : List String}
  {pieces pieces' : List (List String)} {l : String} {t : Token}

theorem waits_nil : Waits [] :=
  fun _ hbegins hne => absurd (List.prefix_nil.mp hbegins) hne

theorem Waits.of_prefix (h : Waits lines) (hbegins : begun <+: lines) : Waits begun :=
  fun _ hbegun => h _ (hbegun.trans hbegins)

theorem Waits.concat (h : Waits lines) (hl : verdict (String.join (lines ++ [l])) ≠ .closed) :
    Waits (lines ++ [l]) := by
  intro begun hbegins hne
  rcases List.prefix_concat_iff.mp hbegins with rfl | hbegins
  · exact hl
  · exact h begun hbegins hne

/-- A piece does not begin with another one. -/
theorem IsPiece.eq_of_prefix {lines lines' : List String} (h : IsPiece lines)
    (h' : IsPiece lines') (hbegins : lines <+: lines') : lines = lines' := by
  rw [← List.dropLast_concat_getLast h'.ne_nil] at hbegins
  rcases List.prefix_concat_iff.mp hbegins with heq | hbegins
  · rw [heq, List.dropLast_concat_getLast]
  · exact absurd h.closed (h'.shortest lines hbegins h.ne_nil)

/-- Where no piece begins, none is cut off. -/
theorem not_isPiece_of_waits (h : Waits lines) (hbegins : piece <+: lines) : ¬IsPiece piece :=
  fun hpiece => h piece hbegins hpiece.ne_nil hpiece.closed

namespace Cut

theorem nil_of_waits (h : Waits lines) : Cut lines [] lines :=
  ⟨rfl, by simp, h⟩

theorem cons (hpiece : IsPiece piece) (h : Cut lines pieces left) :
    Cut (piece ++ lines) (piece :: pieces) left := by
  refine ⟨?_, List.forall_mem_cons.mpr ⟨hpiece, h.isPiece⟩, h.waits⟩
  rw [h.lines_eq, List.flatten_cons, List.append_assoc]

theorem tail (h : Cut (piece ++ lines) (piece :: pieces) left) : Cut lines pieces left := by
  refine ⟨?_, (List.forall_mem_cons.mp h.isPiece).2, h.waits⟩
  have hlines := h.lines_eq
  rw [List.flatten_cons, List.append_assoc] at hlines
  exact List.append_cancel_left hlines

/-- Lines are cut in one way only. -/
theorem unique (h : Cut lines pieces left) (h' : Cut lines pieces' left') :
    pieces = pieces' ∧ left = left' := by
  induction pieces generalizing lines pieces' with
  | nil =>
      obtain rfl : lines = left := h.lines_eq
      cases pieces' with
      | nil => exact ⟨rfl, h'.lines_eq⟩
      | cons piece pieces' =>
          refine absurd (h'.isPiece piece List.mem_cons_self) (not_isPiece_of_waits h.waits ?_)
          rw [h'.lines_eq, List.flatten_cons, List.append_assoc]
          exact List.prefix_append piece _
  | cons piece pieces ih =>
      have hpiece := h.isPiece piece List.mem_cons_self
      have hbegins : piece <+: lines := by
        rw [h.lines_eq, List.flatten_cons, List.append_assoc]
        exact List.prefix_append piece _
      cases pieces' with
      | nil =>
          obtain rfl : lines = left' := h'.lines_eq
          exact absurd hpiece (not_isPiece_of_waits h'.waits hbegins)
      | cons piece' pieces' =>
          have hpiece' := h'.isPiece piece' List.mem_cons_self
          have hbegins' : piece' <+: lines := by
            rw [h'.lines_eq, List.flatten_cons, List.append_assoc]
            exact List.prefix_append piece' _
          -- both begin the same lines, so one begins the other
          obtain rfl : piece = piece' := by
            rcases List.prefix_or_prefix_of_prefix hbegins hbegins' with hle | hle
            · exact hpiece.eq_of_prefix hpiece' hle
            · exact (hpiece'.eq_of_prefix hpiece hle).symm
          obtain ⟨rest, rfl⟩ := hbegins
          obtain ⟨rfl, rfl⟩ := ih h.tail h'.tail
          exact ⟨rfl, rfl⟩

/-- Without some of its pieces the input is cut into the other ones. -/
theorem sublist (h : Cut lines pieces left) (hsub : pieces'.Sublist pieces) :
    Cut (pieces'.flatten ++ left) pieces' left :=
  ⟨rfl, fun piece hmem => h.isPiece piece (hsub.subset hmem), h.waits⟩

end Cut

/-- Go through lines behind those of a piece that has begun: the pieces that end on the way, and
the lines behind the last one. -/
def cut (begun : List String) : List String → List (List String) × List String
  | [] => ([], begun)
  | l :: ls =>
      if verdict (String.join (begun ++ [l])) = .closed then
        let more := cut [] ls
        ((begun ++ [l]) :: more.1, more.2)
      else cut (begun ++ [l]) ls

theorem cut_of_closed {ls : List String} (h : verdict (String.join (begun ++ [l])) = .closed) :
    cut begun (l :: ls) = ((begun ++ [l]) :: (cut [] ls).1, (cut [] ls).2) := by
  rw [cut, if_pos h]

theorem cut_of_not_closed {ls : List String} {v : Verdict}
    (h : verdict (String.join (begun ++ [l])) = v) (hv : v ≠ .closed) :
    cut begun (l :: ls) = cut (begun ++ [l]) ls := by
  rw [cut, if_neg (h ▸ hv)]

/-- Going through the lines cuts them. -/
theorem cut_spec (h : Waits begun) (lines : List String) :
    Cut (begun ++ lines) (cut begun lines).1 (cut begun lines).2 := by
  -- the next line ends the piece that has begun, or belongs to what has begun
  induction lines generalizing begun with
  | nil =>
      rw [List.append_nil]
      exact .nil_of_waits h
  | cons l ls ih =>
      by_cases hclosed : verdict (String.join (begun ++ [l])) = .closed
      · have hpiece : IsPiece (begun ++ [l]) :=
          ⟨by simp, hclosed, by rwa [List.dropLast_concat]⟩
        have hmore := (ih waits_nil).cons hpiece
        rw [cut_of_closed hclosed]
        simpa using hmore
      · have hmore := ih (h.concat hclosed)
        rw [cut_of_not_closed rfl hclosed]
        simpa using hmore

/-! ## Brackets that do not match -/

/-- Where a bracket does not match, no piece ends any more. -/
theorem waits_append_of_unmatched (h : Waits begun)
    (hunmatched : verdict (String.join begun) = .unmatched t) (more : List String) :
    Waits (begun ++ more) := by
  intro lines hbegins hne hclosed
  rcases List.prefix_or_prefix_of_prefix hbegins (List.prefix_append begun more) with hle | hle
  · exact h lines hle hne hclosed
  · obtain ⟨rest, rfl⟩ := hle
    rw [String.join_append, verdict_append_of_unmatched hunmatched] at hclosed
    cases hclosed

theorem cut_of_unmatched (h : verdict (String.join begun) = .unmatched t) (lines : List String) :
    (cut begun lines).1 = [] := by
  induction lines generalizing begun with
  | nil => rfl
  | cons l lines ih =>
      have hconcat : verdict (String.join (begun ++ [l])) = .unmatched t := by
        rw [String.join_append]
        exact verdict_append_of_unmatched h
      rw [cut_of_not_closed hconcat Verdict.noConfusion]
      exact ih hconcat

end Monkey.Console
