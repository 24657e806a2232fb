import Mathlib.Data.Bool.AllAny
import Monkey.Proofs.Token.Segmentation

/-!
# Texts with a separator between them

No token goes on over a blank, nor over a mark that belongs to no longer token. So the tokens of
two texts with blanks or such a mark between them are those of the first text, the mark, and
those of the second text at the place where it stands now. Every token is also cut from its own
characters alone. So if tokens are written in a row, each behind a space, they are read as what
they were (`tokenize_separated`).
-/

namespace Monkey

/-- The marks that are one token each, whatever stands beside them. -/
def separators : List Char :=
  [',', ';', '(', ')', '{', '}', '+', '-', '*', '/', '<', '>']

variable {k : Kind} {c : Char} {before after run cs ds es : List Char} {offset : Nat} {t : Token}
  {ts : List Token}

/-! ## Blanks -/

/-- A text that ends in a blank is apart from whatever follows. -/
theorem apart_append_blanks (hne : ds ≠ []) (hblank : ∀ d ∈ ds, isBlank d) :
    Apart (cs ++ ds) es := by
  intro c hc d _
  have hlast : c ∈ ds.getLast? := by
    rwa [List.getLast?_append, List.getLast?_eq_some_getLast hne, Option.some_or,
      ← List.getLast?_eq_some_getLast hne] at hc
  exact not_joins_of_isBlank (hblank c (List.mem_of_mem_getLast? hlast))

theorem scan_append_blanks_append (hne : ds ≠ []) (hblank : ∀ d ∈ ds, isBlank d) :
    scan offset (cs ++ ds ++ es) =
      scan offset cs ++ scan (offset + byteCount (cs ++ ds)) es := by
  rw [scan_append (apart_append_blanks hne hblank), scan_append_blanks hblank]

/-! ## Marks -/

theorem isMark_of_mem_separators : ∀ c ∈ separators, IsMark c :=
  List.all_iff_forall_prop.mp (by decide)

theorem name_of_mem_separators :
    ∀ c ∈ separators, (Kind.ofMark c).name = String.singleton c :=
  List.all_iff_forall_prop.mp (by decide)

theorem utf8Size_of_mem_separators : ∀ c ∈ separators, c.utf8Size = 1 :=
  List.all_iff_forall_prop.mp (by decide)

theorem scan_append_separator_append (hc : c ∈ separators) :
    scan offset (cs ++ [c] ++ ds) =
      scan offset cs ++ Token.cut (Kind.ofMark c) [c] (offset + byteCount cs) ::
        scan (offset + byteCount (cs ++ [c])) ds := by
  have hmark := isMark_of_mem_separators c hc
  have hapart : Apart cs (c :: ds) := apart_cons hmark.2.1 hmark.2.2.1 hmark.2.2.2.1
  rw [List.append_assoc, List.singleton_append, scan_append hapart, scan_mark hmark,
    byteCount_append, Nat.add_assoc]

theorem cut_separator (hc : c ∈ separators) :
    Token.cut k [c] offset = ⟨k, String.singleton c, ⟨offset, offset + 1⟩⟩ := by
  rw [Token.cut, byteCount_cons, byteCount_nil, utf8Size_of_mem_separators c hc,
    ← String.singleton_eq_ofList]

/-! ## Tokens by themselves -/

theorem MaximalRun.alone {sort : Char → Bool} (h : MaximalRun sort before run after) :
    MaximalRun sort [] run [] :=
  ⟨h.ne_nil, h.all, by simp, by simp⟩

/-- What is a token between other characters is one without them. -/
theorem StandsBetween.alone (h : StandsBetween before after k run) :
    StandsBetween [] [] k run := by
  cases h with
  | name hmax hname => exact .name hmax.alone hname
  | keyword hmax => exact .keyword hmax.alone
  | int hmax => exact .int hmax.alone
  | equal => exact .equal
  | notEqual => exact .notEqual
  | mark hname => exact .mark hname (by simp)
  | illegal hblank hword hdigit hname => exact .illegal hblank hword hdigit hname

theorem StandsBetween.scan_eq (h : StandsBetween [] [] k run) :
    scan offset run = [Token.cut k run offset] := by
  obtain ⟨c, more, rfl⟩ := List.exists_cons_of_ne_nil h.ne_nil
  obtain ⟨hblank, hlexeme⟩ := h.lexeme_eq
  rw [List.append_nil] at hlexeme
  exact scan_single hblank hlexeme

/-- The characters of the token are cut into a token of its kind and nothing else. -/
def Token.IsAlone (t : Token) : Prop :=
  StandsBetween [] [] t.kind t.literal.toList

theorem isAlone_of_mem_tokenize {source : String} (ht : t ∈ tokenize source) : t.IsAlone := by
  obtain ⟨_, _, -, -, hstands, -⟩ := (segments_tokenize source).slices t ht
  exact hstands.alone

/-- Tokens in a row with spaces between them are read as tokens of the same kinds and with the
same characters. -/
theorem scan_intercalate (h : ∀ t ∈ ts, t.IsAlone) :
    (scan offset (" ".intercalate (ts.map Token.literal)).toList).map
        (fun t => (t.kind, t.literal)) =
      ts.map fun t => (t.kind, t.literal) := by
  induction ts generalizing offset with
  | nil => simp [scan_nil]
  | cons t ts ih =>
      obtain ⟨ht, hts⟩ := List.forall_mem_cons.mp h
      have hfirst : scan offset t.literal.toList = [Token.cut t.kind t.literal.toList offset] :=
        ht.scan_eq
      cases ts with
      | nil => simp [hfirst, Token.cut]
      | cons u ts =>
          have htext : (" ".intercalate ((t :: u :: ts).map Token.literal)).toList =
              t.literal.toList ++ [' '] ++
                (" ".intercalate ((u :: ts).map Token.literal)).toList := by
            simp [String.intercalate_cons_cons]
          rw [htext, scan_append_blanks_append (by simp) (by simp [isBlank]), List.map_append,
            ih hts, hfirst]
          simp [Token.cut]

/-! ## Texts -/

theorem scan_toList_append (a b : String) :
    scan (0 + byteCount a.toList) b.toList =
      (tokenize b).map (Token.shift a.utf8ByteSize) := by
  rw [Nat.zero_add, byteCount_toList, scan_eq_map]

/-- With blanks between two texts, or with a mark that is always one token, the tokens are those
of the first text, that of the mark, and those of the second text behind them. Tokens that are
written with single spaces between them are read as tokens of the same kinds with the same
characters. -/
theorem tokenize_separated :
    (∀ a w b : String, w ≠ "" → (∀ c ∈ w.toList, isBlank c) →
      tokenize (a ++ w ++ b) =
        tokenize a ++ (tokenize b).map (Token.shift (a ++ w).utf8ByteSize)) ∧
    (∀ a b : String, ∀ c ∈ separators, ∃ k : Kind, k.name = String.singleton c ∧
      tokenize (a ++ String.singleton c ++ b) =
        tokenize a ++
          ⟨k, String.singleton c, ⟨a.utf8ByteSize, a.utf8ByteSize + 1⟩⟩ ::
            (tokenize b).map (Token.shift (a ++ String.singleton c).utf8ByteSize)) ∧
    ∀ source : String,
      (tokenize (" ".intercalate ((tokenize source).map Token.literal))).map
          (fun t => (t.kind, t.literal)) =
        (tokenize source).map fun t => (t.kind, t.literal) := by
  refine ⟨fun a w b hne hw => ?_, fun a b c hc => ⟨Kind.ofMark c, ?_, ?_⟩, fun source => ?_⟩
  · have hnil : w.toList ≠ [] := by simpa using hne
    have hscan : scan 0 (a.toList ++ w.toList ++ b.toList) = _ :=
      scan_append_blanks_append hnil hw
    rw [← String.toList_append, scan_toList_append, ← String.toList_append] at hscan
    exact hscan
  · exact name_of_mem_separators c hc
  · have hscan : scan 0 (a.toList ++ [c] ++ b.toList) = _ := scan_append_separator_append hc
    have hsingle : [c] = (String.singleton c).toList := by simp
    rw [cut_separator hc, hsingle, ← String.toList_append, scan_toList_append,
      ← String.toList_append, Nat.zero_add, byteCount_toList] at hscan
    exact hscan
  · exact scan_intercalate fun t ht => isAlone_of_mem_tokenize ht

/-- Two equals signs with a line end between them stay apart, and so does one behind a mark; with
nothing between them they are one token. -/
theorem signs_apart :
    tokenize ("x=" ++ "\r\n" ++ "=é1") =
        tokenize "x=" ++ (tokenize "=é1").map (Token.shift 4) ∧
      (∃ k : Kind, k.name = "<" ∧
        tokenize ("é=" ++ "<" ++ "=1") =
          tokenize "é=" ++ ⟨k, "<", ⟨3, 4⟩⟩ :: (tokenize "=1").map (Token.shift 4)) ∧
      (tokenize ("x=" ++ "\r\n" ++ "=é1")).map Token.kind =
        [.ident, .assign, .assign, .illegal, .int] ∧
      (tokenize ("x=" ++ "=é1")).map Token.kind = [.ident, .eq, .illegal, .int] := by
  obtain ⟨hblanks, hmarks, -⟩ := tokenize_separated
  refine ⟨hblanks "x=" "\r\n" "=é1" (by decide) (by simp [isBlank]),
    hmarks "é=" "=1" '<' (by decide), ?_, ?_⟩
  · decide +kernel
  · decide +kernel

end Monkey
