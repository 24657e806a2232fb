import Monkey.Console.Completion
import Monkey.Proofs.Store.Twins
import Monkey.Proofs.Token.Segmentation

/-!
# Words that are completed

The word before the cursor is the last token of what stands before it, but it can be found
without tokens: it is the longest word that the text ends with (`wordBefore?_eq`). What is
offered goes on behind it to the names that are visible and to the keywords, to each of them once
(`continuations_offers`). Typed behind the word it makes a longer one, which is the last token
again (`completion_is_exact`).
-/

namespace Monkey.Console

/-- The text ends with the word, and with no longer one. -/
structure LongestWord (front word : String) : Prop where
  suffix : word.toList <:+ front.toList
  letters : ∀ c ∈ word.toList, isWordChar c
  longest : ∀ cs, cs <:+ front.toList → (∀ c ∈ cs, isWordChar c) → cs.length ≤ word.toList.length

/-- The candidates, in their order, are what is missing of names that the frame sees, and of
keywords. A name that is spelled like a keyword is counted twice. -/
structure Offers (s : Store) (env : FrameId) (word : String) (candidates : List String) :
    Prop where
  sorted : candidates.Pairwise (· ≤ ·)
  counted : ∃ names keywords, candidates.Perm (names ++ keywords) ∧ names.Nodup ∧ keywords.Nodup ∧
    (∀ c, c ∈ names ↔ c ≠ "" ∧ s.Sees (word ++ c) env) ∧
    ∀ c, c ∈ keywords ↔ c ≠ "" ∧ ∃ w : Keyword, word ++ c = w.spelling

variable {front back word name c : String} {s : Store} {env : FrameId} {t : Token}

/-! ## The longest word -/

theorem longestWord_iff :
    LongestWord front word ↔ ∃ before, front.toList = before ++ word.toList ∧
      (∀ c ∈ before.getLast?, ¬isWordChar c) ∧ ∀ c ∈ word.toList, isWordChar c := by
  constructor
  · rintro ⟨⟨before, heq⟩, hletters, hlongest⟩
    refine ⟨before, heq.symm, fun c hc hword => ?_, hletters⟩
    obtain ⟨before, rfl⟩ := List.getLast?_eq_some_iff.mp hc
    have hlonger := hlongest (c :: word.toList) ⟨before, by rw [← heq]; simp⟩
      (List.forall_mem_cons.mpr ⟨hword, hletters⟩)
    exact absurd hlonger (Nat.not_succ_le_self _)
  · rintro ⟨before, heq, hbefore, hletters⟩
    refine ⟨⟨before, heq.symm⟩, hletters, fun cs hcs hall => ?_⟩
    by_contra hlonger
    obtain ⟨more, rfl⟩ : word.toList <:+ cs :=
      List.suffix_of_suffix_length_le ⟨before, heq.symm⟩ hcs (Nat.le_of_not_le hlonger)
    obtain ⟨rest, hrest⟩ := hcs
    rw [heq, ← List.append_assoc] at hrest
    obtain rfl : rest ++ more = before := List.append_cancel_right hrest
    -- the character before the word would be part of it
    cases hlast : more.getLast? with
    | none =>
        obtain rfl := List.getLast?_eq_none_iff.mp hlast
        exact hlonger (Nat.le_refl _)
    | some c =>
        refine hbefore c (by simp [List.getLast?_append, hlast]) (hall c ?_)
        exact List.mem_append_left _ (List.mem_of_mem_getLast? hlast)

theorem exists_longestWord (front : String) : ∃ word, LongestWord front word := by
  refine ⟨String.ofList (front.toList.reverse.takeWhile isWordChar).reverse, longestWord_iff.mpr
    ⟨(front.toList.reverse.dropWhile isWordChar).reverse, ?_, fun c hc => ?_, ?_⟩⟩
  · rw [String.toList_ofList, ← List.reverse_append, List.takeWhile_append_dropWhile,
      List.reverse_reverse]
  · have hhead := List.head?_dropWhile_not isWordChar front.toList.reverse
    rw [List.getLast?_reverse] at hc
    rw [hc] at hhead
    simpa using hhead
  · rw [String.toList_ofList]
    intro c hc
    exact List.all_eq_true.mp List.all_takeWhile c (List.mem_reverse.mp hc)

theorem LongestWord.append (h : LongestWord front word) (hc : ∀ d ∈ c.toList, isWordChar d) :
    LongestWord (front ++ c) (word ++ c) := by
  obtain ⟨before, heq, hbefore, hletters⟩ := longestWord_iff.mp h
  refine longestWord_iff.mpr ⟨before, ?_, hbefore, ?_⟩
  · rw [String.toList_append, String.toList_append, heq, List.append_assoc]
  · rw [String.toList_append]
    exact List.forall_mem_append.mpr ⟨hletters, hc⟩

/-! ## The last token -/

theorem ident_or_isKeyword_ofWord (word : String) :
    Kind.ofWord word = .ident ∨ (Kind.ofWord word).isKeyword := by
  unfold Kind.ofWord
  split
  · exact .inr rfl
  · exact .inl rfl

/-- The longest word is the last token, unless it is empty. -/
theorem LongestWord.getLast?_tokenize (h : LongestWord front word) (hne : word ≠ "") :
    ∃ t, (tokenize front).getLast? = some t ∧ t.kind = Kind.ofWord word ∧ t.literal = word ∧
      t.span.stop = front.utf8ByteSize := by
  obtain ⟨before, heq, hbefore, hletters⟩ := longestWord_iff.mp h
  have hapart : Apart before word.toList := by
    intro c hc d hd
    have hword : isWordChar d := hletters d (List.mem_of_mem_head? hd)
    rintro (⟨hc', -⟩ | ⟨-, hdigit⟩ | ⟨-, rfl⟩)
    · exact hbefore c hc hc'
    · exact not_isWordChar_of_isDigit hdigit hword
    · cases hword
  refine ⟨Token.cut (Kind.ofWord word) word.toList (byteCount before), ?_, rfl,
    String.ofList_toList, ?_⟩
  · change (scan 0 front.toList).getLast? = _
    rw [heq, scan_append hapart, Nat.zero_add, scan_of_word hne hletters]
    simp
  · rw [← byteCount_toList, heq, byteCount_append]
    rfl

/-- A name or a keyword that the text ends with is made of characters of a word. -/
theorem letters_of_last (ht : t ∈ tokenize front) (hstop : t.span.stop = front.utf8ByteSize)
    (hkind : t.kind = .ident ∨ t.kind.isKeyword) :
    t.literal.toList ≠ [] ∧ t.literal.toList <:+ front.toList ∧
      ∀ c ∈ t.literal.toList, isWordChar c := by
  obtain ⟨gap, after, heq, hspan, hstands, -⟩ :=
    (segments_tokenize front).slices t ht
  refine ⟨hstands.ne_nil, ?_, ?_⟩
  · rw [hspan, ← byteCount_toList, heq, byteCount_append _ after] at hstop
    obtain rfl : after = [] := eq_nil_of_byteCount_eq_zero (Nat.left_eq_add.mp hstop)
    exact ⟨gap, by rw [heq, List.append_nil]⟩
  · generalize t.kind = kind, t.literal.toList = run at hstands hkind
    cases hstands with
    | name hmax | keyword hmax => exact hmax.all
    | mark hname =>
        have hmarks : ∀ k ∈ Kind.marks, ¬(k = .ident ∨ k.isKeyword) := by decide
        exact absurd hkind (hmarks _ (Kind.mark_of_name hname).2.1)
    | int | equal | notEqual | illegal => exact absurd hkind (by decide)

theorem wordBefore?_eq (h : LongestWord front word) :
    wordBefore? front = if word = "" then none else some word := by
  split
  next hempty =>
    cases hfront : wordBefore? front with
    | none => rfl
    | some w =>
        -- the token that it was read from would be a longer word
        unfold wordBefore? at hfront
        split at hfront
        next t hlast =>
          split at hfront
          next hend =>
            have hmem : t ∈ tokenize front := List.mem_of_getLast? hlast
            obtain ⟨hnil, hsuffix, hletters⟩ := letters_of_last hmem hend.1 hend.2
            have hle := h.longest _ hsuffix hletters
            rw [hempty] at hle
            exact absurd (List.eq_nil_of_length_eq_zero (Nat.le_zero.mp hle)) hnil
          next => cases hfront
        next => cases hfront
  next hne =>
    obtain ⟨t, hlast, hkind, hliteral, hstop⟩ := h.getLast?_tokenize hne
    have hword : t.kind = .ident ∨ t.kind.isKeyword := by
      rw [hkind]
      exact ident_or_isKeyword_ofWord word
    simp only [wordBefore?, hlast]
    rw [if_pos ⟨hstop, hword⟩, hliteral]

/-! ## Candidates -/

theorem continuation?_eq_some_iff :
    continuation? word name = some c ↔ c ≠ "" ∧ word ++ c = name := by
  unfold continuation?
  constructor
  · intro h
    split at h
    next d ds hbegins =>
      obtain rfl := Option.some.inj h
      have heq : word.toList ++ d :: ds = name.toList :=
        List.isPrefixOf?_eq_some_iff_append_eq.mp hbegins
      refine ⟨by simp, String.toList_inj.mp ?_⟩
      rw [String.toList_append, String.toList_ofList, heq]
    next => cases h
  · rintro ⟨hne, rfl⟩
    have hbegins : word.toList.isPrefixOf? (word ++ c).toList = some c.toList :=
      List.isPrefixOf?_eq_some_iff_append_eq.mpr String.toList_append.symm
    obtain ⟨d, ds, hc⟩ : ∃ d ds, c.toList = d :: ds :=
      List.exists_cons_of_ne_nil (by simpa using hne)
    rw [hbegins, hc]
    dsimp only
    rw [← hc, String.ofList_toList]

theorem mem_filterMap_continuation? {names : List String} :
    c ∈ names.filterMap (continuation? word) ↔ c ≠ "" ∧ word ++ c ∈ names := by
  rw [List.mem_filterMap]
  constructor
  · rintro ⟨name, hmem, hname⟩
    obtain ⟨hne, rfl⟩ := continuation?_eq_some_iff.mp hname
    exact ⟨hne, hmem⟩
  · rintro ⟨hne, hmem⟩
    exact ⟨word ++ c, hmem, continuation?_eq_some_iff.mpr ⟨hne, rfl⟩⟩

theorem nodup_filterMap_continuation? {names : List String} (h : names.Nodup) :
    (names.filterMap (continuation? word)).Nodup := by
  refine h.filterMap fun m n c hm hn => ?_
  rw [← (continuation?_eq_some_iff.mp hm).2, ← (continuation?_eq_some_iff.mp hn).2]

/-- What is offered behind a word are the names that are visible and the keywords, each once. -/
theorem continuations_offers (s : Store) (env : FrameId) (word : String) :
    Offers s env word (continuations (s.names env) word) := by
  refine ⟨Store.pairwise_mergeSort_le _,
    (s.names env).filterMap (continuation? word),
    (Keyword.all.map Keyword.spelling).filterMap (continuation? word), ?_, ?_, ?_, fun c => ?_,
    fun c => ?_⟩
  · rw [← List.filterMap_append]
    exact List.mergeSort_perm _ _
  · exact nodup_filterMap_continuation? Store.nodup_names
  · exact nodup_filterMap_continuation? (by decide)
  · rw [mem_filterMap_continuation?, Store.mem_names, Store.sees_iff]
  · rw [mem_filterMap_continuation?, List.mem_map]
    refine and_congr_right fun _ => ⟨fun ⟨w, _, hw⟩ => ⟨w, hw.symm⟩, fun ⟨w, hw⟩ => ?_⟩
    exact ⟨w, Keyword.mem_all w, hw.symm⟩

/-- A candidate is made of characters of a word, if all names are. -/
theorem Offers.letters {candidates : List String} (h : Offers s env word candidates)
    (hnames : ∀ name, s.Sees name env → ∀ d ∈ name.toList, isWordChar d) (hc : c ∈ candidates) :
    c ≠ "" ∧ ∀ d ∈ c.toList, isWordChar d := by
  obtain ⟨names, keywords, hperm, -, -, hnamed, hkeyed⟩ := h.counted
  have htail : (∀ d ∈ (word ++ c).toList, isWordChar d) → ∀ d ∈ c.toList, isWordChar d := by
    rw [String.toList_append]
    exact fun hall => (List.forall_mem_append.mp hall).2
  obtain hname | hkeyword := List.mem_append.mp (hperm.mem_iff.mp hc)
  · obtain ⟨hne, hsees⟩ := (hnamed c).mp hname
    exact ⟨hne, htail (hnames _ hsees)⟩
  · obtain ⟨hne, w, hw⟩ := (hkeyed c).mp hkeyword
    exact ⟨hne, htail (hw ▸ w.letters)⟩

/-! ## Lines -/

/-- The cursor stands behind `front`. -/
theorem front?_append (front back : String) :
    front? front.utf8ByteSize (front ++ back).toList = some front.toList :=
  front?_eq_some_iff.mpr ⟨back.toList, String.toList_append, byteCount_toList front⟩

theorem wordAt?_append (h : LongestWord front word) :
    wordAt? (front ++ back) front.utf8ByteSize = some (if word = "" then none else some word) := by
  rw [wordAt?, front?_append, Option.map_some, String.ofList_toList, wordBefore?_eq h]

theorem completeAt?_append {names : List String} (h : LongestWord front word) :
    completeAt? names (front ++ back) front.utf8ByteSize =
      some (if word = "" then [] else continuations names word) := by
  rw [completeAt?, front?_append, Option.map_some, String.ofList_toList, complete,
    wordBefore?_eq h]
  split <;> rfl

/-- The word at the cursor is the longest one that ends there, and what is offered behind it
goes on to every name that is visible and to every keyword, if these go on behind it. If all names
that are visible are words, then a candidate makes the word longer that it is typed behind, and
this longer word is what is found at the cursor then. -/
theorem completion_is_exact (front back : String) (s : Store) (env : FrameId) :
    ∃ word candidates, LongestWord front word ∧
      wordAt? (front ++ back) front.utf8ByteSize = some (if word = "" then none else some word) ∧
      completeAt? (s.names env) (front ++ back) front.utf8ByteSize = some candidates ∧
      (word = "" → candidates = []) ∧ (word ≠ "" → Offers s env word candidates) ∧
      ((∀ name, s.Sees name env → ∀ d ∈ name.toList, isWordChar d) → ∀ c ∈ candidates,
        (∃ t, (tokenize (front ++ c)).getLast? = some t ∧ t.literal = word ++ c ∧
          t.span.stop = (front ++ c).utf8ByteSize) ∧
        wordAt? (front ++ c ++ back) (front ++ c).utf8ByteSize = some (some (word ++ c))) := by
  obtain ⟨word, hword⟩ := exists_longestWord front
  refine ⟨word, _, hword, wordAt?_append hword, completeAt?_append hword, fun h => if_pos h,
    fun hne => ?_, fun hnames c hc => ?_⟩
  · rw [if_neg hne]
    exact continuations_offers s env word
  · split at hc
    next => cases hc
    next hne =>
      obtain ⟨hc, hletters⟩ := (continuations_offers s env word).letters hnames hc
      have hlonger := hword.append hletters
      have hne' : word ++ c ≠ "" := by simp [hne]
      obtain ⟨t, hlast, -, hliteral, hstop⟩ := hlonger.getLast?_tokenize hne'
      refine ⟨⟨t, hlast, hliteral, hstop⟩, ?_⟩
      rw [wordAt?_append hlonger, if_neg hne']

/-- The cursor stands behind a number and the beginning of a word, which is that of a keyword and
of a name. -/
theorem le_is_completed :
    let s := Store.single.set 0 "letter" (.int 0 5)
    (∀ name, s.Sees name 0 → ∀ d ∈ name.toList, isWordChar d) ∧
    completeAt? (s.names 0) "1le = 2" 3 = some ["t", "tter"] ∧
    ∃ t, (tokenize "1letter").getLast? = some t ∧ t.literal = "letter" := by
  intro s
  have hnames : s.names 0 = ["letter"] := by decide +kernel
  have hletters : ∀ name, s.Sees name 0 → ∀ d ∈ name.toList, isWordChar d := by
    intro name hname
    rw [Store.sees_iff, ← Store.mem_names, hnames, List.mem_singleton] at hname
    rw [hname]
    exact List.all_eq_true.mp (by decide)
  have hle : wordAt? "1le = 2" 3 = some (some "le") := by decide +kernel
  have hunsorted : (["letter"] ++ Keyword.all.map Keyword.spelling).filterMap
      (continuation? "le") = ["tter", "t"] := by
    decide +kernel
  have hcontinuations : continuations ["letter"] "le" = ["t", "tter"] := by
    rw [continuations, hunsorted]
    simp [List.mergeSort]
  have hoffered : completeAt? (s.names 0) "1le = 2" 3 = some ["t", "tter"] := by
    obtain ⟨front, hfront, hword⟩ := Option.map_eq_some_iff.mp hle
    rw [hnames, completeAt?, hfront, Option.map_some, complete, hword, Option.elim_some,
      hcontinuations]
  obtain ⟨word, candidates, -, hword, hcandidates, -, -, hmore⟩ :=
    completion_is_exact "1le" " = 2" s 0
  have hword' : (if word = "" then none else some word) = some "le" :=
    Option.some.inj (hword.symm.trans hle)
  obtain rfl : word = "le" := by
    split at hword'
    next => cases hword'
    next => exact Option.some.inj hword'
  obtain rfl : candidates = ["t", "tter"] := Option.some.inj (hcandidates.symm.trans hoffered)
  obtain ⟨⟨t, hlast, hliteral, -⟩, -⟩ := hmore hletters "tter" (by decide)
  exact ⟨hletters, hoffered, t, hlast, hliteral⟩

end Monkey.Console
