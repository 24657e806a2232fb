import Mathlib.Data.List.Basic
import Monkey.Proofs.Program.ErrorOrder
import Monkey.Report

/-!
# Labels of errors

What a report underlines is a piece of the text, whole characters and at least one: the token
that the error is about, or the last character of the text if the error is about its end
(`label_covers_text`). A text that is read with errors has a last character, since errors are
not more than tokens.
-/

namespace Monkey

/-- The span covers exactly these characters of the text. -/
def Span.Covers (s : Span) (source : String) (cs : List Char) : Prop :=
  ∃ before after, source.toList = before ++ cs ++ after ∧
    s = ⟨byteCount before, byteCount (before ++ cs)⟩

variable {source : String} {t : Token} {e : SyntaxError} {before : List Char}

theorem covers_of_mem_tokenize (ht : t ∈ tokenize source) :
    t.span.Covers source t.literal.toList := by
  obtain ⟨gap, after, hcs, hspan, -, -⟩ := (segments_tokenize source).slices t ht
  exact ⟨gap, after, hcs, hspan⟩

/-- A token is underlined as it stands. -/
theorem labelSpan_of_mem_tokenize (ht : t ∈ tokenize source) :
    labelSpan t.span source = t.span := by
  have hpos := (segments_tokenize source).nonempty t ht
  have hstop := stop_le_of_mem_tokenize ht
  have hwiden := Span.widen_of_ne (Nat.ne_of_lt hpos)
  rw [labelSpan, hwiden, if_pos (by omega), Nat.min_eq_left hstop]

/-- At the end of a text the last character is underlined. -/
theorem labelSpan_atEnd (c : Char) (h : source.toList = before ++ [c]) :
    labelSpan ⟨source.utf8ByteSize, source.utf8ByteSize⟩ source =
      ⟨byteCount before, source.utf8ByteSize⟩ := by
  have hsize : source.utf8ByteSize = byteCount before + c.utf8Size := by
    rw [← byteCount_toList, h, byteCount_append]
    rfl
  have hlast : source.toList.getLast?.elim 0 Char.utf8Size = c.utf8Size := by
    rw [h, List.getLast?_concat]
    rfl
  have hstart : ¬(Span.widen ⟨source.utf8ByteSize, source.utf8ByteSize⟩).start <
      source.utf8ByteSize := by
    rw [Span.widen_start]
    exact Nat.lt_irrefl _
  have hbefore : source.utf8ByteSize - c.utf8Size = byteCount before := by omega
  rw [labelSpan, if_neg hstart, hlast]
  dsimp only
  rw [hbefore]

theorem exists_last_of_errors (he : e ∈ (parse source).errors) :
    ∃ before c, source.toList = before ++ [c] := by
  have hlen := (parse_finds source).2
  have hpos : 0 < (parse source).errors.length := List.length_pos_of_mem he
  have hne : source.toList ≠ [] := by
    intro hnil
    have hnone : tokenize source = [] := by
      change scan 0 source.toList = []
      rw [hnil, scan_nil]
    rw [hnone, List.length_nil] at hlen
    omega
  exact ⟨_, _, (List.dropLast_append_getLast hne).symm⟩

/-- What is underlined for an error is a piece of the text: the token that the error is about,
or else the last character. -/
theorem label_covers_text (source : String) (e : SyntaxError) (he : e ∈ (parse source).errors) :
    ∃ cs, cs ≠ [] ∧ (labelSpan e.span source).Covers source cs ∧
      (e.found.kind ≠ .eof → labelSpan e.span source = e.span ∧ cs = e.found.literal.toList) ∧
      (e.found.kind = .eof → ∃ before c, source.toList = before ++ [c] ∧ cs = [c] ∧
        labelSpan e.span source = ⟨byteCount before, source.utf8ByteSize⟩) := by
  obtain ht | heof := List.mem_append.mp ((parse_finds source).1.found e he)
  · have hlabel : labelSpan e.span source = e.span := labelSpan_of_mem_tokenize ht
    have hcovers := covers_of_mem_tokenize ht
    rw [hlabel]
    refine ⟨e.found.literal.toList, ?_, hcovers, fun _ => ⟨rfl, rfl⟩, fun hk => ?_⟩
    · obtain ⟨_, _, -, -, hstands, -⟩ := (segments_tokenize source).slices _ ht
      exact hstands.ne_nil
    · exact absurd hk (kind_ne_eof_of_mem_tokenize ht)
  · have hfound := List.mem_singleton.mp heof
    obtain ⟨before, c, hsource⟩ := exists_last_of_errors he
    have hlabel : labelSpan e.span source = ⟨byteCount before, source.utf8ByteSize⟩ := by
      rw [SyntaxError.span, hfound]
      exact labelSpan_atEnd c hsource
    refine ⟨[c], List.cons_ne_nil c [], ⟨before, [], ?_, ?_⟩, fun hk => ?_, fun _ => ?_⟩
    · rw [hsource, List.append_nil]
    · rw [hlabel, ← hsource, byteCount_toList]
    · exact absurd (congrArg Token.kind hfound) hk
    · exact ⟨before, c, hsource, rfl, hlabel⟩

/-- A block that is not closed, behind a letter that is no token: the letter takes two bytes,
and is underlined twice. -/
theorem label_of_unclosed_block :
    ∃ e ∈ (parse "\x7b é").errors, e.found = .eof 4 ∧
      ∃ cs, (labelSpan e.span "\x7b é").Covers "\x7b é" cs ∧ cs = ['é'] := by
  have herrors : (parse "\x7b é").errors =
      [.noExpression ⟨.illegal, "é", ⟨2, 4⟩⟩, .unexpectedToken .rbrace (.eof 4)] := by
    decide +kernel
  have he : SyntaxError.unexpectedToken .rbrace (.eof 4) ∈ (parse "\x7b é").errors := by
    rw [herrors]
    exact List.mem_cons_of_mem _ List.mem_cons_self
  obtain ⟨cs, -, hcovers, -, hend⟩ := label_covers_text "\x7b é" _ he
  obtain ⟨before, c, hsource, hcs, -⟩ := hend rfl
  have hlast : ['\x7b', ' ', 'é'] = before ++ [c] := hsource
  have hc : 'é' = c := by simpa using congrArg List.getLast? hlast
  exact ⟨_, he, rfl, cs, hcovers, by rw [hcs, hc]⟩

end Monkey
