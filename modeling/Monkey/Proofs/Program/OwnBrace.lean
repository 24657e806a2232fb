import Monkey.Program.Equality
import Monkey.Proofs.Program.Anchors
import Monkey.Proofs.Program.BlockEnd
import Monkey.Proofs.Program.Relabel

/-!
# Blocks and their own closing braces

A text in braces is read as a block, whatever the text is, if its own braces are balanced. The
block ends at its own closing brace, or before it. It ends there exactly if none of the errors
in it misleads, and then what stands behind the brace is read for itself
(`block_ends_at_own_brace_iff`).
-/

namespace Monkey

namespace Parse

variable {eof t close : Token} {B S ts : List Token}

theorem statement_of_block {ss : List (Stmt Token)} (ht : t.kind = .lbrace)
    (hss : (blockStatements eof ts).1.result? = some ss) :
    (statement eof t ts).1 =
      { (blockStatements eof ts).1 with result? := some (.block (.mk t ss)) } := by
  rw [statement_lbrace ht, block_eq, Reply.andThen_of_some hss, Reply.andThen_of_some rfl]
  simp [Reply.done]

/-- The nodes of a block that ends at its closing brace are made of what stands before it. -/
theorem tags_of_rest {ss : List (Stmt Token)} (hclose : close.kind = .rbrace)
    (hss : (blockStatements eof (B ++ close :: S)).1.result? = some ss)
    (hrest : (blockStatements eof (B ++ close :: S)).1.rest = S) :
    (ss.flatMap Stmt.tags).Sublist B := by
  obtain ⟨hfits, hanchors⟩ := (blockStatements_anchors (B ++ close :: S)).2 ss hss
  rw [hrest, List.nil_append, List.append_cons, List.append_sublist_append_right] at hanchors
  have htags := (Stmt.flatMap_tags_sublist ss).trans hanchors
  obtain ⟨us, vs, heq, hus, hvs⟩ := List.sublist_append_iff.mp htags
  -- no node is tagged with the closing brace itself
  rcases List.sublist_singleton.mp hvs with rfl | rfl
  · rwa [heq, List.append_nil]
  · have hmem : close ∈ ss.flatMap Stmt.tags := by simp [heq]
    obtain ⟨s, hs, hclose'⟩ := List.mem_flatMap.mp hmem
    exact absurd hclose ((hfits s hs).ne_rbrace close hclose')

/-- Behind an opening brace and balanced tokens, the closing brace is the one that ends the
block, or it is not reached, since there are misleading errors. -/
theorem statement_braces {r : Reply (Stmt Token)} (hnodup : (t :: (B ++ close :: S)).Nodup)
    (ht : t.kind = .lbrace) (hclose : close.kind = .rbrace) (hB : Balanced B)
    (hr : r = (statement eof t (B ++ close :: S)).1) :
    ∃ b, r.result? = some (.block b) ∧
      (r.rest = S ∧ misleading (t :: (B ++ close :: S)) r.errors = 0 ∧
          (b.statements.flatMap Stmt.tags).Sublist B ∨
        (∃ ws, r.rest = ws ++ close :: S) ∧ 0 < misleading (t :: (B ++ close :: S)) r.errors) := by
  have hcounts : (blockStatements eof (B ++ close :: S)).1.CountsBlock (t :: (B ++ close :: S))
      (B ++ close :: S) := blockStatements_counts hnodup _ (List.suffix_cons _ _)
  obtain ⟨us, n, heq, hus, hn⟩ := hcounts.course
  have hinside := hus.of_balanced hB hclose heq
  have hleft : ¬((blockStatements eof (B ++ close :: S)).1.rest = [] ∧ 0 ≤ n) := by
    rintro ⟨hnil, hn⟩
    rcases hinside with ⟨-, hneg⟩ | ⟨⟨ws, hrest⟩, -⟩
    · omega
    · simp [hnil] at hrest
  obtain ⟨hsome, hcount⟩ := hn.resolve_left hleft
  obtain ⟨ss, hss⟩ := Option.isSome_iff_exists.mp hsome
  rw [hr, statement_of_block ht hss]
  refine ⟨_, rfl, hinside.imp ?_ ?_⟩
  · rintro ⟨hrest, hneg⟩
    exact ⟨hrest, by dsimp only; omega, tags_of_rest hclose hss hrest⟩
  · rintro ⟨hrest, hpos⟩
    exact ⟨hrest, by dsimp only; omega⟩

/-- What is answered about the first statement of a text, if there is one. -/
def first? (source : String) : Option (Reply (Stmt Token)) :=
  match tokenize source with
  | [] => none
  | t :: ts => some (statement (.eof source.utf8ByteSize) t ts).1

theorem first_of_tokens {source : String} (h : tokenize source = t :: ts) :
    first? source = some (statement (.eof source.utf8ByteSize) t ts).1 := by
  rw [first?, h]

theorem statements_of_first {source : String} {r : Reply (Stmt Token)}
    (h : first? source = some r) :
    (parse source).program.statements =
        r.result?.toList ++ (statements (.eof source.utf8ByteSize) r.rest).1 ∧
      (parse source).errors = r.errors ++ (statements (.eof source.utf8ByteSize) r.rest).2 := by
  rw [parse_eq]
  unfold first? at h
  split at h
  next => cases h
  next t ts heq =>
    obtain rfl := Option.some.inj h
    rw [heq, statements_cons]
    exact ⟨rfl, rfl⟩

end Parse

/-! ## Texts -/

/-- A text in braces, with blanks that keep it apart from them. -/
def inBraces (source : String) : String :=
  "\x7b " ++ source ++ " \x7d "

theorem tokenize_inBraces (B S : String) :
    tokenize (inBraces B ++ S) =
      Token.cut .lbrace ['{'] 0 ::
        ((tokenize B).map (Token.shift 2) ++
          Token.cut .rbrace ['}'] (B.utf8ByteSize + 3) ::
            (tokenize S).map (Token.shift (B.utf8ByteSize + 5))) := by
  have hlist : (inBraces B ++ S).toList =
      '{' :: ' ' :: (B.toList ++ ' ' :: '}' :: ' ' :: S.toList) := by simp [inBraces]
  have hapart : Apart B.toList (' ' :: '}' :: ' ' :: S.toList) :=
    apart_cons (by decide) (by decide) (by decide)
  have hinside : 0 + byteCount ['{'] + ' '.utf8Size = 2 := by decide
  have hclose : 2 + B.utf8ByteSize + ' '.utf8Size = B.utf8ByteSize + 3 := by
    rw [Nat.add_comm 2]
    rfl
  change scan 0 (inBraces B ++ S).toList = _
  rw [hlist, scan_mark (by decide), scan_blank (by decide), scan_append hapart,
    scan_blank (by decide), scan_mark (by decide), scan_blank (by decide), byteCount_toList,
    hinside, hclose, ← scan_eq_map, ← scan_eq_map]
  rfl

/-- The reply to a text in braces is a block that ends at the brace behind the text. It is made
of what stands in the braces, and what stands behind them is read as it is by itself. -/
structure EndsAtOwnBrace (B S : String) (r : Reply (Stmt Token)) (b : Block Token) : Prop where
  rest : r.rest = (tokenize S).map (Token.shift (B.utf8ByteSize + 5))
  tags : (b.statements.flatMap Stmt.tags).Sublist ((tokenize B).map (Token.shift 2))
  statements : (parse (inBraces B ++ S)).program.statements =
    .block b ::
      (parse S).program.statements.map (Stmt.map (Token.shift (B.utf8ByteSize + 5)))
  errors : (parse (inBraces B ++ S)).errors =
    r.errors ++ (parse S).errors.map (SyntaxError.map (Token.shift (B.utf8ByteSize + 5)))

theorem EndsAtOwnBrace.of_rest {B S : String} {r : Reply (Stmt Token)} {b : Block Token}
    (hfirst : Parse.first? (inBraces B ++ S) = some r) (hb : r.result? = some (.block b))
    (hrest : r.rest = (tokenize S).map (Token.shift (B.utf8ByteSize + 5)))
    (htags : (b.statements.flatMap Stmt.tags).Sublist ((tokenize B).map (Token.shift 2))) :
    EndsAtOwnBrace B S r b := by
  have hopen : "\x7b ".utf8ByteSize = 2 := rfl
  have hclose : " \x7d ".utf8ByteSize = 3 := rfl
  have hsize : (inBraces B ++ S).utf8ByteSize = S.utf8ByteSize + (B.utf8ByteSize + 5) := by
    rw [inBraces, String.utf8ByteSize_append, String.utf8ByteSize_append,
      String.utf8ByteSize_append]
    omega
  obtain ⟨hstatements, herrors⟩ := Parse.statements_of_first hfirst
  rw [hrest, ← scan_eq_map, hsize, statements_scan] at hstatements herrors
  rw [hb] at hstatements
  exact ⟨hrest, htags, hstatements, herrors⟩

/-- A text with balanced braces, put in braces itself, is read as a block first, whatever else
it is. The block ends at its own brace if none of the errors in it misleads, and otherwise
before this brace. -/
theorem block_ends_at_own_brace_iff (B S : String) (hB : Balanced (tokenize B)) :
    ∃ r b, Parse.first? (inBraces B ++ S) = some r ∧ r.result? = some (.block b) ∧
      (EndsAtOwnBrace B S r b ↔ ∀ e ∈ r.errors, ¬e.Misleads (tokenize (inBraces B ++ S))) ∧
      (¬EndsAtOwnBrace B S r b → ∃ ws, r.rest =
        ws ++ Token.cut .rbrace ['}'] (B.utf8ByteSize + 3) ::
          (tokenize S).map (Token.shift (B.utf8ByteSize + 5))) := by
  have hnodup : (tokenize (inBraces B ++ S)).Nodup := nodup_scan
  rw [tokenize_inBraces] at hnodup
  have hinside : Balanced ((tokenize B).map (Token.shift 2)) := hB.map fun _ => rfl
  have hfirst := Parse.first_of_tokens (tokenize_inBraces B S)
  obtain ⟨b, hb, hends⟩ := Parse.statement_braces hnodup rfl rfl hinside rfl
  refine ⟨_, b, hfirst, hb, ?_⟩
  rw [tokenize_inBraces, ← misleading_eq_zero_iff]
  rcases hends with ⟨hrest, hnone, htags⟩ | ⟨⟨ws, hrest⟩, hsome⟩
  · have hown := EndsAtOwnBrace.of_rest hfirst hb hrest htags
    exact ⟨iff_of_true hown hnone, absurd hown⟩
  · refine ⟨iff_of_false (fun hown => ?_) (by omega), fun _ => ⟨ws, hrest⟩⟩
    have hlen := congrArg List.length (hrest.symm.trans hown.rest)
    rw [List.length_append, List.length_cons] at hlen
    omega

/-- A statement that gives up on the closing brace leaves it to the block. -/
theorem letWithoutValue_keeps_brace :
    Balanced (tokenize "let x =") ∧ ∃ r b, Parse.first? (inBraces "let x =" ++ "c") = some r ∧
      r.errors = [.noExpression (Token.cut .rbrace ['}'] 10)] ∧
      EndsAtOwnBrace "let x =" "c" r b := by
  have htokens : tokenize "let x =" =
      [⟨.keyword .let_, "let", ⟨0, 3⟩⟩, ⟨.ident, "x", ⟨4, 5⟩⟩, ⟨.assign, "=", ⟨6, 7⟩⟩] := by
    decide +kernel
  have hbalanced : Balanced (tokenize "let x =") := by
    rw [htokens]
    decide
  have hfirst : Parse.first? (inBraces "let x =" ++ "c") =
      some ⟨some (.block (.mk ⟨.lbrace, "\x7b", ⟨0, 1⟩⟩ [])),
        [.noExpression (Token.cut .rbrace ['}'] 10)], Token.cut .rbrace ['}'] 10,
        [⟨.ident, "c", ⟨12, 13⟩⟩]⟩ := by
    decide +kernel
  obtain ⟨r, b, hr, -, hends, -⟩ := block_ends_at_own_brace_iff "let x =" "c" hbalanced
  have herrors : r.errors = [.noExpression (Token.cut .rbrace ['}'] 10)] := by
    obtain rfl := Option.some.inj (hfirst.symm.trans hr)
    rfl
  refine ⟨hbalanced, r, b, hr, herrors, hends.mpr ?_⟩
  rw [herrors]
  intro e he
  obtain rfl := List.mem_singleton.mp he
  exact (by decide : Kind.rbrace ≠ .lbrace)

/-- A block in parentheses that are not closed ends the block around it: what stands behind it
is no longer inside, and there are three statements instead of two. -/
theorem innerBrace_ends_outer_block :
    Balanced (tokenize "(fn() \x7b \x7d 5") ∧
      ¬∃ b, (parse (inBraces "(fn() \x7b \x7d 5" ++ "c")).program.statements =
        .block b :: (parse "c").program.statements.map (Stmt.map (Token.shift 16)) := by
  have htokens : tokenize "(fn() \x7b \x7d 5" =
      [⟨.lparen, "(", ⟨0, 1⟩⟩, ⟨.keyword .function, "fn", ⟨1, 3⟩⟩, ⟨.lparen, "(", ⟨3, 4⟩⟩,
        ⟨.rparen, ")", ⟨4, 5⟩⟩, ⟨.lbrace, "\x7b", ⟨6, 7⟩⟩, ⟨.rbrace, "\x7d", ⟨8, 9⟩⟩,
        ⟨.int, "5", ⟨10, 11⟩⟩] := by
    decide +kernel
  have hthree : (parse (inBraces "(fn() \x7b \x7d 5" ++ "c")).program.statements.length = 3 := by
    decide +kernel
  have hone : (parse "c").program.statements.length = 1 := by
    decide +kernel
  refine ⟨by rw [htokens]; decide, ?_⟩
  rintro ⟨b, hb⟩
  have hlen := congrArg List.length hb
  rw [hthree, List.length_cons, List.length_map, hone] at hlen
  cases hlen

end Monkey
