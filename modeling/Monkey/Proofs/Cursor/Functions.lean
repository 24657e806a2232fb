import Monkey.Proofs.Cursor.Answers

/-!
# The functions of the parser

Each function of the parser answers what is to be had from the tokens before it, provided that
the functions called for the parts do so where less tokens are left (`Calls.Adequate`). The cursor
is moved on before any of them is called, so it does, nested deeply enough (`Calls.adequate`).
-/

namespace Monkey

/-- On less than `n` tokens the functions called for the parts answer what they are to answer,
and loops may go on to the last token. -/
structure Calls.Adequate {size : Nat} (calls : Calls size) (n : Nat) : Prop where
  turns : n < calls.turns
  statement : ∀ (w : Parser size) {t : Token} {ts : List Token}, w.tokens = t :: ts →
    w.tokens.length < n → calls.statement.Answers w w.tokens (Parse.statement (.eof size) t ts).1
  expression : ∀ (p : Precedence) (w : Parser size), w.tokens.length < n →
    (calls.expression p).Answers w w.behind (Parse.expression (.eof size) p w.tokens).1

namespace Parsing

open Reply

variable {size n : Nat} {β : Type} {calls : Calls size} {w : Parser size}

/-! ## Parameters -/

theorem moreParams_comma (h : w.next.kind = .comma) :
    (Parse.moreParams (.eof size) w.current w.behind).1 =
      (Parse.someParams (.eof size) w.advance.current w.advance.behind).1 := by
  obtain ⟨ts, hb⟩ := w.exists_behind (by simp [h])
  obtain ⟨-, hcurrent, hbehind⟩ := Parser.next_of_behind hb
  rw [hb, hcurrent, hbehind, Parse.moreParams_cons, if_pos h]

theorem moreParams_close (h : w.next.kind ≠ .comma) :
    (Parse.moreParams (.eof size) w.current w.behind).1 =
      (Parse.expect (.eof size) .rparen w.current w.behind).1.andThen fun _ last rest =>
        .done [] last rest := by
  cases hb : w.behind with
  | nil => exact Parse.moreParams_nil
  | cons t ts =>
      rw [(Parser.next_of_behind hb).1] at h
      rw [Parse.moreParams_cons, if_neg h]

/-- The parameters that a loop has with those that it is to read. -/
def parametersReply (parameters : List (Ident Token)) (w : Parser size) :
    Reply (List (Ident Token)) :=
  (Parse.someParams (.eof size) w.current w.behind).1.andThen fun more last rest =>
    .done (parameters ++ more) last rest

theorem parameterTurn_turns (parameters : List (Ident Token)) (w : Parser size) :
    (parameterTurn parameters).Ends w
      (w.Turns Parser.behind parametersReply (closeWith .rparen) parameters) := by
  have hreply : parametersReply parameters w =
      (Parse.expect (.eof size) .ident w.current w.behind).1.andThen fun name last rest =>
      (Parse.moreParams (.eof size) last rest).1.andThen fun more last rest =>
      .done (parameters ++ ⟨name, name.literal⟩ :: more) last rest := by
    rw [parametersReply, Parse.someParams_eq, andThen_assoc]
    simp only [andThen_assoc, done_andThen]
  rw [parameterTurn]
  refine Ends.turns (.refl w) (expectNext_answers (by decide)) rfl hreply
    fun name w' hreply hleads hle => ?_
  rw [ends_next]
  split
  next hcomma =>
    obtain ⟨ts, hb⟩ := w'.exists_behind (by simp [hcomma])
    have hlen := Parser.one_lt_length hb
    rw [ends_advance]
    refine ends_pure (.again ?_ hleads.skip ?_)
    · rw [hreply, moreParams_comma hcomma, parametersReply]
      simp
    · rw [Parser.length_advance]
      omega
  next hclose =>
    refine ends_pure (.leave ?_ hleads (closeWith_answers (by decide)))
    rw [hreply, moreParams_close hclose, andThen_assoc]
    simp only [done_andThen]

theorem functionParameters_answers (h : calls.Adequate n) (hlen : w.behind.length < n) :
    (functionParameters calls).Answers w w.behind
      (Parse.params (.eof size) w.current w.behind).1 := by
  have hloop := loop_answers [] w (fun s w' _ => parameterTurn_turns s w')
    (Nat.lt_of_le_of_lt (Parser.length_le_of_behind_lt hlen) h.turns)
  have hreply : parametersReply [] w = (Parse.someParams (.eof size) w.current w.behind).1 :=
    andThen_done _
  rw [hreply] at hloop
  rw [functionParameters, answers_next]
  cases hb : w.behind with
  | nil =>
      have hne : (Token.eof size).kind ≠ .rparen := nofun
      rw [Parser.next_of_behind_nil hb, if_neg hne, ← hb]
      rwa [hb, Parse.params_nil, ← hb]
  | cons t ts =>
      rw [(Parser.next_of_behind hb).1, Parse.params_cons]
      split
      next => exact answers_taken hb
      next => rwa [← hb]

/-! ## What the next token decides -/

theorem strength_of_ofKind? {k : Kind} {op : BinaryOp} (h : BinaryOp.ofKind? k = some op) :
    k.strength = op.precedence.rank := by
  cases k <;> cases h <;> rfl

theorem strength_of_other {k : Kind} (hparen : k ≠ .lparen) (h : BinaryOp.ofKind? k = none) :
    k.strength = 0 := by
  cases k <;> simp_all [Kind.strength, BinaryOp.ofKind?]

theorem moreArgs_comma (h : w.next.kind = .comma) :
    (Parse.moreArgs (.eof size) w.current w.behind).1 =
      (Parse.expression (.eof size) .lowest w.advance.behind).1.andThen fun next last rest =>
      (Parse.moreArgs (.eof size) last rest).1.andThen fun more last rest =>
      .done (next :: more) last rest := by
  obtain ⟨ts, hb⟩ := w.exists_behind (by simp [h])
  obtain ⟨-, -, hbehind⟩ := Parser.next_of_behind hb
  rw [hb, hbehind, Parse.moreArgs_cons, if_pos h]

theorem moreArgs_close (h : w.next.kind ≠ .comma) :
    (Parse.moreArgs (.eof size) w.current w.behind).1 =
      (Parse.expect (.eof size) .rparen w.current w.behind).1.andThen fun _ last rest =>
        .done [] last rest := by
  cases hb : w.behind with
  | nil => exact Parse.moreArgs_nil
  | cons t ts =>
      rw [(Parser.next_of_behind hb).1] at h
      rw [Parse.moreArgs_cons, if_neg h]

theorem args_close (h : w.next.kind = .rparen) :
    (Parse.args (.eof size) w.behind).1 = .done [] w.advance.current w.advance.behind := by
  obtain ⟨ts, hb⟩ := w.exists_behind (by simp [h])
  obtain ⟨-, hcurrent, hbehind⟩ := Parser.next_of_behind hb
  rw [hb, hcurrent, hbehind, Parse.args_cons, if_pos h]

theorem args_first (h : w.next.kind ≠ .rparen) :
    (Parse.args (.eof size) w.behind).1 =
      (Parse.expression (.eof size) .lowest w.behind).1.andThen fun first last rest =>
      (Parse.moreArgs (.eof size) last rest).1.andThen fun more last rest =>
      .done (first :: more) last rest := by
  cases hb : w.behind with
  | nil => rw [Parse.args_nil, Parse.expression_nil, giveUp_andThen]
  | cons t ts =>
      rw [(Parser.next_of_behind hb).1] at h
      rw [Parse.args_cons, if_neg h, Parse.expression_cons]

/-- The arguments that a loop has with those that it is to read. -/
def argumentsReply (arguments : List (Expr Token)) (w : Parser size) :
    Reply (List (Expr Token)) :=
  (Parse.moreArgs (.eof size) w.current w.behind).1.andThen fun more last rest =>
    .done (arguments ++ more) last rest

/-- What the operators behind an expression make of it. -/
def operatorsReply (p : Precedence) (left : Expr Token) (w : Parser size) : Reply (Expr Token) :=
  (Parse.operators (.eof size) p left w.current w.behind).1

theorem alternative_else (h : w.next.kind = .keyword .else_) :
    (Parse.alternative (.eof size) w.current w.behind).1 =
      (Parse.expect (.eof size) .lbrace w.advance.current w.advance.behind).1.andThen
        fun brace _ rest =>
      (Parse.block (.eof size) brace rest).1.andThen fun body last rest =>
      .done (some body) last rest := by
  obtain ⟨ts, hb⟩ := w.exists_behind (by simp [h])
  obtain ⟨-, hcurrent, hbehind⟩ := Parser.next_of_behind hb
  rw [hb, hcurrent, hbehind, Parse.alternative_cons, if_pos h]

theorem alternative_none (h : w.next.kind ≠ .keyword .else_) :
    (Parse.alternative (.eof size) w.current w.behind).1 = .done none w.current w.behind := by
  cases hb : w.behind with
  | nil => exact Parse.alternative_nil
  | cons t ts =>
      rw [(Parser.next_of_behind hb).1] at h
      rw [Parse.alternative_cons, if_neg h]

/-! ## Blocks -/

/-- What a loop makes of the statements that it has and those that it is to read. -/
def blockReply (f : List (Stmt Token) → β) (statements : List (Stmt Token)) (w : Parser size) :
    Reply β :=
  (Parse.blockStatements (.eof size) w.tokens).1.andThen fun more last rest =>
    .done (f (statements ++ more)) last rest

/-- A block goes on behind a statement, unless the statement gave up on a closing brace. -/
theorem blockReply_statement {w' : Parser size} {t : Token} {ts before : List Token}
    (f : List (Stmt Token) → β) (statements : List (Stmt Token)) (htokens : w.tokens = t :: ts)
    (ht : t.kind ≠ .rbrace) (h : w.Reaches before (Parse.statement (.eof size) t ts).1 w') :
    let r := (Parse.statement (.eof size) t ts).1
    blockReply f statements w =
      (if r.result?.isNone ∧ w'.current.kind = .rbrace then
        .done (f statements) w'.current w'.behind
      else blockReply f (statements ++ r.result?.toList) w'.advance : Reply β).after r.errors := by
  rw [blockReply, htokens, andThen_map _ (fun more => f (statements ++ more)),
    Parse.blockStatements_cons ht, h.current_eq]
  dsimp only
  split
  next =>
    rw [h.behind_eq, Reply.after, done, Option.map_some, List.append_nil, List.append_nil]
  next =>
    rw [blockReply, andThen_map _ fun more => f (_ ++ more), Parser.tokens_advance, h.behind_eq,
      Reply.after, Option.map_map]
    simp only [Function.comp_def, ← List.append_assoc]

theorem blockTurn_turns (h : calls.Adequate n) (f : List (Stmt Token) → β)
    (statements : List (Stmt Token)) (w : Parser size) (hlen : w.tokens.length < n) :
    (blockTurn calls statements).Ends w
      (w.Turns Parser.tokens (blockReply f) (fun ss => pure (some (f ss))) statements) := by
  rw [blockTurn, ends_current]
  cases htokens : w.tokens with
  | nil =>
      obtain ⟨hcurrent, hbehind⟩ := Parser.current_of_nil htokens
      have hreply : blockReply f statements w =
          .giveUp (.unexpectedToken .rbrace w.current) w.current w.behind := by
        rw [blockReply, htokens, Parse.blockStatements_nil, giveUp_andThen, hcurrent, hbehind]
      have hne : (Token.eof size).kind ≠ .rbrace := nofun
      have heof : (Token.eof size).kind = .eof := rfl
      rw [hcurrent, if_neg hne, if_pos heof, ← hcurrent]
      refine Ends.mono (answers_fail rfl).behind fun r w' ⟨hr, h⟩ => ?_
      rw [hr]
      refine .giveUp ?_ ?_
      · rw [hreply]
        rfl
      · rw [hreply]
        exact ⟨h.leads, h.current_eq, h.behind_eq⟩
  | cons t ts =>
      obtain ⟨hcurrent, hbehind⟩ := Parser.current_of_tokens htokens
      have heof := w.kind_ne_eof t (by simp [htokens])
      have hpos : 0 < w.tokens.length := by simp [htokens]
      rw [hcurrent]
      by_cases hrbrace : t.kind = .rbrace
      · rw [if_pos hrbrace]
        refine ends_leave ?_ (List.tail_sublist w.tokens)
        rw [blockReply, htokens, Parse.blockStatements_rbrace hrbrace, done_andThen,
          List.append_nil, hcurrent, hbehind]
      rw [if_neg hrbrace, if_neg heof]
      refine Ends.bind (h.statement w htokens hlen) fun r w' ⟨hr, h⟩ => ?_
      have hleads := h.leads
      rw [← h.behind_eq] at hleads
      have hreply := blockReply_statement f statements htokens hrbrace h
      have hlen : w'.advance.tokens.length < w.tokens.length := by
        have hle := h.leads.length_le
        rw [Parser.length_advance]
        omega
      dsimp only at hreply
      rw [← hr] at hreply
      -- a statement that gave up may have left the cursor on the brace that closes the block
      cases r with
      | none =>
          dsimp only
          rw [ends_current]
          by_cases hgave : w'.current.kind = .rbrace
          · rw [if_pos ⟨rfl, hgave⟩] at hreply
            rw [if_pos hgave]
            exact ends_pure (.leave hreply hleads (answers_pure rfl))
          · rw [if_neg fun h => hgave h.2, Option.toList_none, List.append_nil] at hreply
            rw [if_neg hgave]
            exact ends_pure (.again hreply hleads.move hlen)
      | some s =>
          rw [if_neg (by simp)] at hreply
          exact ends_pure (.again hreply hleads.move hlen)

theorem block_answers (h : calls.Adequate n) (hlen : w.behind.length < n) :
    (block calls).Answers w w.behind (Parse.block (.eof size) w.current w.behind).1 := by
  have hloop := loop_answers [] w.advance (fun s w' hle =>
    blockTurn_turns h (Block.mk w.current) s w' (Nat.lt_of_le_of_lt hle hlen))
    (Nat.lt_trans hlen h.turns)
  rw [block, answers_current, Parse.block_eq]
  exact Answers.advance hloop

/-! ## Operands -/

theorem prefixExpression_answers (h : calls.Adequate n) (op : UnaryOp)
    (hlen : w.behind.length < n) :
    (prefixExpression calls op).Answers w w.behind
      ((Parse.expression (.eof size) .unary w.behind).1.andThen fun e last rest =>
        .done (.unary w.current op e) last rest) := by
  rw [prefixExpression, answers_current]
  refine Answers.advance ?_
  exact (h.expression .unary w.advance hlen).behind.andThen rfl fun e w' _ _ => answers_pure rfl

theorem groupedExpression_answers (h : calls.Adequate n) (hlen : w.behind.length < n) :
    (groupedExpression calls).Answers w w.behind
      ((Parse.expression (.eof size) .lowest w.behind).1.andThen fun e last rest =>
        (Parse.expect (.eof size) .rparen last rest).1.andThen fun _ last rest =>
        .done e last rest) := by
  rw [groupedExpression]
  refine Answers.advance ?_
  refine (h.expression .lowest w.advance hlen).behind.andThen rfl fun e w' _ _ => ?_
  exact closeWith_answers (by decide)

theorem ifExpression_answers (h : calls.Adequate n) (hlen : w.behind.length < n) :
    (ifExpression calls).Answers w w.behind
      ((Parse.expect (.eof size) .lparen w.current w.behind).1.andThen fun _ _ rest =>
        (Parse.expression (.eof size) .lowest rest).1.andThen fun condition last rest =>
        (Parse.expect (.eof size) .rparen last rest).1.andThen fun _ last rest =>
        (Parse.expect (.eof size) .lbrace last rest).1.andThen fun brace _ rest =>
        (Parse.block (.eof size) brace rest).1.andThen fun consequence last rest =>
        (Parse.alternative (.eof size) last rest).1.andThen fun alternative last rest =>
        .done (.cond w.current condition consequence alternative) last rest) := by
  rw [ifExpression, answers_current]
  refine answers_expectNext (by decide) rfl fun w₁ hle => ?_
  have hlen := Parser.behind_lt_of_le hle hlen
  refine Answers.advance ?_
  refine (h.expression .lowest w₁.advance hlen).behind.andThen rfl fun condition w₂ _ h₂ => ?_
  have hlen := Parser.behind_lt_of_le (h₂.leads.of_advance).length_le hlen
  refine answers_expectNext (by decide) rfl fun w₃ hle => ?_
  have hlen := Parser.behind_lt_of_le hle hlen
  refine answers_expectNext (by decide) rfl fun w₄ hle => ?_
  have hlen := Parser.behind_lt_of_le hle hlen
  refine (block_answers h hlen).andThen rfl fun consequence w₅ _ h₅ => ?_
  have hlen := Parser.behind_lt_of_le h₅.leads.length_le hlen
  rw [answers_next]
  split
  next helse =>
    rw [alternative_else helse, andThen_assoc]
    refine Answers.advance (Answers.behind ?_)
    refine answers_expectNext (by decide) rfl fun w₆ hle => ?_
    have hlen := Parser.behind_lt_of_le (Nat.le_trans hle w₅.behind_suffix.length_le) hlen
    rw [andThen_assoc]
    exact (block_answers h hlen).andThen rfl fun alternative w₇ _ _ => answers_pure rfl
  next hnone =>
    rw [alternative_none hnone, done_andThen]
    exact answers_pure rfl

theorem functionLiteral_answers (h : calls.Adequate n) (hlen : w.behind.length < n) :
    (functionLiteral calls).Answers w w.behind
      ((Parse.expect (.eof size) .lparen w.current w.behind).1.andThen fun _ last rest =>
        (Parse.params (.eof size) last rest).1.andThen fun params last rest =>
        (Parse.expect (.eof size) .lbrace last rest).1.andThen fun brace _ rest =>
        (Parse.block (.eof size) brace rest).1.andThen fun body last rest =>
        .done (.function w.current params body) last rest) := by
  rw [functionLiteral, answers_current]
  refine answers_expectNext (by decide) rfl fun w₁ hle => ?_
  have hlen := Parser.behind_lt_of_le hle hlen
  refine (functionParameters_answers h hlen).andThen rfl fun params w₂ _ h₂ => ?_
  have hlen := Parser.behind_lt_of_le h₂.leads.length_le hlen
  refine answers_expectNext (by decide) rfl fun w₃ hle => ?_
  have hlen := Parser.behind_lt_of_le hle hlen
  exact (block_answers h hlen).andThen rfl fun body w₄ _ _ => answers_pure rfl

/-- At the end of the input there is no operand. -/
theorem operand_answers_nil (htokens : w.tokens = []) :
    (operand calls).Answers w [] (.giveUp (.noExpression (.eof size)) (.eof size) []) := by
  obtain ⟨hcurrent, hbehind⟩ := Parser.current_of_nil htokens
  have hfail : (fail (.noExpression w.current) : Parsing size (Option (Expr Token))).Answers w []
    (.giveUp (.noExpression w.current) w.current []) := answers_fail hbehind
  rw [hcurrent] at hfail
  rw [operand, answers_current, hcurrent]
  exact hfail

theorem operand_answers (h : calls.Adequate n) {t : Token} {ts : List Token}
    (htokens : w.tokens = t :: ts) (hlen : w.behind.length < n) :
    (operand calls).Answers w w.behind (Parse.operand (.eof size) t ts).1 := by
  obtain ⟨hcurrent, hbehind⟩ := Parser.current_of_tokens htokens
  rw [operand, answers_current, hcurrent]
  cases hk : t.kind with
  | ident =>
      rw [Parse.operand_ident hk, ← hcurrent, ← hbehind]
      exact answers_pure rfl
  | int =>
      rw [Parse.operand_int hk, ← hcurrent, ← hbehind]
      cases w.current.integer? with
      | none => exact answers_fail rfl
      | some n => exact answers_pure rfl
  | bang =>
      have hop : UnaryOp.ofKind? t.kind = some .not := by
        rw [hk]
        rfl
      rw [Parse.operand_unary hop, ← hcurrent, ← hbehind]
      exact prefixExpression_answers h .not hlen
  | minus =>
      have hop : UnaryOp.ofKind? t.kind = some .negate := by
        rw [hk]
        rfl
      rw [Parse.operand_unary hop, ← hcurrent, ← hbehind]
      exact prefixExpression_answers h .negate hlen
  | lparen =>
      rw [Parse.operand_lparen hk, ← hcurrent, ← hbehind]
      exact groupedExpression_answers h hlen
  | keyword k =>
      cases k with
      | true_ =>
          rw [Parse.operand_true hk, ← hcurrent, ← hbehind]
          exact answers_pure rfl
      | false_ =>
          rw [Parse.operand_false hk, ← hcurrent, ← hbehind]
          exact answers_pure rfl
      | if_ =>
          rw [Parse.operand_if hk, ← hcurrent, ← hbehind]
          exact ifExpression_answers h hlen
      | function =>
          rw [Parse.operand_function hk, ← hcurrent, ← hbehind]
          exact functionLiteral_answers h hlen
      | let_ | else_ | return_ =>
          rw [Parse.operand_other (by simp [Kind.OpensExpr, hk]), ← hcurrent, ← hbehind]
          exact answers_fail rfl
  | _ =>
      rw [Parse.operand_other (by simp [Kind.OpensExpr, hk]), ← hcurrent, ← hbehind]
      exact answers_fail rfl

/-! ## Operators and arguments -/

theorem infixExpression_answers (h : calls.Adequate n) (op : BinaryOp) (left : Expr Token)
    (hlen : w.behind.length < n) :
    (infixExpression calls op left).Answers w w.behind
      ((Parse.expression (.eof size) op.precedence w.behind).1.andThen fun right last rest =>
        .done (.binary w.current op left right) last rest) := by
  rw [infixExpression, answers_current]
  refine Answers.advance ?_
  refine (h.expression op.precedence w.advance hlen).behind.andThen rfl fun right w' _ _ => ?_
  exact answers_pure rfl

theorem argumentTurn_turns (h : calls.Adequate n) (arguments : List (Expr Token))
    (w : Parser size) (hlen : w.behind.length < n) :
    (argumentTurn calls arguments).Ends w
      (w.Turns Parser.behind argumentsReply (closeWith .rparen) arguments) := by
  rw [argumentTurn, ends_next]
  split
  next hcomma =>
    obtain ⟨ts, hb⟩ := w.exists_behind (by simp [hcomma])
    have hone := Parser.one_lt_length hb
    have hreply : argumentsReply arguments w =
        (Parse.expression (.eof size) .lowest w.advance.behind).1.andThen fun next last rest =>
        (Parse.moreArgs (.eof size) last rest).1.andThen fun more last rest =>
        .done (arguments ++ next :: more) last rest := by
      rw [argumentsReply, moreArgs_comma hcomma, andThen_assoc]
      simp only [andThen_assoc, done_andThen]
    have hnext := h.expression .lowest w.advance.advance
      (Nat.lt_of_le_of_lt w.advance.behind_suffix.length_le hlen)
    rw [ends_advance, ends_advance]
    refine Ends.turns (Parser.Leads.refl w).skip.skip hnext rfl hreply
      fun next w' hreply hleads hle => ?_
    refine ends_pure (.again ?_ hleads ?_)
    · rw [hreply, argumentsReply]
      simp
    · rw [Parser.length_advance, Parser.length_advance] at hle
      omega
  next hclose =>
    refine ends_pure (.leave ?_ (.refl w) (closeWith_answers (by decide)))
    rw [argumentsReply, moreArgs_close hclose, andThen_assoc, after_nil]
    simp only [done_andThen, List.append_nil]

theorem callArguments_answers (h : calls.Adequate n) (hlen : w.behind.length < n) :
    (callArguments calls).Answers w w.behind (Parse.args (.eof size) w.behind).1 := by
  rw [callArguments, answers_next]
  split
  next hclose =>
    rw [args_close hclose]
    exact Answers.advance (answers_pure rfl).behind
  next hfirst =>
    rw [args_first hfirst]
    refine Answers.advance ?_
    refine (h.expression .lowest w.advance hlen).behind.andThen rfl fun first w' _ h' => ?_
    have hle := Nat.lt_of_le_of_lt h'.leads.length_le hlen
    have hbehind := Nat.lt_of_le_of_lt w'.behind_suffix.length_le hle
    exact loop_answers [first] w'
      (fun s w'' hle => argumentTurn_turns h s w'' (Parser.behind_lt_of_le hle hbehind))
      (Nat.lt_trans hle h.turns)

theorem callExpression_answers (h : calls.Adequate n) (callee : Expr Token)
    (hlen : w.behind.length < n) :
    (callExpression calls callee).Answers w w.behind
      ((Parse.args (.eof size) w.behind).1.andThen fun arguments last rest =>
        .done (.call w.current callee arguments) last rest) := by
  rw [callExpression, answers_current]
  exact (callArguments_answers h hlen).andThen rfl fun arguments w' _ _ => answers_pure rfl

theorem operatorTurn_turns (h : calls.Adequate n) (p : Precedence) (left : Expr Token)
    (w : Parser size) (hlen : w.behind.length < n) :
    (operatorTurn calls p left).Ends w
      (w.Turns Parser.behind (operatorsReply p) (fun e => pure (some e)) left) := by
  rw [operatorTurn, ends_next]
  cases hb : w.behind with
  | nil =>
      have hstrength : (Token.eof size).kind.strength = 0 := rfl
      rw [Parser.next_of_behind_nil hb, hstrength, if_neg (by simp)]
      refine ends_leave ?_ (List.Sublist.refl _)
      rw [operatorsReply, hb, Parse.operators_nil]
  | cons t ts =>
      obtain ⟨hnext, hcurrent, hbehind⟩ := Parser.next_of_behind hb
      have hone := Parser.one_lt_length hb
      have hlen : w.advance.behind.length < n :=
        Nat.lt_of_le_of_lt w.advance.behind_suffix.length_le hlen
      rw [hnext]
      -- a call is stronger than every precedence, so no expression stops before its parenthesis
      by_cases hparen : t.kind = .lparen
      · have hstrength : t.kind ≠ .semicolon ∧ p.rank < t.kind.strength := by
          rw [hparen]
          cases p <;> decide
        have hreply : operatorsReply p left w =
            ((Parse.args (.eof size) w.advance.behind).1.andThen fun arguments last rest =>
              .done (.call w.advance.current left arguments) last rest).andThen
            fun e last rest => (Parse.operators (.eof size) p e last rest).1 := by
          rw [operatorsReply, hb, Parse.operators_lparen hparen, andThen_assoc, hcurrent, hbehind]
          simp only [done_andThen]
        rw [if_pos hstrength, if_pos hparen, ends_advance]
        refine Ends.turns (Parser.Leads.refl w).skip (callExpression_answers h left hlen)
          rfl hreply fun e w' hreply hleads hle => ends_pure (.again hreply hleads ?_)
        rw [Parser.length_advance] at hle
        omega
      cases hop : BinaryOp.ofKind? t.kind with
      | none =>
          rw [strength_of_other hparen hop, if_neg (by simp)]
          refine ends_leave ?_ (List.Sublist.refl _)
          rw [operatorsReply, hb, Parse.operators_other hparen hop]
      | some op =>
          have hsemicolon : t.kind ≠ .semicolon := by
            intro hk
            rw [hk] at hop
            cases hop
          rw [strength_of_ofKind? hop]
          by_cases hrank : p.rank < op.precedence.rank
          · have hreply : operatorsReply p left w =
                ((Parse.expression (.eof size) op.precedence w.advance.behind).1.andThen
                  fun right last rest =>
                    .done (.binary w.advance.current op left right) last rest).andThen
                fun e last rest => (Parse.operators (.eof size) p e last rest).1 := by
              rw [operatorsReply, hb, Parse.operators_binary hop, if_pos hrank, andThen_assoc,
                hcurrent, hbehind]
              simp only [done_andThen]
            rw [if_pos ⟨hsemicolon, hrank⟩, if_neg hparen]
            dsimp only
            rw [ends_advance]
            refine Ends.turns (Parser.Leads.refl w).skip (infixExpression_answers h op left hlen)
              rfl hreply fun e w' hreply hleads hle => ends_pure (.again hreply hleads ?_)
            rw [Parser.length_advance] at hle
            omega
          · rw [if_neg fun h => hrank h.2]
            refine ends_leave ?_ (List.Sublist.refl _)
            rw [operatorsReply, hb, Parse.operators_binary hop, if_neg hrank]

theorem expression_answers (h : calls.Adequate n) (p : Precedence) (hlen : w.tokens.length ≤ n) :
    (expression calls p).Answers w w.behind (Parse.expression (.eof size) p w.tokens).1 := by
  rw [expression]
  cases htokens : w.tokens with
  | nil =>
      rw [Parse.expression_nil, (Parser.current_of_nil htokens).2]
      exact (operand_answers_nil htokens).andThen (g := fun left last rest => .done left last rest)
        rfl fun left w' hleft _ => nomatch hleft
  | cons t ts =>
      have hbehind : w.behind.length < n := by
        rw [Parser.length_behind]
        rw [htokens, List.length_cons] at hlen ⊢
        omega
      rw [Parse.expression_cons, Parse.expressionAt_eq]
      refine (operand_answers h htokens hbehind).andThen rfl fun left w' _ h' => ?_
      have hle := h'.leads.length_le
      exact loop_answers left w'
        (fun left w'' hle' => operatorTurn_turns h p left w''
          (Parser.behind_lt_of_le (Nat.le_trans hle' hle) hbehind))
        (Nat.lt_of_le_of_lt (Nat.le_trans hle hlen) h.turns)

/-! ## Statements -/

theorem letStatement_answers (h : calls.Adequate n) (hlen : w.behind.length < n) :
    (letStatement calls).Answers w w.behind
      ((Parse.expect (.eof size) .ident w.current w.behind).1.andThen fun name last rest =>
        (Parse.expect (.eof size) .assign last rest).1.andThen fun _ _ rest =>
        (Parse.expression (.eof size) .lowest rest).1.andThen fun value last rest =>
        (Parse.finish (.let_ w.current ⟨name, name.literal⟩ value) last rest).1) := by
  rw [letStatement, answers_current]
  refine answers_expectNext (by decide) rfl fun w₁ hle => ?_
  have hlen := Parser.behind_lt_of_le hle hlen
  refine answers_expectNext (by decide) rfl fun w₂ hle => ?_
  have hlen := Parser.behind_lt_of_le hle hlen
  refine Answers.advance ?_
  exact (h.expression .lowest w₂.advance hlen).behind.andThen rfl fun e w₃ _ _ => finish_answers

theorem returnStatement_answers (h : calls.Adequate n) (hlen : w.behind.length < n) :
    (returnStatement calls).Answers w w.behind
      ((Parse.expression (.eof size) .lowest w.behind).1.andThen fun value last rest =>
        (Parse.finish (.return_ w.current value) last rest).1) := by
  rw [returnStatement, answers_current]
  refine Answers.advance ?_
  exact (h.expression .lowest w.advance hlen).behind.andThen rfl fun e w' _ _ => finish_answers

theorem expressionStatement_answers (h : calls.Adequate n) (hlen : w.tokens.length ≤ n) :
    (expressionStatement calls).Answers w w.behind
      ((Parse.expression (.eof size) .lowest w.tokens).1.andThen fun value last rest =>
        (Parse.finish (.expr w.current value) last rest).1) := by
  rw [expressionStatement, answers_current]
  exact (expression_answers h .lowest hlen).andThen rfl fun e w' _ _ => finish_answers

theorem statement_answers (h : calls.Adequate n) {t : Token} {ts : List Token}
    (htokens : w.tokens = t :: ts) (hlen : w.tokens.length ≤ n) :
    (statement calls).Answers w w.tokens (Parse.statement (.eof size) t ts).1 := by
  obtain ⟨hcurrent, hbehind⟩ := Parser.current_of_tokens htokens
  have hlen' : w.start.behind.length < n := by
    rw [Parser.length_behind, Parser.tokens_start]
    rw [htokens, List.length_cons] at hlen ⊢
    omega
  have hstart : w.start.current = t := hcurrent
  rw [statement]
  refine Answers.start (by simp [htokens]) ?_
  rw [answers_current, hstart]
  by_cases hlet : t.kind = .keyword .let_
  · rw [hlet, Parse.statement_let hlet, ← hcurrent, ← hbehind]
    exact letStatement_answers h hlen'
  by_cases hreturn : t.kind = .keyword .return_
  · rw [hreturn, Parse.statement_return hreturn, ← hcurrent, ← hbehind]
    exact returnStatement_answers h hlen'
  by_cases hbrace : t.kind = .lbrace
  · rw [hbrace, Parse.statement_lbrace hbrace, ← hcurrent, ← hbehind]
    exact (block_answers h hlen').andThen rfl fun body w' _ _ => answers_pure rfl
  · have hother := expressionStatement_answers (w := w.start) h hlen
    rw [Parse.statement_expr hlet hreturn hbrace, ← Parse.expression_cons, ← htokens, ← hcurrent]
    split
    next hk => exact absurd hk (hcurrent ▸ hlet)
    next hk => exact absurd hk (hcurrent ▸ hreturn)
    next hk => exact absurd hk (hcurrent ▸ hbrace)
    next => exact hother

end Parsing

/-- A nesting of functions suffices for all cursors with fewer tokens than it is deep. -/
theorem Calls.adequate {size : Nat} (depth : Nat) :
    (nested depth : Calls size).Adequate depth := by
  induction depth with
  | zero => exact ⟨Nat.one_pos, nofun, nofun⟩
  | succ depth ih =>
      refine ⟨Nat.lt_succ_self _, fun w _ _ htokens hlen => ?_, fun p w hlen => ?_⟩
      · exact Parsing.statement_answers ih htokens (Nat.le_of_lt_succ hlen)
      · exact Parsing.expression_answers ih p (Nat.le_of_lt_succ hlen)

end Monkey
