import Monkey.Proofs.Cursor.Depth
import Monkey.Proofs.Cursor.Functions
import Monkey.Proofs.Token.Segmentation
import Mathlib.Logic.Function.Iterate

/-!
# Reading comes to an end

Every function of the parser comes to an end, wherever it is called, and never moves the cursor
back. Each turn of a loop moves the cursor on or is the last one. A depth greater than the number
of tokens that are left suffices for that (`Parsing.Settles`). A whole text is read up to its end,
with the program and the errors that `parse` gives, and no two of its statements are started at
one token (`parsing_ends`).
-/

namespace Monkey

variable {size : Nat} {α β : Type}

namespace Parsing

open Reply

variable {n : Nat} {calls : Calls size} {w : Parser size}

/-! ## Programs -/

/-- The statements that a loop has with those that it is to read up to the end of the input. -/
def programReply (statements : List (Stmt Token)) (w : Parser size) : Reply (List (Stmt Token)) :=
  ⟨some (statements ++ (Parse.statements (.eof size) w.tokens).1),
    (Parse.statements (.eof size) w.tokens).2, .eof size, []⟩

theorem programTurn_turns (h : calls.Adequate n) (statements : List (Stmt Token))
    (w : Parser size) (hlen : w.tokens.length ≤ n) :
    (programTurn calls statements).Ends w
      (w.Turns Parser.tokens programReply (fun ss => pure (some ss)) statements) := by
  rw [programTurn, ends_current]
  cases htokens : w.tokens with
  | nil =>
      obtain ⟨hcurrent, hbehind⟩ := Parser.current_of_nil htokens
      have heof : (Token.eof size).kind = .eof := rfl
      rw [hcurrent, if_pos heof]
      refine ends_leave ?_ (List.tail_sublist w.tokens)
      rw [programReply, htokens, Parse.statements_nil, hcurrent, hbehind, List.append_nil]
      rfl
  | cons t ts =>
      obtain ⟨hcurrent, hbehind⟩ := Parser.current_of_tokens htokens
      have heof := w.kind_ne_eof t (by simp [htokens])
      rw [hcurrent, if_neg heof]
      refine Ends.bind (statement_answers h htokens hlen) fun r w' ⟨hr, h⟩ => ?_
      have hle := h.leads.length_le
      have hleads := h.leads
      rw [← h.behind_eq] at hleads
      rw [ends_advance]
      refine ends_pure (.again ?_ hleads.move ?_)
      · rw [programReply, htokens, Parse.statements_cons, programReply, Parser.tokens_advance,
          h.behind_eq, hr, after]
        simp
      · rw [Parser.length_advance, htokens, List.length_cons]
        rw [htokens, List.length_cons] at hle
        omega

/-- A program is read to the end, and its errors are handed over with those from before. -/
theorem program_ends (h : calls.Adequate n) (hlen : w.tokens.length ≤ n) :
    (program calls).Ends w fun r w' =>
      r = some ⟨⟨(Parse.statements (.eof size) w.tokens).1⟩,
        w.errors ++ (Parse.statements (.eof size) w.tokens).2⟩ ∧
      w'.tokens = [] ∧ w'.errors = [] ∧
      ∃ new, w'.started = w.started ++ new ∧ new.Sublist w.tokens := by
  have hloop := loop_answers [] w
    (fun s w' hle => programTurn_turns h s w' (Nat.le_trans hle hlen))
    (Nat.lt_of_le_of_lt hlen h.turns)
  rw [program]
  refine Ends.bind hloop fun r w' ⟨hr, h⟩ => ?_
  obtain ⟨new, hnew, hsub⟩ := h.leads.started
  have htokens : w'.tokens = [] := Parser.tokens_eq_nil (congrArg Token.kind h.current_eq)
  rw [hr]
  refine ends_pure ⟨?_, htokens, rfl, new, hnew, ?_⟩
  · have herrors := h.leads.errors_eq
    simpa [programReply] using herrors
  · simpa [programReply] using hsub

/-! ## Calls and loops -/

/-- Nested deeply enough, a function comes to an end, always with the same outcome, which has
the property. More levels than tokens are left are enough. -/
def Settles (x : Calls size → Parsing size α) (w : Parser size) (P : α → Parser size → Prop) :
    Prop :=
  ∃ a w', (∀ depth, w.tokens.length < depth → (x (.nested depth)).run w = some (a, w')) ∧ P a w'

theorem Ends.settles {x : Calls size → Parsing size α} {P : α → Parser size → Prop}
    (hx : ∀ {calls calls'}, calls.Sub calls' → (x calls).Sub (x calls'))
    (h : (x (.nested (w.tokens.length + 1))).Ends w P) : Settles x w P :=
  let ⟨a, w', hrun, ha⟩ := h
  ⟨a, w', fun _ hlt => hx (Calls.nested_sub hlt) w (a, w') hrun, ha⟩

/-- The function comes to an end, and does not move the cursor back. -/
def Forward (x : Parsing size α) (w : Parser size) : Prop :=
  x.Ends w fun _ w' => w'.tokens <:+ w.tokens

theorem Answers.forward {x : Parsing size (Option β)} {before : List Token} {reply : Reply β}
    (h : x.Answers w before reply) : x.Forward w :=
  Ends.mono h fun _ _ ⟨_, h⟩ => h.leads.suffix

/-- Also where there is no token left to start a statement at. -/
theorem statement_forward (h : calls.Adequate n) (hlen : w.tokens.length ≤ n)
    (hbehind : w.behind.length < n) : (statement calls).Forward w := by
  rw [statement, Forward, ends_modify, ends_current]
  split
  next => exact (letStatement_answers (w := w.start) h hbehind).forward
  next => exact (returnStatement_answers (w := w.start) h hbehind).forward
  next =>
    refine Ends.bind (block_answers (w := w.start) h hbehind).forward fun r w' h => ?_
    cases r <;> exact ends_pure h
  next => exact (expressionStatement_answers (w := w.start) h hlen).forward

theorem operand_forward (h : calls.Adequate n) (hbehind : w.behind.length < n) :
    (operand calls).Forward w := by
  cases htokens : w.tokens with
  | nil => exact (operand_answers_nil htokens).forward
  | cons t ts => exact (operand_answers h htokens hbehind).forward

end Parsing

/-- A call of a function of the parser. -/
inductive Routine where
  | program
  | statement
  | letStatement
  | returnStatement
  | expressionStatement
  | block
  | expression (p : Precedence)
  | operand
  | prefixExpression (op : UnaryOp)
  | infixExpression (op : BinaryOp) (left : Expr Token)
  | groupedExpression
  | ifExpression
  | functionLiteral
  | functionParameters
  | callExpression (callee : Expr Token)
  | callArguments

namespace Routine

/-- What the function reads. -/
def Result : Routine → Type
  | program => Parsed
  | statement | letStatement | returnStatement | expressionStatement => Stmt Token
  | block => Block Token
  | expression _ | operand | prefixExpression _ | infixExpression _ _ | groupedExpression
  | ifExpression | functionLiteral | callExpression _ => Expr Token
  | functionParameters => List (Ident Token)
  | callArguments => List (Expr Token)

/-- What the call does. -/
def run : (f : Routine) → Calls size → Parsing size (Option f.Result)
  | program => Parsing.program
  | statement => Parsing.statement
  | letStatement => Parsing.letStatement
  | returnStatement => Parsing.returnStatement
  | expressionStatement => Parsing.expressionStatement
  | block => Parsing.block
  | expression p => fun calls => Parsing.expression calls p
  | operand => Parsing.operand
  | prefixExpression op => fun calls => Parsing.prefixExpression calls op
  | infixExpression op left => fun calls => Parsing.infixExpression calls op left
  | groupedExpression => Parsing.groupedExpression
  | ifExpression => Parsing.ifExpression
  | functionLiteral => Parsing.functionLiteral
  | functionParameters => Parsing.functionParameters
  | callExpression callee => fun calls => Parsing.callExpression calls callee
  | callArguments => Parsing.callArguments

theorem run_sub (f : Routine) {calls calls' : Calls size} (h : calls.Sub calls') :
    (f.run calls).Sub (f.run calls') := by
  cases f with
  | program => exact Parsing.program_sub h
  | statement => exact Parsing.statement_sub h
  | letStatement => exact Parsing.letStatement_sub h
  | returnStatement => exact Parsing.returnStatement_sub h
  | expressionStatement => exact Parsing.expressionStatement_sub h
  | block => exact Parsing.block_sub h
  | expression p => exact Parsing.expression_sub h p
  | operand => exact Parsing.operand_sub h
  | prefixExpression op => exact Parsing.prefixExpression_sub h op
  | infixExpression op left => exact Parsing.infixExpression_sub h op left
  | groupedExpression => exact Parsing.groupedExpression_sub h
  | ifExpression => exact Parsing.ifExpression_sub h
  | functionLiteral => exact Parsing.functionLiteral_sub h
  | functionParameters => exact Parsing.functionParameters_sub h
  | callExpression callee => exact Parsing.callExpression_sub h callee
  | callArguments => exact Parsing.callArguments_sub h

theorem forward (f : Routine) {n : Nat} {calls : Calls size} {w : Parser size}
    (h : calls.Adequate n) (hlen : w.tokens.length < n) : (f.run calls).Forward w := by
  have hle := Nat.le_of_lt hlen
  have hbehind := Nat.lt_of_le_of_lt w.behind_suffix.length_le hlen
  cases f with
  | program =>
      refine Parsing.Ends.mono (Parsing.program_ends h hle) fun _ w' ⟨_, htokens, _⟩ => ?_
      rw [htokens]
      exact List.nil_suffix
  | statement => exact Parsing.statement_forward h hle hbehind
  | letStatement => exact (Parsing.letStatement_answers h hbehind).forward
  | returnStatement => exact (Parsing.returnStatement_answers h hbehind).forward
  | expressionStatement => exact (Parsing.expressionStatement_answers h hle).forward
  | block => exact (Parsing.block_answers h hbehind).forward
  | expression p => exact (Parsing.expression_answers h p hle).forward
  | operand => exact Parsing.operand_forward h hbehind
  | prefixExpression op => exact (Parsing.prefixExpression_answers h op hbehind).forward
  | infixExpression op left => exact (Parsing.infixExpression_answers h op left hbehind).forward
  | groupedExpression => exact (Parsing.groupedExpression_answers h hbehind).forward
  | ifExpression => exact (Parsing.ifExpression_answers h hbehind).forward
  | functionLiteral => exact (Parsing.functionLiteral_answers h hbehind).forward
  | functionParameters => exact (Parsing.functionParameters_answers h hbehind).forward
  | callExpression callee => exact (Parsing.callExpression_answers h callee hbehind).forward
  | callArguments => exact (Parsing.callArguments_answers h hbehind).forward

/-- The call comes to an end, and does not move the cursor back. -/
theorem settles (f : Routine) (w : Parser size) :
    Parsing.Settles f.run w fun _ w' => w'.tokens <:+ w.tokens :=
  Parsing.Ends.settles f.run_sub (f.forward (Calls.adequate _) (Nat.lt_succ_self _))

end Routine

/-- A loop of the parser. -/
inductive Loop where
  | program
  | block
  | operators (p : Precedence)
  | arguments
  | parameters

namespace Loop

/-- What the loop has so far. -/
def State : Loop → Type
  | program | block => List (Stmt Token)
  | operators _ => Expr Token
  | arguments => List (Expr Token)
  | parameters => List (Ident Token)

/-- One turn of the loop. -/
def turn : (l : Loop) → l.State → Calls size → Parsing size (Option (Turn l.State))
  | program => fun s calls => Parsing.programTurn calls s
  | block => fun s calls => Parsing.blockTurn calls s
  | operators p => fun s calls => Parsing.operatorTurn calls p s
  | arguments => fun s calls => Parsing.argumentTurn calls s
  | parameters => fun s _ => Parsing.parameterTurn s

theorem turn_sub (l : Loop) (s : l.State) {calls calls' : Calls size} (h : calls.Sub calls') :
    (l.turn s calls).Sub (l.turn s calls') := by
  cases l with
  | program => exact Parsing.programTurn_sub h s
  | block => exact Parsing.blockTurn_sub h s
  | operators p => exact Parsing.operatorTurn_sub h p s
  | arguments => exact Parsing.argumentTurn_sub h s
  | parameters => exact .refl _

end Loop

/-- The cursor is not moved back, and it is moved on if the loop goes on. -/
def Parser.Advances {σ : Type} (w : Parser size) (r : Option (Turn σ)) (w' : Parser size) : Prop :=
  w'.tokens <:+ w.tokens ∧ ∀ s', r = some (.again s') → w'.tokens.length < w.tokens.length

theorem Parser.Turns.advances {σ : Type} {w w' : Parser size} {before : Parser size → List Token}
    {reply : σ → Parser size → Reply β} {after : σ → Parsing size (Option β)} {s : σ}
    {r : Option (Turn σ)} (h : w.Turns before reply after s r w') : w.Advances r w' := by
  cases h with
  | giveUp _ h => exact ⟨h.leads.suffix, nofun⟩
  | leave _ h _ => exact ⟨h.suffix, nofun⟩
  | again _ h hlen => exact ⟨h.suffix, fun _ _ => hlen⟩

theorem Loop.advances (l : Loop) (s : l.State) {n : Nat} {calls : Calls size} {w : Parser size}
    (h : calls.Adequate n) (hlen : w.tokens.length < n) :
    (l.turn s calls).Ends w w.Advances := by
  have hbehind := Nat.lt_of_le_of_lt w.behind_suffix.length_le hlen
  cases l with
  | program =>
      exact (Parsing.programTurn_turns h s w (Nat.le_of_lt hlen)).mono fun _ _ h => h.advances
  | block =>
      exact (Parsing.blockTurn_turns h (β := List (Stmt Token)) id s w hlen).mono
        fun _ _ h => h.advances
  | operators p =>
      exact (Parsing.operatorTurn_turns h p s w hbehind).mono fun _ _ h => h.advances
  | arguments => exact (Parsing.argumentTurn_turns h s w hbehind).mono fun _ _ h => h.advances
  | parameters => exact (Parsing.parameterTurn_turns s w).mono fun _ _ h => h.advances

/-- A turn comes to an end, and moves the cursor on if the loop goes on. -/
theorem Loop.settles (l : Loop) (s : l.State) (w : Parser size) :
    Parsing.Settles (l.turn s) w w.Advances :=
  Parsing.Ends.settles (l.turn_sub s) (l.advances s (Calls.adequate _) (Nat.lt_succ_self _))

/-! ## Texts -/

/-- The parser at the beginning of a text. -/
def Parser.ofString (source : String) : Parser source.utf8ByteSize :=
  ⟨tokenize source, fun _ ht => kind_ne_eof_of_mem_tokenize ht, [], []⟩

theorem Parser.tokens_iterate_advance (w : Parser size) (n : Nat) :
    (advance^[n] w).tokens = w.tokens.drop n := by
  induction n generalizing w with
  | zero => rfl
  | succ n ih => rw [Function.iterate_succ_apply, ih, tokens_advance, behind, List.drop_tail]

/-- The cursor comes to stand on what the scanner gives, one token after another. -/
theorem Parser.take_eq_current (source : String) (n : Nat) :
    Scanner.take n (.ofString source) =
      (List.range n).map fun i => (advance^[i] (.ofString source)).current := by
  have hstop : (Scanner.ofString source).stop = source.utf8ByteSize := by
    rw [← byteCount_toList, ← Nat.zero_add (byteCount source.toList)]
    rfl
  rw [Scanner.take_eq, hstop]
  refine List.map_congr_left fun i _ => ?_
  rw [current, tokens_iterate_advance, List.headD_eq_head?_getD, List.head?_drop]
  rfl

/-- Reading comes to an end on every text. Every function of the parser does, wherever the cursor
is, and does not move it back. Every turn of a loop moves the cursor on, unless the loop is left.
A program is what `parse` gives, no two of its statements are started at one token, and the
cursor is on the end of the input behind it: to read another one gives an empty program, and no
errors. -/
theorem parsing_ends (source : String) :
    (∀ n, Scanner.take n (.ofString source) =
      (List.range n).map fun i => (Parser.advance^[i] (.ofString source)).current) ∧
    (∀ (f : Routine) (w : Parser source.utf8ByteSize),
      Parsing.Settles f.run w fun _ w' => w'.tokens <:+ w.tokens) ∧
    (∀ (l : Loop) (s : l.State) (w : Parser source.utf8ByteSize),
      Parsing.Settles (l.turn s) w w.Advances) ∧
    Parsing.Settles Parsing.program (.ofString source) fun r w =>
      r = some (parse source) ∧ w.tokens = [] ∧ w.current = .eof source.utf8ByteSize ∧
      w.started.Sublist (tokenize source) ∧
      (w.started.Pairwise fun t u => t.span.start < u.span.start) ∧
      Parsing.Settles Parsing.program w fun r w' =>
        r = some ⟨⟨[]⟩, []⟩ ∧ w'.tokens = [] ∧ w'.started = w.started := by
  refine ⟨Parser.take_eq_current source, fun f w => f.settles w, fun l s w => l.settles s w, ?_⟩
  refine (Parsing.program_ends (Calls.adequate _) (Nat.le_succ _)).mono
    (fun r w ⟨hr, htokens, herrors, new, hnew, hsub⟩ => ?_) |>.settles Parsing.program_sub
  have hstarted : w.started = new := hnew
  refine ⟨hr, htokens, (Parser.current_of_nil htokens).1, ?_, ?_, ?_⟩
  · rw [hstarted]
    exact hsub
  · rw [hstarted]
    exact ((pairwise_tokenize source).imp And.left).sublist hsub
  · -- no token is left to start a statement at, and the errors have been handed over
    refine (Parsing.program_ends (Calls.adequate _) (Nat.le_succ _)).mono
      (fun r' w' ⟨hr', htokens', _, new', hnew', hsub'⟩ => ?_) |>.settles Parsing.program_sub
    rw [htokens, List.sublist_nil] at hsub'
    rw [htokens, herrors, Parse.statements_nil] at hr'
    exact ⟨hr', htokens', by rw [hnew', hsub', List.append_nil]⟩

end Monkey
