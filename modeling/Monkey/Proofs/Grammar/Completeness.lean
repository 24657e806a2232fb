import Monkey.Proofs.Grammar.Soundness

/-!
# What is derived longest is read

If tokens are a longest derivation of a phrase, then the parse functions read the
phrase off them without errors, whatever stands behind them, as long as it cannot belong
to the phrase itself. Operators are read from left to right while the derivation nests
them, so the statement for expressions speaks of the moment when the last operand is
read and its operators are still to come (`Phrase.IsRead`).

With what is derived from texts that are read without errors, this makes the parser
accept the grammar and build its trees (`Grammar.parse_recognizes`).
-/

namespace Monkey

namespace Reply

variable {β γ δ ε : Type} {b : β} {last : Token} {ts us : List Token}

/-- Without errors, the reply is something that says `c`, and leaves `ts`. -/
def Answers (r : Reply β) (view : β → γ) (c : γ) (ts : List Token) : Prop :=
  ∃ b last, view b = c ∧ r = done b last ts

theorem answers_done {view : β → γ} : (done b last ts).Answers view (view b) ts :=
  ⟨b, last, rfl, rfl⟩

theorem Answers.andThen {r : Reply β} {f : β → Token → List Token → Reply δ}
    {view : β → γ} {c : γ} {view' : δ → ε} {d : ε} (h : r.Answers view c ts)
    (hf : ∀ b last, view b = c → (f b last ts).Answers view' d us) :
    (r.andThen f).Answers view' d us := by
  obtain ⟨b, last, hb, rfl⟩ := h
  exact hf b last hb

end Reply

namespace Grammar

open Reply Parse

variable {eof last t : Token} {ts us vs : List Token} {p q : Precedence}

/-- No `else` follows. -/
def NoElse (ts : List Token) : Prop :=
  ∀ t ∈ ts.head?, t.kind ≠ .keyword .else_

/-- What follows can stand behind a statement. -/
def Follows (ts : List Token) : Prop :=
  ∀ t ∈ ts.head?, t.kind.OpensStmt ∨ t.kind = .rbrace

/-- The operators of the level `q` and of those above it hold tighter than `p`. -/
def Tighter (p q : Precedence) : Prop :=
  ∀ op : BinaryOp, q.rank ≤ op.precedence.rank → p.rank < op.precedence.rank

theorem tighter_lowest : Tighter .lowest .lowest := by
  intro op _
  cases op <;> decide

theorem tighter_tighter (p : Precedence) : Tighter p p.tighter := by
  intro op hop
  cases p <;> cases op <;> first | decide | exact absurd hop (by decide)

theorem Stops.mono (h : Stops p ts) (hpq : p.rank ≤ q.rank) : Stops q ts := by
  intro t ht
  exact ⟨(h t ht).1, fun op hop => Nat.le_trans ((h t ht).2 op hop) hpq⟩

/-- Nothing that is neither a parenthesis nor an operator belongs to an expression. -/
theorem stops_cons (hparen : t.kind ≠ .lparen) (hop : BinaryOp.ofKind? t.kind = none) :
    Stops p (t :: ts) := by
  simp [Stops, hparen, hop]

/-- An operator stops what is of its own level. -/
theorem stops_operator {op : BinaryOp} (hop : BinaryOp.ofKind? t.kind = some op) :
    Stops op.precedence (t :: ts) := by
  have hparen : t.kind ≠ .lparen := by
    intro hk
    rw [hk] at hop
    cases hop
  simp [Stops, hparen, hop]

theorem noElse_operator {op : BinaryOp} (hop : BinaryOp.ofKind? t.kind = some op) :
    NoElse (t :: ts) := by
  simp only [NoElse, List.head?_cons, Option.mem_some, forall_eq']
  intro hk
  rw [hk] at hop
  cases hop

theorem operators_stops {e : Expr Token} (h : Stops p ts) :
    (operators eof p e last ts).1 = .done e last ts := by
  cases ts with
  | nil => exact operators_nil
  | cons t ts =>
      obtain ⟨hparen, hrank⟩ := h t (by simp)
      cases hop : BinaryOp.ofKind? t.kind with
      | none => exact operators_other hparen hop
      | some op => rw [operators_binary hop, if_neg (by have := hrank op hop; omega)]

theorem alternative_noElse (h : NoElse ts) :
    (alternative eof last ts).1 = .done none last ts := by
  cases ts with
  | nil => exact alternative_nil
  | cons t ts => rw [alternative_cons, if_neg (h t (by simp))]

/-- Behind the expression `e`, which is written `us`, the parser goes on with the
operators in `rest`. -/
def OperandRead (eof : Token) (p : Precedence) (e : Expr Unit) (us rest : List Token) :
    Prop :=
  ∃ e' last, e'.erase = e ∧
    (expression eof p (us ++ rest)).1 = (operators eof p e' last rest).1

theorem OperandRead.answers {e : Expr Unit} (h : OperandRead eof p e us ts) (hp : Stops p ts) :
    (expression eof p (us ++ ts)).1.Answers Expr.erase e ts := by
  obtain ⟨e', last, rfl, heq⟩ := h
  rw [heq, operators_stops hp]
  exact answers_done

/-- What it means for the parser to read the phrase off the tokens, whatever follows. -/
def Phrase.IsRead (eof : Token) : Phrase → List Token → Prop
  | statements ss, us =>
      (∀ u rest, u.kind = .rbrace →
        (blockStatements eof (us ++ u :: rest)).1.Answers (List.map Stmt.erase) ss rest) ∧
      ∃ ss', ss'.map Stmt.erase = ss ∧ Parse.statements eof us = (ss', [])
  | statement s ending, us => ∀ rest, (ending = .expression → ¬Continues rest) →
      Follows rest → ∀ t ts, us ++ rest = t :: ts →
      (Parse.statement eof t ts).1.Answers Stmt.erase s rest
  | clause s, us => ∀ rest, Stops .lowest rest → NoElse rest → ∀ t ts, us ++ rest = t :: ts →
      ∃ s' last, s'.erase = s ∧ (Parse.statement eof t ts).1 = (finish s' last rest).1
  | block b, us => ∃ l vs, us = l :: vs ∧ l.kind = .lbrace ∧
      ∀ rest, (Parse.block eof l (vs ++ rest)).1.Answers Block.erase b rest
  | expr q e, us => ∀ p rest, Tighter p q → Stops q rest → NoElse rest →
      OperandRead eof p e us rest
  | called e, us => ∀ p rest, NoElse rest → OperandRead eof p e us rest
  | primary e, us => ∀ rest, NoElse rest → ∀ t ts, us ++ rest = t :: ts →
      (operand eof t ts).1.Answers Expr.erase e rest
  | args es, us => ∃ l vs, us = l :: vs ∧ l.kind = .lparen ∧
      ∀ rest, (Parse.args eof (vs ++ rest)).1.Answers (List.map Expr.erase) es rest
  | exprs es, us => ∀ u rest, u.kind = .rparen →
      ((expression eof .lowest (us ++ u :: rest)).1.andThen fun first last rest =>
        (moreArgs eof last rest).1.andThen fun more last rest =>
        .done (first :: more) last rest).Answers (List.map Expr.erase) es rest
  | params ids, us => ∃ l vs, us = l :: vs ∧ l.kind = .lparen ∧
      ∀ rest, (Parse.params eof l (vs ++ rest)).1.Answers (List.map Ident.erase) ids rest
  | names ids, us => ∀ last u rest, u.kind = .rparen →
      (Parse.someParams eof last (us ++ u :: rest)).1.Answers (List.map Ident.erase) ids rest

/-! ## One production after another -/

theorem Follows.stops (h : Follows ts) (hts : ¬Continues ts) : Stops .lowest ts := by
  intro t ht
  have hlparen : t.kind ≠ .lparen := fun hk => hts ⟨t, ht, .inl hk⟩
  have hminus : t.kind ≠ .minus := fun hk => hts ⟨t, ht, .inr hk⟩
  refine ⟨hlparen, fun op hop => ?_⟩
  simp only [Follows, Kind.OpensStmt, Kind.OpensExpr, List.mem_cons, List.not_mem_nil,
    or_false] at h
  rcases h t ht with (hk | hk | hk | hk | hk | hk | hk | hk | hk | hk | hk | hk) | hk <;>
    first
    | exact absurd hk hlparen
    | exact absurd hk hminus
    | rw [hk] at hop; cases hop

theorem Follows.noElse (h : Follows ts) : NoElse ts := by
  intro t ht hk
  simpa [hk, Kind.OpensStmt, Kind.OpensExpr] using h t ht

theorem Follows.finish {s : Stmt Token} (h : Follows ts) :
    (finish s last ts).1 = .done s last ts := by
  cases ts with
  | nil => rfl
  | cons t ts =>
      rw [finish_cons, if_neg]
      intro hk
      simpa [hk, Kind.OpensStmt, Kind.OpensExpr] using h t (by simp)

theorem follows_cons (h : t.kind.OpensStmt ∨ t.kind = .rbrace) : Follows (t :: ts) := by
  simpa [Follows] using h

variable {longest : Bool}

/-- A statement can stand behind another one, as can the brace at the end of a block. -/
theorem Derives.follows {ss : List (Stmt Unit)} (h : Derives longest (.statements ss) us)
    (hts : Follows ts) : Follows (us ++ ts) := by
  obtain ⟨-, rfl⟩ | ⟨t, us, rfl, ht⟩ := h.opens
  · exact hts
  · exact follows_cons (.inl ht)

/-- The parser goes on behind a phrase that stands by itself. -/
theorem operandRead_of_operand {e : Expr Unit} (h : Derives longest (.primary e) us)
    (hread : ∀ t ts, us ++ vs = t :: ts → (operand eof t ts).1.Answers Expr.erase e vs) :
    OperandRead eof p e us vs := by
  obtain ⟨hφ, -⟩ | ⟨t, us, rfl, -⟩ := h.opens
  · cases hφ
  · obtain ⟨e', last, he, heq⟩ := hread t (us ++ vs) rfl
    refine ⟨e', last, he, ?_⟩
    rw [List.cons_append, expression_cons, expressionAt_eq, heq, done_andThen]

theorem isRead_called {e : Expr Unit} (h : Derives longest (.primary e) us)
    (ih : Phrase.IsRead eof (.primary e) us) : Phrase.IsRead eof (.called e) us :=
  fun _ rest helse => operandRead_of_operand h (ih rest helse)

theorem isRead_looser {e : Expr Unit} (ih : Phrase.IsRead eof (.expr p.tighter e) us) :
    Phrase.IsRead eof (.expr p e) us := by
  intro q rest hq hstops helse
  refine ih q rest (fun op hop => hq op ?_) (hstops.mono p.rank_le_tighter) helse
  exact Nat.le_trans p.rank_le_tighter hop

theorem isRead_call {f : Expr Unit} {es : List (Expr Unit)}
    (ihf : Phrase.IsRead eof (.called f) us) (ihes : Phrase.IsRead eof (.args es) vs) :
    Phrase.IsRead eof (.called (.call () f es)) (us ++ vs) := by
  intro p rest helse
  obtain ⟨l, vs, rfl, hl, hvs⟩ := ihes
  obtain ⟨f', last, rfl, hf⟩ := ihf p (l :: vs ++ rest) (by simp [NoElse, hl])
  obtain ⟨es', last', rfl, hes⟩ := hvs rest
  refine ⟨.call l f' es', last', by simp, ?_⟩
  rw [List.append_assoc, hf, List.cons_append, operators_lparen hl, hes, done_andThen]

theorem isRead_binary {op : BinaryOp} {l r : Expr Unit}
    (ihl : Phrase.IsRead eof (.expr op.precedence l) us)
    (hop : BinaryOp.ofKind? t.kind = some op)
    (ihr : Phrase.IsRead eof (.expr op.precedence.tighter r) vs) :
    Phrase.IsRead eof (.expr op.precedence (.binary () op l r)) (us ++ t :: vs) := by
  intro p rest hp hstops helse
  obtain ⟨l', last, rfl, hl⟩ := ihl p (t :: vs ++ rest) hp (stops_operator hop)
    (noElse_operator hop)
  have hright := ihr op.precedence rest (tighter_tighter _)
    (hstops.mono (Precedence.rank_le_tighter _)) helse
  obtain ⟨r', last', rfl, hr⟩ := hright.answers hstops
  refine ⟨.binary t op l' r', last', by simp, ?_⟩
  rw [List.append_assoc, hl, List.cons_append, operators_binary hop,
    if_pos (hp op (Nat.le_refl _)), hr, done_andThen]

theorem isRead_unary {op : UnaryOp} {e : Expr Unit} (hop : UnaryOp.ofKind? t.kind = some op)
    (ih : Phrase.IsRead eof (.expr .unary e) us) :
    Phrase.IsRead eof (.expr .unary (.unary () op e)) (t :: us) := by
  intro p rest _ hstops helse
  have hoperand := ih .unary rest (tighter_tighter .unary) hstops helse
  obtain ⟨e', last, rfl, he⟩ := hoperand.answers hstops
  refine ⟨.unary t op e', last, by simp, ?_⟩
  rw [List.cons_append, expression_cons, expressionAt_eq, operand_unary hop, he,
    done_andThen, done_andThen]

/-- An expression that a token follows which neither continues nor ends a phrase of its
own is read to its end. -/
theorem isRead_expression {e : Expr Unit} (ih : Phrase.IsRead eof (.expr .lowest e) us)
    (hstops : Stops .lowest ts) (helse : NoElse ts) :
    (expression eof .lowest (us ++ ts)).1.Answers Expr.erase e ts :=
  (ih .lowest ts tighter_lowest hstops helse).answers hstops

/-- An expression up to a token that ends it: a parenthesis, a comma, a brace, or a
semicolon. -/
theorem isRead_expression_cons {e : Expr Unit} (ih : Phrase.IsRead eof (.expr .lowest e) us)
    (ht : t.kind ∈ [.rparen, .comma, .semicolon, .rbrace]) :
    (expression eof .lowest (us ++ t :: ts)).1.Answers Expr.erase e (t :: ts) := by
  simp only [List.mem_cons, List.not_mem_nil, or_false] at ht
  refine isRead_expression ih (stops_cons ?_ ?_) ?_ <;>
    rcases ht with hk | hk | hk | hk <;> simp [NoElse, hk, BinaryOp.ofKind?]

theorem expect_of_kind {kind : Kind} (ht : t.kind = kind) :
    (expect eof kind last (t :: ts)).1 = .done t t ts := by
  rw [expect_cons, if_pos ht]

theorem isRead_group {u : Token} {e : Expr Unit} (ht : t.kind = .lparen)
    (ih : Phrase.IsRead eof (.expr .lowest e) us) (hu : u.kind = .rparen) :
    Phrase.IsRead eof (.primary e) (t :: us ++ [u]) := by
  intro rest _ t' ts hts
  obtain ⟨rfl, rfl⟩ : t = t' ∧ us ++ u :: rest = ts := by simpa using hts
  rw [operand_lparen ht]
  refine (isRead_expression_cons ih (by simp [hu])).andThen fun e' last he => ?_
  rw [expect_of_kind hu, done_andThen]
  exact ⟨e', u, he, rfl⟩

/-- What comes after the keyword of a condition, up to the end of its first branch. -/
theorem operand_if_of_isRead {l r : Token} {c : Expr Unit} {b : Block Unit}
    (rest : List Token) (ht : t.kind = .keyword .if_) (hl : l.kind = .lparen)
    (ihc : Phrase.IsRead eof (.expr .lowest c) us)
    (hr : r.kind = .rparen) (ihb : Phrase.IsRead eof (.block b) vs) :
    ∃ c' b' last, c'.erase = c ∧ b'.erase = b ∧
      (operand eof t (l :: us ++ r :: vs ++ rest)).1 =
        (alternative eof last rest).1.andThen fun alternative last rest =>
        .done (.cond t c' b' alternative) last rest := by
  obtain ⟨brace, vs, rfl, hbrace, hvs⟩ := ihb
  have hcondition : (expression eof .lowest (us ++ r :: (brace :: vs ++ rest))).1.Answers
      Expr.erase c (r :: (brace :: vs ++ rest)) := isRead_expression_cons ihc (by simp [hr])
  obtain ⟨c', last, hc, heqc⟩ := hcondition
  obtain ⟨b', last', hb, heqb⟩ := hvs rest
  refine ⟨c', b', last', hc, hb, ?_⟩
  rw [operand_if ht, List.append_assoc, List.cons_append, expect_of_kind hl, done_andThen,
    List.cons_append, heqc, done_andThen, expect_of_kind hr, done_andThen, List.cons_append,
    expect_of_kind hbrace, done_andThen, heqb, done_andThen]

theorem isRead_if {l r : Token} {c : Expr Unit} {b : Block Unit} (ht : t.kind = .keyword .if_)
    (hl : l.kind = .lparen) (ihc : Phrase.IsRead eof (.expr .lowest c) us)
    (hr : r.kind = .rparen) (ihb : Phrase.IsRead eof (.block b) vs) :
    Phrase.IsRead eof (.primary (.cond () c b none)) (t :: l :: us ++ r :: vs) := by
  intro rest helse t' ts hts
  obtain ⟨rfl, rfl⟩ : t = t' ∧ l :: us ++ r :: vs ++ rest = ts := by simpa using hts
  obtain ⟨c', b', last, rfl, rfl, heq⟩ := operand_if_of_isRead rest ht hl ihc hr ihb
  rw [heq, alternative_noElse helse, done_andThen]
  exact ⟨_, last, by simp, rfl⟩

theorem isRead_ifElse {l r o : Token} {c : Expr Unit} {b a : Block Unit} {ws : List Token}
    (ht : t.kind = .keyword .if_) (hl : l.kind = .lparen)
    (ihc : Phrase.IsRead eof (.expr .lowest c) us) (hr : r.kind = .rparen)
    (ihb : Phrase.IsRead eof (.block b) vs) (ho : o.kind = .keyword .else_)
    (iha : Phrase.IsRead eof (.block a) ws) :
    Phrase.IsRead eof (.primary (.cond () c b (some a)))
      (t :: l :: us ++ r :: vs ++ o :: ws) := by
  intro rest _ t' ts hts
  obtain ⟨brace, ws, rfl, hbrace, hws⟩ := iha
  obtain ⟨rfl, rfl⟩ : t = t' ∧ l :: us ++ r :: vs ++ (o :: brace :: ws ++ rest) = ts := by
    simpa using hts
  obtain ⟨c', b', last, rfl, rfl, heq⟩ :=
    operand_if_of_isRead (o :: brace :: ws ++ rest) ht hl ihc hr ihb
  obtain ⟨a', last', rfl, ha⟩ := hws rest
  rw [heq, List.cons_append, alternative_cons, if_pos ho, List.cons_append,
    expect_of_kind hbrace, done_andThen, ha, done_andThen, done_andThen]
  exact ⟨_, last', by simp, rfl⟩

theorem isRead_function {ids : List (Ident Unit)} {b : Block Unit}
    (ht : t.kind = .keyword .function) (ihids : Phrase.IsRead eof (.params ids) us)
    (ihb : Phrase.IsRead eof (.block b) vs) :
    Phrase.IsRead eof (.primary (.function () ids b)) (t :: us ++ vs) := by
  intro rest _ t' ts hts
  obtain ⟨l, us, rfl, hl, hus⟩ := ihids
  obtain ⟨brace, vs, rfl, hbrace, hvs⟩ := ihb
  obtain ⟨rfl, rfl⟩ : t = t' ∧ l :: us ++ brace :: vs ++ rest = ts := by simpa using hts
  obtain ⟨ids', last, rfl, heqids⟩ := hus (brace :: vs ++ rest)
  obtain ⟨b', last', rfl, heqb⟩ := hvs rest
  refine ⟨.function t ids' b', last', by simp, ?_⟩
  rw [operand_function ht, List.append_assoc, List.cons_append, expect_of_kind hl,
    done_andThen, heqids, done_andThen, List.cons_append, expect_of_kind hbrace,
    done_andThen, heqb, done_andThen]

theorem isRead_lastExpr {e : Expr Unit} (ih : Phrase.IsRead eof (.expr .lowest e) us) :
    Phrase.IsRead eof (.exprs [e]) us := by
  intro u rest hu
  refine (isRead_expression_cons ih (by simp [hu])).andThen fun e' last he => ?_
  rw [moreArgs_cons, if_neg (by simp [hu]), expect_of_kind hu]
  exact ⟨[e'], u, by simp [he], rfl⟩

theorem isRead_moreExprs {e : Expr Unit} {es : List (Expr Unit)}
    (ih : Phrase.IsRead eof (.expr .lowest e) us) (ht : t.kind = .comma)
    (ihs : Phrase.IsRead eof (.exprs es) vs) :
    Phrase.IsRead eof (.exprs (e :: es)) (us ++ t :: vs) := by
  intro u rest hu
  rw [List.append_assoc, List.cons_append]
  refine (isRead_expression_cons ih (by simp [ht])).andThen fun e' last he => ?_
  rw [moreArgs_cons, if_pos ht]
  refine (ihs u rest hu).andThen fun es' last hes => ?_
  exact ⟨e' :: es', last, by simp [he, hes], rfl⟩

theorem isRead_someArgs {u : Token} {es : List (Expr Unit)} (ht : t.kind = .lparen)
    (h : Derives longest (.exprs es) us) (ih : Phrase.IsRead eof (.exprs es) us)
    (hu : u.kind = .rparen) : Phrase.IsRead eof (.args es) (t :: us ++ [u]) := by
  refine ⟨t, us ++ [u], rfl, ht, fun rest => ?_⟩
  obtain ⟨hφ, -⟩ | ⟨v, us, rfl, hv⟩ := h.opens
  · cases hφ
  · have hne : v.kind ≠ .rparen := by
      intro hk
      simp [Phrase.Opens, Kind.OpensExpr, hk] at hv
    rw [List.append_assoc, List.cons_append, args_cons, if_neg hne, ← expression_cons]
    exact ih u rest hu

theorem isRead_lastName (ht : t.kind = .ident) :
    Phrase.IsRead eof (.names [⟨(), t.literal⟩]) [t] := by
  intro last u rest hu
  rw [someParams_eq, List.cons_append, expect_of_kind ht, done_andThen, List.nil_append,
    moreParams_cons, if_neg (by simp [hu]), expect_of_kind hu]
  exact ⟨[⟨t, t.literal⟩], u, rfl, rfl⟩

theorem isRead_moreNames {c : Token} {ids : List (Ident Unit)} (ht : t.kind = .ident)
    (hc : c.kind = .comma) (ih : Phrase.IsRead eof (.names ids) us) :
    Phrase.IsRead eof (.names (⟨(), t.literal⟩ :: ids)) (t :: c :: us) := by
  intro last u rest hu
  rw [someParams_eq, List.cons_append, expect_of_kind ht, done_andThen, List.cons_append,
    moreParams_cons, if_pos hc]
  refine (ih c u rest hu).andThen fun ids' last hids => ?_
  exact ⟨⟨t, t.literal⟩ :: ids', last, by simp [hids], rfl⟩

theorem isRead_someParams {u : Token} {ids : List (Ident Unit)} (ht : t.kind = .lparen)
    (h : Derives longest (.names ids) us) (ih : Phrase.IsRead eof (.names ids) us)
    (hu : u.kind = .rparen) : Phrase.IsRead eof (.params ids) (t :: us ++ [u]) := by
  refine ⟨t, us ++ [u], rfl, ht, fun rest => ?_⟩
  obtain ⟨hφ, -⟩ | ⟨v, us, rfl, hv⟩ := h.opens
  · cases hφ
  · have hne : v.kind ≠ .rparen := by
      rw [show v.kind = .ident from hv]
      simp
    rw [List.append_assoc, List.cons_append, params_cons, if_neg hne]
    exact ih t u rest hu

/-! ## Statements -/

theorem isRead_let {name eq : Token} {e : Expr Unit} (ht : t.kind = .keyword .let_)
    (hname : name.kind = .ident) (heq : eq.kind = .assign)
    (ih : Phrase.IsRead eof (.expr .lowest e) us) :
    Phrase.IsRead eof (.clause (.let_ () ⟨(), name.literal⟩ e)) (t :: name :: eq :: us) := by
  intro rest hstops helse t' ts hts
  obtain ⟨rfl, rfl⟩ : t = t' ∧ name :: eq :: us ++ rest = ts := by simpa using hts
  obtain ⟨e', last, rfl, he⟩ := isRead_expression ih hstops helse
  refine ⟨.let_ t ⟨name, name.literal⟩ e', last, by simp, ?_⟩
  rw [statement_let ht, List.cons_append, expect_of_kind hname, done_andThen,
    List.cons_append, expect_of_kind heq, done_andThen, he, done_andThen]

theorem isRead_return {e : Expr Unit} (ht : t.kind = .keyword .return_)
    (ih : Phrase.IsRead eof (.expr .lowest e) us) :
    Phrase.IsRead eof (.clause (.return_ () e)) (t :: us) := by
  intro rest hstops helse t' ts hts
  obtain ⟨rfl, rfl⟩ : t = t' ∧ us ++ rest = ts := by simpa using hts
  obtain ⟨e', last, rfl, he⟩ := isRead_expression ih hstops helse
  refine ⟨.return_ t e', last, by simp, ?_⟩
  rw [statement_return ht, he, done_andThen]

theorem isRead_expr {e : Expr Unit} (h : Derives longest (.expr .lowest e) us)
    (ih : Phrase.IsRead eof (.expr .lowest e) us) :
    Phrase.IsRead eof (.clause (.expr () e)) us := by
  intro rest hstops helse t ts hts
  obtain ⟨e', last, rfl, he⟩ := isRead_expression ih hstops helse
  obtain ⟨hφ, -⟩ | ⟨t', us, rfl, ht⟩ := h.opens
  · cases hφ
  obtain ⟨rfl, rfl⟩ : t' = t ∧ us ++ rest = ts := by simpa using hts
  refine ⟨.expr t' e', last, by simp, ?_⟩
  rw [List.cons_append, expression_cons] at he
  rw [statement_expr, he, done_andThen] <;>
    · intro hk
      simp [Phrase.Opens, Kind.OpensExpr, hk] at ht

theorem isRead_unclosed {s : Stmt Unit} (ih : Phrase.IsRead eof (.clause s) us) :
    Phrase.IsRead eof (.statement s .expression) us := by
  intro rest hcont hfollows t ts hts
  obtain ⟨s', last, rfl, hs⟩ :=
    ih rest (hfollows.stops (hcont rfl)) hfollows.noElse t ts hts
  rw [hs, hfollows.finish]
  exact answers_done

theorem isRead_closed {s : Stmt Unit} (ih : Phrase.IsRead eof (.clause s) us)
    (ht : t.kind = .semicolon) : Phrase.IsRead eof (.statement s .mark) (us ++ [t]) := by
  intro rest _ _ t' ts hts
  rw [List.append_assoc] at hts
  obtain ⟨s', last, rfl, hs⟩ := ih ([t] ++ rest)
    (stops_cons (by simp [ht]) (by rw [ht]; rfl)) (by simp [NoElse, ht]) t' ts hts
  rw [hs, List.singleton_append, finish_cons, if_pos ht]
  exact answers_done

theorem isRead_block {b : Block Unit} (ih : Phrase.IsRead eof (.block b) us) :
    Phrase.IsRead eof (.statement (.block b) .mark) us := by
  intro rest _ _ t ts hts
  obtain ⟨l, us, rfl, hl, hus⟩ := ih
  obtain ⟨rfl, rfl⟩ : l = t ∧ us ++ rest = ts := by simpa using hts
  obtain ⟨b', last, rfl, hb⟩ := hus rest
  refine ⟨.block b', last, by simp, ?_⟩
  rw [statement_lbrace hl, hb, done_andThen]

theorem isRead_braces {u : Token} {ss : List (Stmt Unit)} (ht : t.kind = .lbrace)
    (ih : Phrase.IsRead eof (.statements ss) us) (hu : u.kind = .rbrace) :
    Phrase.IsRead eof (.block ⟨(), ss⟩) (t :: us ++ [u]) := by
  refine ⟨t, us ++ [u], rfl, ht, fun rest => ?_⟩
  obtain ⟨ss', last, rfl, hss⟩ := ih.1 u rest hu
  refine ⟨.mk t ss', last, by simp, ?_⟩
  rw [block_eq, List.append_assoc, List.singleton_append, hss, done_andThen]

theorem isRead_done : Phrase.IsRead eof (.statements []) [] := by
  refine ⟨fun u rest hu => ?_, [], rfl, statements_nil⟩
  rw [List.nil_append, blockStatements_rbrace hu]
  exact ⟨[], u, rfl, rfl⟩

theorem isRead_next {s : Stmt Unit} {ending : Ending} {ss : List (Stmt Unit)}
    (h : Derives longest (.statement s ending) us)
    (ih : Phrase.IsRead eof (.statement s ending) us)
    (hss : Derives longest (.statements ss) vs)
    (ihs : Phrase.IsRead eof (.statements ss) vs)
    (hseam : ending = .expression → ¬Continues vs) :
    Phrase.IsRead eof (.statements (s :: ss)) (us ++ vs) := by
  obtain ⟨hφ, -⟩ | ⟨t, us, rfl, ht⟩ := h.opens
  · cases hφ
  -- once in front of the brace that ends a block, and once at the end of the text
  constructor
  · intro u rest hu
    have hne : t.kind ≠ .rbrace := by
      intro hk
      simp [Phrase.Opens, Kind.OpensStmt, Kind.OpensExpr, hk] at ht
    have hcont : Continues (vs ++ u :: rest) → Continues vs := by
      cases vs with
      | nil => simp [continues_cons, hu]
      | cons v vs => exact id
    obtain ⟨s', last, rfl, hs⟩ := ih (vs ++ u :: rest)
      (fun hending hc => hseam hending (hcont hc)) (hss.follows (follows_cons (.inr hu)))
      t (us ++ (vs ++ u :: rest)) rfl
    obtain ⟨ss', last', rfl, hrest⟩ := ihs.1 u rest hu
    have hresult : (Parse.statement eof t (us ++ (vs ++ u :: rest))).1.result? = some s' := by
      rw [hs]
      rfl
    refine ⟨s' :: ss', last', rfl, ?_⟩
    rw [List.append_assoc, List.cons_append, blockStatements_cons_some hne hresult, hs,
      done_andThen, hrest, done_andThen]
  · have hfollows : Follows (vs ++ []) := hss.follows (by simp [Follows])
    rw [List.append_nil] at hfollows
    obtain ⟨s', last, rfl, hs⟩ := ih vs hseam hfollows t (us ++ vs) rfl
    obtain ⟨ss', rfl, hrest⟩ := ihs.2
    refine ⟨s' :: ss', rfl, ?_⟩
    rw [List.cons_append, statements_cons, hs]
    simp [Reply.done, hrest]

/-! ## Whole derivations -/

/-- A phrase is read off any longest derivation of it. -/
theorem Derives.isRead {φ : Phrase} (h : Derives true φ us) : φ.IsRead eof us := by
  induction h with
  | done => exact isRead_done
  | next h hss hseam ih ihs => exact isRead_next h ih hss ihs (hseam rfl)
  | unclosed _ ih => exact isRead_unclosed ih
  | closed _ ht ih => exact isRead_closed ih ht
  | let_ ht hname heq _ ih => exact isRead_let ht hname heq ih
  | return_ ht _ ih => exact isRead_return ht ih
  | expr h ih => exact isRead_expr h ih
  | block _ ih => exact isRead_block ih
  | braces ht _ hu ih => exact isRead_braces ht ih hu
  | looser _ ih => exact isRead_looser ih
  | binary _ hop _ ihl ihr => exact isRead_binary ihl hop ihr
  | unary hop _ ih => exact isRead_unary hop ih
  | called _ ih => exact fun p rest _ _ helse => ih p rest helse
  | primary h ih => exact isRead_called h ih
  | call _ _ ihf ihes => exact isRead_call ihf ihes
  | ident ht =>
      intro rest _ t ts hts
      cases hts
      rw [operand_ident ht]
      exact answers_done
  | int ht hn hlt =>
      intro rest _ t ts hts
      cases hts
      subst hn
      rw [operand_int ht, Token.integer?_eq_some_iff.mpr ⟨hlt, rfl⟩]
      exact answers_done
  | true_ ht =>
      intro rest _ t ts hts
      cases hts
      rw [operand_true ht]
      exact answers_done
  | false_ ht =>
      intro rest _ t ts hts
      cases hts
      rw [operand_false ht]
      exact answers_done
  | group ht _ hu ih => exact isRead_group ht ih hu
  | if_ ht hl _ hr _ ihc ihb => exact isRead_if ht hl ihc hr ihb
  | ifElse ht hl _ hr _ ho _ ihc ihb iha => exact isRead_ifElse ht hl ihc hr ihb ho iha
  | function ht _ _ ihids ihb => exact isRead_function ht ihids ihb
  | noArgs ht hu =>
      refine ⟨_, _, rfl, ht, fun rest => ?_⟩
      rw [List.singleton_append, args_cons, if_pos hu]
      exact answers_done
  | someArgs ht h hu ih => exact isRead_someArgs ht h ih hu
  | lastExpr _ ih => exact isRead_lastExpr ih
  | moreExprs _ ht _ ih ihs => exact isRead_moreExprs ih ht ihs
  | noParams ht hu =>
      refine ⟨_, _, rfl, ht, fun rest => ?_⟩
      rw [List.singleton_append, params_cons, if_pos hu]
      exact answers_done
  | someParams ht h hu ih => exact isRead_someParams ht h ih hu
  | lastName ht => exact isRead_lastName ht
  | moreNames ht hc _ ih => exact isRead_moreNames ht hc ih

/-! ## Whole texts -/

/-- Longest derivations are derivations. -/
theorem Derives.plain {φ : Phrase} (h : Derives true φ us) : Derives false φ us := by
  induction h with
  | next _ _ _ ih ihs => exact .next ih ihs (by simp)
  | _ => grind [Derives]

theorem derives_of_errors_eq_nil {source : String} (h : (parse source).errors = []) :
    Derives true (.statements (parse source).program.erase.statements) (tokenize source) := by
  rw [Program.statements_erase]
  exact statements_reads _ h

/-- What the tokens of a text derive longest is what the text is read as. -/
theorem parse_of_derives {source : String} {p : Program Unit}
    (h : Derives true (.statements p.statements) (tokenize source)) :
    (parse source).errors = [] ∧ (parse source).program.erase = p := by
  have hread : Phrase.IsRead (.eof source.utf8ByteSize) _ _ := h.isRead
  obtain ⟨-, ss, hss, heq⟩ := hread
  constructor
  · exact congrArg Prod.snd heq
  · rw [Program.erase_eq_iff, ← hss]
    exact congrArg (fun r => r.1.map Stmt.erase) heq

/-- A text is read without errors if and only if its tokens can be derived at all. It is
then read as the one program that all its tokens derive longest. -/
theorem parse_recognizes (source : String) :
    ((parse source).errors = [] ↔
      ∃ p : Program Unit, Derives false (.statements p.statements) (tokenize source)) ∧
    ∀ p : Program Unit, Derives true (.statements p.statements) (tokenize source) ↔
      (parse source).errors = [] ∧ (parse source).program.erase = p := by
  refine ⟨⟨fun h => ⟨_, (derives_of_errors_eq_nil h).plain⟩, ?_⟩, fun p => ⟨parse_of_derives, ?_⟩⟩
  · rintro ⟨p, hp⟩
    -- the tree of a longest derivation may be another one than `p`
    obtain ⟨ss, hss⟩ := hp.readable
    exact (parse_of_derives (p := ⟨ss⟩) hss).1
  · rintro ⟨herrors, rfl⟩
    exact derives_of_errors_eq_nil herrors

end Grammar

end Monkey
