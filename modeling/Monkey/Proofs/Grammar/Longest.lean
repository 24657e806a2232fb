import Monkey.Proofs.Grammar

/-!
# Longest derivations

What can be derived at all can be derived longest: where a statement ends with an
expression and the next one begins with a parenthesis or a minus, the two are one
statement as well. Its tree is another one, since what is appended goes to the operand
that stands last (`exists_append_binary`, `exists_append_args`).
-/

namespace Monkey

theorem Precedence.rank_injective : Function.Injective Precedence.rank := by
  intro p q h
  cases p <;> cases q <;> first | rfl | cases h

theorem Precedence.rank_tighter {p : Precedence} (h : p ≠ .unary) :
    p.tighter.rank = p.rank + 1 := by
  cases p <;> first | rfl | exact absurd rfl h

theorem Precedence.rank_le_tighter (p : Precedence) : p.rank ≤ p.tighter.rank := by
  cases p <;> decide

theorem Precedence.rank_le_unary (p : Precedence) : p.rank ≤ Precedence.unary.rank := by
  cases p <;> decide

theorem BinaryOp.rank_lt_unary (op : BinaryOp) :
    op.precedence.rank < Precedence.unary.rank := by
  cases op <;> decide

namespace Grammar

theorem continues_cons {t : Token} {ts : List Token} :
    Continues (t :: ts) ↔ t.kind = .lparen ∨ t.kind = .minus := by
  simp [Continues]

theorem not_continues_nil : ¬Continues [] := by
  simp [Continues]

theorem Continues.append {us vs : List Token} (h : Continues us) : Continues (us ++ vs) := by
  cases us with
  | nil => exact absurd h not_continues_nil
  | cons t us => exact h

namespace Derives

variable {longest : Bool} {p q : Precedence} {e f : Expr Unit} {t : Token}
  {us vs : List Token}

/-- What is an expression of a tighter level is one of a looser level. -/
theorem loosen (h : Derives longest (.expr q e) us) (hpq : p.rank ≤ q.rank) :
    Derives longest (.expr p e) us := by
  induction hn : q.rank - p.rank generalizing p with
  | zero =>
      have hp : p = q := Precedence.rank_injective (by omega)
      exact hp ▸ h
  | succ n ih =>
      have hq := q.rank_le_unary
      have hp : p ≠ .unary := by
        rintro rfl
        omega
      have htighter := Precedence.rank_tighter hp
      exact .looser (ih (by omega) (by omega))

theorem loosest (h : Derives longest (.expr q e) us) : Derives longest (.expr .lowest e) us :=
  h.loosen (Nat.zero_le _)

/-! ## Appending to an expression -/

/-- An operator and its right operand can be appended to an expression in whose level
the operator occurs. -/
theorem exists_append_binary {op : BinaryOp} (h : Derives longest (.expr p e) us)
    (hp : p.rank ≤ op.precedence.rank) (hop : BinaryOp.ofKind? t.kind = some op)
    (hf : Derives longest (.expr .unary f) vs) :
    ∃ g, Derives longest (.expr p g) (us ++ t :: vs) := by
  have hright : Derives longest (.expr op.precedence.tighter f) vs :=
    hf.loosen (Precedence.rank_le_unary _)
  have hunary := op.rank_lt_unary
  generalize hφ : Phrase.expr p e = φ at h
  -- down to the level of the operator: above it the operator belongs to what stands last,
  -- and at its own level to all of the expression
  induction h generalizing p e with
  | @looser p _ us h ih =>
      cases hφ
      by_cases heq : p = op.precedence
      · subst heq
        exact ⟨_, .binary (.looser h) hop hright⟩
      · have hne : p.rank ≠ op.precedence.rank := fun hrank =>
          heq (Precedence.rank_injective hrank)
        have htighter := Precedence.rank_tighter (p := p) (by rintro rfl; omega)
        obtain ⟨g, hg⟩ := ih (by omega) rfl
        exact ⟨g, .looser hg⟩
  | @binary op' l r t' us vs hl hop' hr _ ih =>
      cases hφ
      by_cases heq : op'.precedence = op.precedence
      · have hleft := Derives.binary hl hop' hr
        rw [heq] at hleft ⊢
        exact ⟨_, .binary hleft hop hright⟩
      · have hne : op'.precedence.rank ≠ op.precedence.rank := fun hrank =>
          heq (Precedence.rank_injective hrank)
        have hlt := op'.rank_lt_unary
        have htighter := Precedence.rank_tighter (p := op'.precedence) (by
          intro hk
          rw [hk] at hlt
          omega)
        obtain ⟨g, hg⟩ := ih (by omega) rfl
        exact ⟨_, by simpa using Derives.binary hl hop' hg⟩
  | unary _ _ _ => cases hφ; omega
  | called _ _ => cases hφ; omega
  | _ => cases hφ

/-- A call of what stands last in an expression can be appended to the expression. -/
theorem exists_append_args {es : List (Expr Unit)} (h : Derives longest (.expr p e) us)
    (hes : Derives longest (.args es) vs) :
    ∃ g, Derives longest (.expr p g) (us ++ vs) := by
  generalize hφ : Phrase.expr p e = φ at h
  induction h generalizing p e with
  | looser _ ih =>
      cases hφ
      obtain ⟨g, hg⟩ := ih rfl
      exact ⟨g, .looser hg⟩
  | binary hl hop _ _ ih =>
      cases hφ
      obtain ⟨g, hg⟩ := ih rfl
      exact ⟨_, by simpa using Derives.binary hl hop hg⟩
  | unary hop _ ih =>
      cases hφ
      obtain ⟨g, hg⟩ := ih rfl
      exact ⟨_, .unary hop hg⟩
  | called h _ =>
      cases hφ
      exact ⟨_, .called (.call h hes)⟩
  | _ => cases hφ

/-- An operator and any expression can be appended to an expression. -/
theorem exists_append_expr {op : BinaryOp} (h : Derives longest (.expr .lowest e) us)
    (hop : BinaryOp.ofKind? t.kind = some op) (hf : Derives longest (.expr p f) vs) :
    ∃ g, Derives longest (.expr .lowest g) (us ++ t :: vs) := by
  generalize hφ : Phrase.expr p f = φ at hf
  -- what is appended is taken apart at its own operators, and goes piece by piece
  induction hf generalizing p f e us t op with
  | looser _ ih =>
      cases hφ
      exact ih h hop rfl
  | binary _ hop' _ ihl ihr =>
      cases hφ
      obtain ⟨g, hg⟩ := ihl h hop rfl
      simpa using ihr hg hop' rfl
  | unary hop' hf _ =>
      cases hφ
      exact exists_append_binary h (Nat.zero_le _) hop (.unary hop' hf)
  | called hf _ =>
      cases hφ
      exact exists_append_binary h (Nat.zero_le _) hop (.called hf)
  | _ => cases hφ

/-! ## Statements that grow together -/

/-- Where a phrase that cannot be empty comes first, it decides whether what follows
continues an expression. -/
theorem continues_left {φ : Phrase} (h : Derives longest φ us) (hφ : φ ≠ .statements [])
    (hc : Continues (us ++ vs)) : Continues us := by
  obtain ⟨hnil, _⟩ | ⟨t, ts, rfl, _⟩ := h.opens
  · exact absurd hnil hφ
  · exact continues_cons.mpr (continues_cons.mp hc)

/-- An expression that begins with a parenthesis or a minus continues one before it. -/
theorem exists_append (h : Derives longest (.expr .lowest e) us)
    (hf : Derives longest (.expr p f) vs) (hc : Continues vs) :
    ∃ g, Derives longest (.expr .lowest g) (us ++ vs) := by
  -- where an expression begins, it is a called one or a primary as well
  suffices hφ : ∀ φ, Derives longest φ vs →
      (∃ p f, φ = .expr p f) ∨ (∃ f, φ = .called f) ∨ (∃ f, φ = .primary f) →
      ∃ g, Derives longest (.expr .lowest g) (us ++ vs) from
    hφ _ hf (.inl ⟨p, f, rfl⟩)
  clear hf
  intro φ hf hφ
  induction hf with
  | looser _ ih => exact ih hc (.inl ⟨_, _, rfl⟩)
  | called _ ih => exact ih hc (.inr (.inl ⟨_, rfl⟩))
  | primary _ ih => exact ih hc (.inr (.inr ⟨_, rfl⟩))
  | binary hl hop hr ih _ =>
      obtain ⟨g, hg⟩ := ih (hl.continues_left (by simp) hc) (.inl ⟨_, _, rfl⟩)
      simpa using exists_append_expr hg hop hr
  | unary hop hf _ =>
      obtain hk | hk := continues_cons.mp hc
      · rw [hk] at hop
        cases hop
      · have hminus : BinaryOp.ofKind? .minus = some .subtract := rfl
        exact exists_append_binary h (Nat.zero_le _) (by rw [hk, hminus]) hf
  | call hf hes ih _ =>
      obtain ⟨g, hg⟩ := ih (hf.continues_left (by simp) hc) (.inr (.inl ⟨_, rfl⟩))
      simpa using exists_append_args hg hes
  | group ht he hu _ => exact exists_append_args h (.someArgs ht (.lastExpr he) hu)
  | ident ht | int ht | true_ ht | false_ ht | if_ ht | ifElse ht | function ht =>
      simp [continues_cons, ht] at hc
  | _ => simp at hφ

/-- A statement that begins with a parenthesis or a minus continues the expression at
the end of the one before it. -/
theorem exists_append_statement {s s' : Stmt Unit} {ending : Ending}
    (h : Derives longest (.clause s) us) (h' : Derives longest (.statement s' ending) vs)
    (hc : Continues vs) :
    ∃ t, Derives longest (.statement t ending) (us ++ vs) := by
  have hclause : ∀ {s' vs}, Derives longest (.clause s') vs → Continues vs →
      ∃ t, Derives longest (.clause t) (us ++ vs) := by
    intro s' vs h' hc
    cases h' with
    | let_ ht | return_ ht => simp [continues_cons, ht] at hc
    | expr hf =>
        cases h with
        | let_ ht hname heq he =>
            obtain ⟨g, hg⟩ := exists_append he hf hc
            exact ⟨_, .let_ ht hname heq hg⟩
        | return_ ht he =>
            obtain ⟨g, hg⟩ := exists_append he hf hc
            exact ⟨_, .return_ ht hg⟩
        | expr he =>
            obtain ⟨g, hg⟩ := exists_append he hf hc
            exact ⟨_, .expr hg⟩
  cases h' with
  | unclosed h' =>
      obtain ⟨t, ht⟩ := hclause h' hc
      exact ⟨t, .unclosed ht⟩
  | closed h' hsemi =>
      obtain ⟨t, ht⟩ := hclause h' (h'.continues_left (by simp) hc)
      exact ⟨t, by simpa using Derives.closed ht hsemi⟩
  | block h' =>
      obtain ⟨hnil, _⟩ | ⟨t, ts, rfl, ht⟩ := h'.opens
      · cases hnil
      · simp [continues_cons, show t.kind = .lbrace from ht] at hc

/-- Statements can be put behind another one in a longest derivation. Where they
continue its expression, they are read as one with it. -/
theorem exists_cons {s : Stmt Unit} {ending : Ending} {ss : List (Stmt Unit)}
    (h : Derives true (.statement s ending) us) (hss : Derives true (.statements ss) vs) :
    ∃ ts, Derives true (.statements ts) (us ++ vs) := by
  -- two statements that grow together end as the second one does, so that the seam behind
  -- it stays as it is
  by_cases hc : ending = .expression ∧ Continues vs
  · obtain ⟨rfl, hc⟩ := hc
    cases h with
    | unclosed h =>
      cases hss with
      | done => exact absurd hc not_continues_nil
      | next h' hss hseam =>
          obtain ⟨t, ht⟩ := exists_append_statement h h' (h'.continues_left (by simp) hc)
          exact ⟨_, by simpa using Derives.next ht hss hseam⟩
  · exact ⟨_, .next h hss fun _ hending hcont => hc ⟨hending, hcont⟩⟩

end Derives

/-- The tokens can be read as this sort of phrase in a longest derivation, though not
necessarily with this tree. -/
def Phrase.Readable : Phrase → List Token → Prop
  | statements _, us => ∃ ss, Derives true (.statements ss) us
  | statement _ ending, us => ∃ s, Derives true (.statement s ending) us
  | clause _, us => ∃ s, Derives true (.clause s) us
  | block _, us => ∃ b, Derives true (.block b) us
  | expr p _, us => ∃ e, Derives true (.expr p e) us
  | called _, us => ∃ e, Derives true (.called e) us
  | primary _, us => ∃ e, Derives true (.primary e) us
  | args _, us => ∃ es, Derives true (.args es) us
  | exprs _, us => ∃ es, Derives true (.exprs es) us
  | params _, us => ∃ ids, Derives true (.params ids) us
  | names _, us => ∃ ids, Derives true (.names ids) us

/-- What can be derived can be derived longest. -/
theorem Derives.readable {longest : Bool} {φ : Phrase} {us : List Token}
    (h : Derives longest φ us) : φ.Readable us := by
  induction h with
  | done => exact ⟨_, .done⟩
  | next _ _ _ ih ihs =>
      obtain ⟨s, hs⟩ := ih
      obtain ⟨ss, hss⟩ := ihs
      exact exists_cons hs hss
  | unclosed _ ih => exact ih.imp fun _ h => .unclosed h
  | closed _ ht ih => exact ih.imp fun _ h => .closed h ht
  | let_ ht hname heq _ ih => exact ih.elim fun _ h => ⟨_, .let_ ht hname heq h⟩
  | return_ ht _ ih => exact ih.elim fun _ h => ⟨_, .return_ ht h⟩
  | expr _ ih => exact ih.elim fun _ h => ⟨_, .expr h⟩
  | block _ ih => exact ih.elim fun _ h => ⟨_, .block h⟩
  | braces ht _ hu ih => exact ih.elim fun _ h => ⟨_, .braces ht h hu⟩
  | looser _ ih => exact ih.imp fun _ h => .looser h
  | binary _ hop _ ihl ihr =>
      obtain ⟨l, hl⟩ := ihl
      obtain ⟨r, hr⟩ := ihr
      exact ⟨_, .binary hl hop hr⟩
  | unary hop _ ih => exact ih.elim fun _ h => ⟨_, .unary hop h⟩
  | called _ ih => exact ih.imp fun _ h => .called h
  | primary _ ih => exact ih.imp fun _ h => .primary h
  | call _ _ ihf ihes =>
      obtain ⟨f, hf⟩ := ihf
      obtain ⟨es, hes⟩ := ihes
      exact ⟨_, .call hf hes⟩
  | ident ht => exact ⟨_, .ident ht⟩
  | int ht hn hlt => exact ⟨_, .int ht hn hlt⟩
  | true_ ht => exact ⟨_, .true_ ht⟩
  | false_ ht => exact ⟨_, .false_ ht⟩
  | group ht _ hu ih => exact ih.imp fun _ h => .group ht h hu
  | if_ ht hl _ hr _ ihc ihb =>
      obtain ⟨c, hc⟩ := ihc
      obtain ⟨b, hb⟩ := ihb
      exact ⟨_, .if_ ht hl hc hr hb⟩
  | ifElse ht hl _ hr _ ho _ ihc ihb iha =>
      obtain ⟨c, hc⟩ := ihc
      obtain ⟨b, hb⟩ := ihb
      obtain ⟨a, ha⟩ := iha
      exact ⟨_, .ifElse ht hl hc hr hb ho ha⟩
  | function ht _ _ ihids ihb =>
      obtain ⟨ids, hids⟩ := ihids
      obtain ⟨b, hb⟩ := ihb
      exact ⟨_, .function ht hids hb⟩
  | noArgs ht hu => exact ⟨_, .noArgs ht hu⟩
  | someArgs ht _ hu ih => exact ih.elim fun _ h => ⟨_, .someArgs ht h hu⟩
  | lastExpr _ ih => exact ih.elim fun _ h => ⟨_, .lastExpr h⟩
  | moreExprs _ ht _ ih ihs =>
      obtain ⟨e, he⟩ := ih
      obtain ⟨es, hes⟩ := ihs
      exact ⟨_, .moreExprs he ht hes⟩
  | noParams ht hu => exact ⟨_, .noParams ht hu⟩
  | someParams ht _ hu ih => exact ih.elim fun _ h => ⟨_, .someParams ht h hu⟩
  | lastName ht => exact ⟨_, .lastName ht⟩
  | moreNames ht hc _ ih => exact ih.elim fun _ h => ⟨_, .moreNames ht hc h⟩

end Grammar

end Monkey
