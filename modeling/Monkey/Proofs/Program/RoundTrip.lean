import Monkey.Proofs.Grammar.Completeness
import Monkey.Proofs.Program.Writable

/-!
# Reading what was written

The text of a tree that can be written is cut into tokens that derive the tree
(`Spells`): every operator stands in parentheses with its operands, so that an
expression is a called one in whatever it occurs, and what separates two statements ends
the first of them. So the text is read as the tree it was written for, and writing what
was read from any text loses nothing (`reading_undoes_writing`).
-/

namespace Monkey

namespace Grammar

/-- The tokens of the text derive the phrase, wherever the text stands. -/
def Spells (φ : Phrase) (cs : List Char) : Prop :=
  ∀ offset, Derives true φ (scan offset cs)

/-- No token before this character takes it in. -/
def Breaks (d : Char) : Prop :=
  ¬isWordChar d ∧ ¬isDigit d ∧ d ≠ '='

instance {d : Char} : Decidable (Breaks d) :=
  inferInstanceAs (Decidable (_ ∧ _))

variable {offset : Nat} {c d : Char} {cs ds : List Char} {name : String} {w : Keyword}

theorem Breaks.apart (h : Breaks d) : Apart cs (d :: ds) :=
  apart_cons h.1 h.2.1 h.2.2

theorem scan_append_breaks (h : Breaks d) :
    scan offset (cs ++ d :: ds) =
      scan offset cs ++ scan (offset + byteCount cs) (d :: ds) :=
  scan_append h.apart

/-! ## Words and numbers -/

theorem scan_name (h : IsName name) :
    scan offset name.toList = [Token.cut .ident name.toList offset] := by
  obtain ⟨hne, hword, hkeyword⟩ := h
  rw [scan_of_word hne hword, Kind.ofWord_eq_ident_iff.mpr hkeyword]

theorem scan_keyword :
    scan offset w.spelling.toList = [Token.cut (.keyword w) w.spelling.toList offset] := by
  have hne : w.spelling ≠ "" := by
    cases w <;> decide
  rw [scan_of_word hne w.letters, Kind.ofWord, Keyword.ofSpelling?_spelling]

theorem isDigit_of_mem_toDigits {n : Nat} (hc : c ∈ Nat.toDigits 10 n) : isDigit c := by
  have h := Nat.isDigit_of_mem_toDigits (by decide) (by decide) hc
  simpa [Char.isDigit, isDigit, Char.le_def] using h

theorem scan_toDigits {n : Nat} :
    scan offset (Nat.toDigits 10 n) = [Token.cut .int (Nat.toDigits 10 n) offset] := by
  have hdigit : ∀ c ∈ Nat.toDigits 10 n, isDigit c := fun c hc => isDigit_of_mem_toDigits hc
  have hscan : scan offset (Nat.toDigits 10 n ++ []) = _ :=
    scan_digits Nat.toDigits_ne_nil hdigit (by simp)
  rwa [List.append_nil, scan_nil] at hscan

/-- The kind of token that is written for the operator. -/
def unaryKind : UnaryOp → Kind
  | .not => .bang
  | .negate => .minus

/-- The kind of token that is written for the operator. -/
def binaryKind : BinaryOp → Kind
  | .add => .plus
  | .subtract => .minus
  | .multiply => .asterisk
  | .divide => .slash
  | .less => .lt
  | .greater => .gt
  | .equal => .eq
  | .notEqual => .notEq

theorem ofKind?_unaryKind (op : UnaryOp) : UnaryOp.ofKind? (unaryKind op) = some op := by
  cases op <;> rfl

theorem ofKind?_binaryKind (op : BinaryOp) : BinaryOp.ofKind? (binaryKind op) = some op := by
  cases op <;> rfl

theorem scan_unary {op : UnaryOp} (hnext : cs.head? ≠ some '=') :
    scan offset (op.symbol.toList ++ cs) =
      Token.cut (unaryKind op) op.symbol.toList offset ::
        scan (offset + byteCount op.symbol.toList) cs := by
  cases op with
  | not => exact scan_sign (.inr rfl) hnext
  | negate => exact scan_mark (by decide)

theorem scan_binary {op : BinaryOp} :
    scan offset op.symbol.toList = [Token.cut (binaryKind op) op.symbol.toList offset] := by
  cases op <;> exact scan_single (by decide) rfl

/-! ## Phrases -/

variable {e f l r : Expr Unit} {es : List (Expr Unit)} {id : Ident Unit}
  {ids : List (Ident Unit)} {b a : Block Unit} {s : Stmt Unit} {ss : List (Stmt Unit)}
  {bs as : List Char}

theorem Spells.loosest (h : Spells (.called e) cs) : Spells (.expr .lowest e) cs :=
  fun offset => (Derives.called (h offset)).loosest

/-- No expression begins with an equals sign. -/
theorem Spells.head?_ne (h : Spells (.called e) cs) : cs.head? ≠ some '=' := by
  intro heq
  obtain ⟨ds, rfl⟩ : ∃ ds, cs = '=' :: ds := by
    cases cs with
    | nil => cases heq
    | cons c ds => exact ⟨ds, by rw [Option.some.inj heq]⟩
  obtain ⟨hnil, _⟩ | ⟨t, ts, hts, hopens⟩ := (h 0).opens
  · cases hnil
  rw [scan_cons (by decide), lexeme_mark (by decide) (by decide)] at hts
  obtain rfl := (List.cons.inj hts).1
  revert hopens
  split
  · simp [Phrase.Opens, Kind.OpensExpr]
  split
  · simp [Phrase.Opens, Kind.OpensExpr]
  · simp [Phrase.Opens, Kind.OpensExpr, Kind.ofMark]

namespace Derives

variable {longest : Bool} {t u v : Token} {us : List Token}

theorem ident_of_literal (hk : t.kind = .ident) (hname : t.literal = name) :
    Derives longest (.primary (.ident ⟨(), name⟩)) [t] :=
  hname ▸ .ident hk

theorem lastName_of_literal (hk : t.kind = .ident) (hname : t.literal = id.name) :
    Derives longest (.names [id]) [t] := by
  have hlast : Derives longest (.names [⟨(), t.literal⟩]) [t] := .lastName hk
  rwa [hname] at hlast

theorem moreNames_of_literal (hk : t.kind = .ident) (hname : t.literal = id.name)
    (hu : u.kind = .comma) (hids : Derives longest (.names ids) us) :
    Derives longest (.names (id :: ids)) (t :: u :: us) := by
  have hmore : Derives longest (.names (⟨(), t.literal⟩ :: ids)) (t :: u :: us) :=
    .moreNames hk hu hids
  rwa [hname] at hmore

theorem let_of_literal (ht : t.kind = .keyword .let_) (hk : u.kind = .ident)
    (hname : u.literal = id.name) (hv : v.kind = .assign)
    (he : Derives longest (.expr .lowest e) us) :
    Derives longest (.clause (.let_ () id e)) (t :: u :: v :: us) := by
  have hlet : Derives longest (.clause (.let_ () ⟨(), u.literal⟩ e)) (t :: u :: v :: us) :=
    .let_ ht hk hv he
  rwa [hname] at hlet

end Derives

theorem literal_cut_name {kind : Kind} :
    (Token.cut kind name.toList offset).literal = name :=
  String.ofList_toList

theorem spells_ident (h : IsName name) : Spells (.called (.ident ⟨(), name⟩)) name.toList := by
  intro offset
  rw [scan_name h]
  exact .primary (.ident_of_literal rfl literal_cut_name)

theorem exists_natCast_eq_toInt {n : Int64} (h : 0 ≤ n) :
    ∃ k : Nat, n.toInt = k ∧ k < 2 ^ 63 ∧ Int64.ofNat k = n := by
  have hnonneg : 0 ≤ n.toInt := by simpa [Int64.le_iff_toInt_le] using h
  obtain ⟨k, hk⟩ := Int.eq_ofNat_of_zero_le hnonneg
  have hlt := n.toInt_lt
  refine ⟨k, hk, by omega, ?_⟩
  rw [← Int64.ofInt_toInt n, hk]
  rfl

/-- An integer that is not negative is written with digits. -/
theorem exists_toDigits {n : Int64} (h : 0 ≤ n) :
    ∃ k : Nat, (toString n.toInt).toList = Nat.toDigits 10 k ∧ k < 2 ^ 63 ∧ Int64.ofNat k = n := by
  obtain ⟨k, hk, hlt, hn⟩ := exists_natCast_eq_toInt h
  refine ⟨k, ?_, hlt, hn⟩
  rw [hk, Int.toString_eq_repr]
  exact Nat.toList_repr

theorem spells_int {n : Int64} (h : 0 ≤ n) :
    Spells (.called (.int () n)) (toString n.toInt).toList := by
  obtain ⟨k, htext, hlt, rfl⟩ := exists_toDigits h
  intro offset
  rw [htext, scan_toDigits]
  refine .primary (.int rfl ?_ hlt)
  have hliteral : (Token.cut .int (Nat.toDigits 10 k) offset).literal.toList = Nat.toDigits 10 k :=
    String.toList_ofList
  rw [hliteral, Nat.ofDigitChars_ten_toDigits]

theorem spells_bool {v : Bool} :
    Spells (.called (.bool () v)) (if v then "true" else "false").toList := by
  intro offset
  cases v with
  | true =>
      have hscan : scan offset Keyword.true_.spelling.toList = _ := scan_keyword
      exact hscan ▸ .primary (.true_ rfl)
  | false =>
      have hscan : scan offset Keyword.false_.spelling.toList = _ := scan_keyword
      exact hscan ▸ .primary (.false_ rfl)

theorem spells_group (h : Spells (.expr .lowest e) cs) :
    Spells (.called e) ('(' :: (cs ++ [')'])) := by
  intro offset
  rw [scan_mark (by decide), scan_append_breaks (by decide), scan_mark (by decide), scan_nil]
  exact .primary (.group rfl (h _) rfl)

theorem spells_unary {op : UnaryOp} (h : Spells (.called e) cs) :
    Spells (.expr .lowest (.unary () op e)) (op.symbol.toList ++ cs) := by
  intro offset
  rw [scan_unary h.head?_ne]
  exact (Derives.unary (ofKind?_unaryKind op) (.called (h _))).loosest

theorem spells_binary {op : BinaryOp} (hl : Spells (.called l) cs)
    (hr : Spells (.called r) ds) :
    Spells (.expr .lowest (.binary () op l r))
      (cs ++ ' ' :: (op.symbol.toList ++ ' ' :: ds)) := by
  intro offset
  rw [scan_append_breaks (by decide), scan_blank rfl, scan_append_breaks (by decide), scan_binary,
    scan_blank rfl]
  have hleft : ∀ offset, Derives true (.expr op.precedence l) (scan offset cs) :=
    fun offset => (Derives.called (hl offset)).loosen (Precedence.rank_le_unary _)
  have hright : ∀ offset, Derives true (.expr op.precedence.tighter r) (scan offset ds) :=
    fun offset => (Derives.called (hr offset)).loosen (Precedence.rank_le_unary _)
  exact (Derives.binary (hleft _) (ofKind?_binaryKind op) (hright _)).loosest

theorem spells_if (hc : Spells (.called e) cs) (hb : Spells (.block b) bs) :
    Spells (.called (.cond () e b none))
      (Keyword.if_.spelling.toList ++ ' ' :: '(' :: (cs ++ ')' :: ' ' :: bs)) := by
  intro offset
  rw [scan_append_breaks (by decide), scan_keyword, scan_blank rfl, scan_mark (by decide),
    scan_append_breaks (by decide), scan_mark (by decide), scan_blank rfl]
  exact .primary (.if_ rfl rfl (hc.loosest _) rfl (hb _))

theorem spells_ifElse (hc : Spells (.called e) cs) (hb : Spells (.block b) bs)
    (ha : Spells (.block a) as) :
    Spells (.called (.cond () e b (some a)))
      (Keyword.if_.spelling.toList ++ ' ' :: '(' :: (cs ++ ')' :: ' ' ::
        (bs ++ ' ' :: (Keyword.else_.spelling.toList ++ ' ' :: as)))) := by
  intro offset
  rw [scan_append_breaks (by decide), scan_keyword, scan_blank rfl, scan_mark (by decide),
    scan_append_breaks (by decide), scan_mark (by decide), scan_blank rfl,
    scan_append_breaks (by decide), scan_blank rfl, scan_append_breaks (by decide), scan_keyword,
    scan_blank rfl]
  exact .primary (by simpa using Derives.ifElse rfl rfl (hc.loosest _) rfl (hb _) rfl (ha _))

/-! ## Lists in parentheses -/

theorem scan_commas :
    scan offset (cs ++ ',' :: ' ' :: ds) =
      scan offset cs ++ Token.cut .comma [','] (offset + byteCount cs) ::
        scan (offset + byteCount cs + byteCount [','] + ' '.utf8Size) ds := by
  rw [scan_append_breaks (by decide), scan_mark (by decide), scan_blank rfl]
  rfl

theorem toList_intercalate_cons {s t : String} {texts : List String} :
    (", ".intercalate (s :: t :: texts)).toList =
      s.toList ++ ',' :: ' ' :: (", ".intercalate (t :: texts)).toList := by
  simp [String.intercalate_cons_cons]

theorem spells_names (hid : id.Writable) (hids : ∀ i ∈ ids, i.Writable) :
    Spells (.names (id :: ids)) (", ".intercalate ((id :: ids).map Ident.name)).toList := by
  induction ids generalizing id with
  | nil =>
      intro offset
      rw [List.map_singleton, String.intercalate_singleton, scan_name hid]
      exact .lastName_of_literal rfl literal_cut_name
  | cons i ids ih =>
      obtain ⟨hi, hids⟩ := List.forall_mem_cons.mp hids
      intro offset
      rw [List.map_cons, List.map_cons, toList_intercalate_cons, scan_commas, scan_name hid]
      exact .moreNames_of_literal rfl literal_cut_name rfl (ih hi hids _)

theorem spells_exprs {f : Expr α} {es : List (Expr α)}
    (hf : Spells (.called f.erase) f.render.toList)
    (hes : ∀ e ∈ es, Spells (.called e.erase) e.render.toList) :
    Spells (.exprs ((f :: es).map Expr.erase))
      (", ".intercalate ((f :: es).map Expr.render)).toList := by
  induction es generalizing f with
  | nil =>
      intro offset
      rw [List.map_singleton, List.map_singleton, String.intercalate_singleton]
      exact .lastExpr (hf.loosest _)
  | cons g es ih =>
      obtain ⟨hg, hes⟩ := List.forall_mem_cons.mp hes
      intro offset
      simp only [List.map_cons] at ih ⊢
      rw [toList_intercalate_cons, scan_commas]
      exact .moreExprs (hf.loosest _) rfl (ih hg hes _)

/-- Parentheses around what has commas. -/
theorem scan_parens :
    scan offset ('(' :: (cs ++ [')'])) =
      Token.cut .lparen ['('] offset :: (scan (offset + byteCount ['(']) cs ++
        [Token.cut .rparen [')'] (offset + byteCount ['('] + byteCount cs)]) := by
  rw [scan_mark (by decide), scan_append_breaks (by decide), scan_mark (by decide), scan_nil]
  rfl

theorem spells_params (h : ∀ id ∈ ids, id.Writable) :
    Spells (.params ids) ('(' :: ((", ".intercalate (ids.map Ident.name)).toList ++ [')'])) := by
  intro offset
  rw [scan_parens]
  cases ids with
  | nil => simpa [scan_nil] using Derives.noParams rfl rfl
  | cons id ids =>
      obtain ⟨hid, hids⟩ := List.forall_mem_cons.mp h
      exact .someParams rfl (spells_names hid hids _) rfl

theorem spells_args {es : List (Expr α)}
    (h : ∀ e ∈ es, Spells (.called e.erase) e.render.toList) :
    Spells (.args (es.map Expr.erase))
      ('(' :: ((", ".intercalate (es.map Expr.render)).toList ++ [')'])) := by
  intro offset
  rw [scan_parens]
  cases es with
  | nil => simpa [scan_nil] using Derives.noArgs rfl rfl
  | cons e es =>
      obtain ⟨he, hes⟩ := List.forall_mem_cons.mp h
      exact .someArgs rfl (spells_exprs he hes _) rfl

theorem spells_function (hids : Spells (.params ids) ('(' :: cs)) (hb : Spells (.block b) bs) :
    Spells (.called (.function () ids b))
      (Keyword.function.spelling.toList ++ '(' :: (cs ++ ' ' :: bs)) := by
  intro offset
  rw [scan_append_breaks (by decide), scan_keyword, ← List.cons_append,
    scan_append_breaks (by decide), scan_blank (c := ' ') rfl, List.singleton_append,
    ← List.cons_append]
  exact .primary (.function rfl (hids _) (hb _))

theorem spells_call (hf : Spells (.called f) cs) (hes : Spells (.args es) ('(' :: ds)) :
    Spells (.called (.call () f es)) (cs ++ '(' :: ds) := by
  intro offset
  rw [scan_append_breaks (by decide)]
  exact .call (hf _) (hes _)

/-! ## Statements -/

theorem spells_let (hid : id.Writable) (he : Spells (.called e) cs) :
    Spells (.clause (.let_ () id e))
      (Keyword.let_.spelling.toList ++ ' ' :: (id.name.toList ++ ' ' :: '=' :: ' ' :: cs)) := by
  intro offset
  rw [scan_append_breaks (by decide), scan_keyword, scan_blank rfl,
    scan_append_breaks (by decide), scan_name hid, scan_blank rfl, scan_sign (.inl rfl) (by simp),
    scan_blank rfl]
  exact .let_of_literal rfl rfl literal_cut_name rfl (he.loosest _)

theorem spells_return (he : Spells (.called e) cs) :
    Spells (.clause (.return_ () e)) (Keyword.return_.spelling.toList ++ ' ' :: cs) := by
  intro offset
  rw [scan_append_breaks (by decide), scan_keyword, scan_blank rfl]
  exact .return_ rfl (he.loosest _)

theorem spells_closed (h : Spells (.clause s) cs) :
    Spells (.statement s .mark) (cs ++ [';']) := by
  intro offset
  rw [scan_append_breaks (by decide), scan_mark (by decide), scan_nil]
  exact .closed (h _) rfl

theorem spells_braces (h : Spells (.statements ss) cs) :
    Spells (.block ⟨(), ss⟩) ('{' :: ' ' :: (cs ++ ' ' :: ['}'])) := by
  intro offset
  rw [scan_mark (by decide), scan_blank rfl, scan_append_breaks (by decide), scan_blank rfl,
    scan_mark (by decide), scan_nil]
  exact .braces rfl (h _) rfl

theorem spells_emptyBraces : Spells (.block ⟨(), []⟩) ['{', ' ', '}'] := by
  intro offset
  rw [scan_mark (by decide), scan_blank rfl, scan_mark (by decide), scan_nil]
  exact .braces rfl .done rfl

/-- The text of the statement, alone or with what separates it from the next one, is a
statement. -/
def SpellsStatement (s : Stmt α) : Prop :=
  (∃ ending, Spells (.statement s.erase ending) s.render.toList) ∧
    Spells (.statement s.erase .mark) (s.render.toList ++ s.separator.toList)

theorem Spells.append_blank {φ : Phrase} (h : Spells φ cs) : Spells φ (cs ++ [' ']) := by
  intro offset
  rw [scan_append_breaks (by decide), scan_blank rfl, scan_nil, List.append_nil]
  exact h offset

theorem spellsStatement_of_mark {s : Stmt α} (hsep : s.separator = " ")
    (h : Spells (.statement s.erase .mark) s.render.toList) : SpellsStatement s := by
  refine ⟨⟨.mark, h⟩, ?_⟩
  rw [hsep]
  exact h.append_blank

theorem spellsStatement_of_clause {s : Stmt α} (hsep : s.separator = "; ")
    (h : Spells (.clause s.erase) s.render.toList) : SpellsStatement s := by
  refine ⟨⟨.expression, fun offset => .unclosed (h offset)⟩, ?_⟩
  have hmark := (spells_closed h).append_blank
  rw [List.append_assoc] at hmark
  rw [hsep]
  exact hmark

/-- Nothing belongs to the same token as the space at the end of a separator. -/
theorem apart_separator {s : Stmt α} : Apart (cs ++ s.separator.toList) ds := by
  have hlast : (cs ++ s.separator.toList).getLast? = some ' ' := by
    cases s <;> simp [Stmt.separator]
  intro c hc d _
  obtain rfl : ' ' = c := Option.some.inj (hlast.symm.trans hc)
  exact not_joins_of_isBlank rfl

theorem spells_statements {ss : List (Stmt α)} (h : ∀ s ∈ ss, SpellsStatement s) :
    Spells (.statements (ss.map Stmt.erase)) (Stmt.renderAll ss).toList := by
  induction ss with
  | nil =>
      intro offset
      rw [Stmt.renderAll, String.toList_empty, scan_nil]
      exact .done
  | cons s ss ih =>
      obtain ⟨⟨⟨ending, hlast⟩, hmark⟩, hss⟩ := List.forall_mem_cons.mp h
      intro offset
      cases ss with
      | nil =>
          rw [Stmt.renderAll]
          have hnext := Derives.next (hlast offset) .done fun _ _ => not_continues_nil
          rwa [List.append_nil] at hnext
      | cons s' ss =>
          -- with its separator the first statement ends in a mark, so nothing continues it
          rw [Stmt.renderAll_cons_cons, String.toList_append, String.toList_append,
            scan_append apart_separator]
          exact .next (hmark _) (ih hss _) (by simp)

/-! ## Trees -/

variable {α : Type}

mutual

/-- The text of an expression is one that no operator can split. -/
theorem spells_expr {e : Expr α} (h : e.Writable) :
    Spells (.called e.erase) e.render.toList := by
  match e with
  | .ident id => exact spells_ident h
  | .int tag value => exact spells_int h
  | .bool tag value => exact spells_bool
  | .unary tag op operand =>
      rw [Expr.Writable] at h
      simpa [Expr.render] using spells_group (spells_unary (spells_expr h))
  | .binary tag op left right =>
      rw [Expr.Writable] at h
      simpa [Expr.render] using spells_group (spells_binary (spells_expr h.1) (spells_expr h.2))
  | .cond tag condition consequence none =>
      simpa [Expr.render, Keyword.spelling] using
        spells_if (spells_expr h.1) (spells_block h.2)
  | .cond tag condition consequence (some alternative) =>
      simpa [Expr.render, Keyword.spelling] using
        spells_ifElse (spells_expr h.1) (spells_block h.2.1) (spells_block h.2.2)
  | .function tag params body =>
      rw [Expr.Writable] at h
      have hparams : ∀ id ∈ params.map Ident.erase, id.Writable := by
        simpa [Ident.Writable] using h.1
      simpa [Expr.render, Keyword.spelling, Function.comp_def] using
        spells_function (spells_params hparams) (spells_block h.2)
  | .call tag callee args =>
      rw [Expr.Writable] at h
      simpa [Expr.render] using spells_call (spells_expr h.1) (spells_args (spells_allExpr h.2))

theorem spells_allExpr {es : List (Expr α)} (h : Expr.AllWritable es) :
    ∀ e ∈ es, Spells (.called e.erase) e.render.toList := by
  match es with
  | [] => exact List.forall_mem_nil _
  | e :: es => exact List.forall_mem_cons.mpr ⟨spells_expr h.1, spells_allExpr h.2⟩

theorem spells_stmt {s : Stmt α} (h : s.Writable) : SpellsStatement s := by
  match s with
  | .let_ tag id value =>
      have hid : id.erase.Writable := h.1
      have hmark := spells_closed (spells_let hid (spells_expr h.2))
      exact spellsStatement_of_mark rfl (by simpa [Stmt.render, Keyword.spelling] using hmark)
  | .return_ tag value =>
      rw [Stmt.Writable] at h
      have hmark := spells_closed (spells_return (spells_expr h))
      exact spellsStatement_of_mark rfl (by simpa [Stmt.render, Keyword.spelling] using hmark)
  | .expr tag value =>
      rw [Stmt.Writable] at h
      have hclause : Spells (.clause (Stmt.expr tag value).erase) value.render.toList :=
        fun offset => .expr ((spells_expr h).loosest offset)
      exact spellsStatement_of_clause rfl (by simpa [Stmt.render] using hclause)
  | .block body =>
      rw [Stmt.Writable] at h
      have hmark : Spells (.statement (Stmt.block body).erase .mark) body.render.toList :=
        fun offset => .block (spells_block h offset)
      exact spellsStatement_of_mark rfl (by simpa [Stmt.render] using hmark)

theorem spells_allStmt {ss : List (Stmt α)} (h : Stmt.AllWritable ss) :
    ∀ s ∈ ss, SpellsStatement s := by
  match ss with
  | [] => exact List.forall_mem_nil _
  | s :: ss => exact List.forall_mem_cons.mpr ⟨spells_stmt h.1, spells_allStmt h.2⟩

theorem spells_block {b : Block α} (h : b.Writable) :
    Spells (.block b.erase) b.render.toList := by
  match b with
  | .mk tag [] => simpa [Block.render] using spells_emptyBraces
  | .mk tag (s :: ss) =>
      rw [Block.Writable] at h
      simpa [Block.render] using spells_braces (spells_statements (spells_allStmt h))

end

/-- The text of a program that can be written is read as this program. -/
theorem parse_render {p : Program α} (h : p.Writable) :
    (parse p.render).errors = [] ∧ (parse p.render).program.erase = p.erase := by
  have hspells := spells_statements (spells_allStmt (Stmt.allWritable_iff.mpr h))
  refine parse_of_derives ?_
  rw [Program.statements_erase]
  exact hspells 0

/-- A program that can be written is read again from its text. Every program that was read,
from a text with errors or without, can be written, and what is read again from its text
has the same text. -/
theorem reading_undoes_writing :
    (∀ {α : Type} (p : Program α), p.Writable →
      (parse p.render).errors = [] ∧ (parse p.render).program.erase = p.erase) ∧
    ∀ source : String, let p := (parse source).program
      p.Writable ∧ (parse p.render).errors = [] ∧
        (parse p.render).program.erase = p.erase ∧
        (parse p.render).program.render = p.render := by
  refine ⟨fun p hp => parse_render hp, fun source => ?_⟩
  intro p
  have hp : p.Writable := parse_writable source
  obtain ⟨herrors, herase⟩ := parse_render hp
  refine ⟨hp, herrors, herase, ?_⟩
  rw [← Program.render_erase, herase, Program.render_erase]

/-- A call of a condition, and a block with a parenthesis behind it. -/
def callOfCondition : Program Unit :=
  ⟨[.expr () (.call () (.cond () (.ident ⟨(), "a"⟩) ⟨(), []⟩ none) [.int () 7]),
    .block ⟨(), [.return_ () (.unary () .negate (.int () 1))]⟩,
    .expr () (.binary () .add (.ident ⟨(), "b"⟩) (.bool () true))]⟩

theorem callOfCondition_is_read :
    (parse callOfCondition.render).errors = [] ∧
      (parse callOfCondition.render).program.erase = callOfCondition.erase := by
  refine reading_undoes_writing.1 callOfCondition ?_
  have ha : IsName "a" := by decide
  have hb : IsName "b" := by decide
  refine Stmt.allWritable_iff.mp ?_
  simp only [callOfCondition, Stmt.Writable, Expr.Writable, Block.Writable, Expr.AllWritable,
    Stmt.AllWritable, Ident.Writable, and_true]
  refine ⟨⟨ha, ?_⟩, ?_, hb⟩ <;> decide

end Grammar

end Monkey
