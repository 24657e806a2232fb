import Monkey.Proofs.Program.Anchors
import Monkey.Proofs.Program.Erase
import Monkey.Proofs.Token.Seam

/-!
# Programs that can be written down

Every tree can be given a text, but not every text is read back: a name has to be a
word that is no keyword, and there is no way to write a negative integer. A tree that
was read from a text has only such names and integers, whether the text has errors or
not (`parse_writable`).
-/

namespace Monkey

/-- A word that is not a keyword. -/
def IsName (name : String) : Prop :=
  name ≠ "" ∧ (∀ c ∈ name.toList, isWordChar c) ∧ ∀ w : Keyword, name ≠ w.spelling

variable {α : Type}

/-- What is mentioned has a name. -/
def Ident.Writable (id : Ident α) : Prop :=
  IsName id.name

mutual

/-- Names are names, and integers are not negative. -/
def Expr.Writable : Expr α → Prop
  | .ident id => id.Writable
  | .int _ value => 0 ≤ value
  | .bool _ _ => True
  | .unary _ _ operand => operand.Writable
  | .binary _ _ left right => left.Writable ∧ right.Writable
  | .cond _ condition consequence none => condition.Writable ∧ consequence.Writable
  | .cond _ condition consequence (some alternative) =>
      condition.Writable ∧ consequence.Writable ∧ alternative.Writable
  | .function _ params body => (∀ id ∈ params, id.Writable) ∧ body.Writable
  | .call _ callee args => callee.Writable ∧ Expr.AllWritable args

/-- `Expr.Writable` for each of several expressions. -/
def Expr.AllWritable : List (Expr α) → Prop
  | [] => True
  | e :: es => e.Writable ∧ Expr.AllWritable es

/-- Names are names, and integers are not negative. -/
def Stmt.Writable : Stmt α → Prop
  | .let_ _ id value => id.Writable ∧ value.Writable
  | .return_ _ value => value.Writable
  | .expr _ value => value.Writable
  | .block body => body.Writable

/-- `Stmt.Writable` for each of several statements. -/
def Stmt.AllWritable : List (Stmt α) → Prop
  | [] => True
  | s :: ss => s.Writable ∧ Stmt.AllWritable ss

/-- Names are names, and integers are not negative. -/
def Block.Writable : Block α → Prop
  | .mk _ statements => Stmt.AllWritable statements

end

/-- Names are names, and integers are not negative. -/
def Program.Writable (p : Program α) : Prop :=
  ∀ s ∈ p.statements, s.Writable

@[simp] theorem Expr.allWritable_iff {es : List (Expr α)} :
    Expr.AllWritable es ↔ ∀ e ∈ es, e.Writable := by
  induction es with
  | nil => simp [Expr.AllWritable]
  | cons e es ih => rw [Expr.AllWritable, ih, List.forall_mem_cons]

@[simp] theorem Stmt.allWritable_iff {ss : List (Stmt α)} :
    Stmt.AllWritable ss ↔ ∀ s ∈ ss, s.Writable := by
  induction ss with
  | nil => simp [Stmt.AllWritable]
  | cons s ss ih => rw [Stmt.AllWritable, ih, List.forall_mem_cons]

/-! ## Tags do not matter -/

mutual

theorem Expr.Writable.erase {e : Expr α} (h : e.Writable) : e.erase.Writable := by
  match e with
  | .ident id => exact h
  | .int tag value => exact h
  | .bool tag value => trivial
  | .unary tag op operand =>
      rw [Expr.Writable] at h
      rw [Expr.erase_unary, Expr.Writable]
      exact Expr.Writable.erase h
  | .binary tag op left right => exact ⟨Expr.Writable.erase h.1, Expr.Writable.erase h.2⟩
  | .cond tag condition consequence none =>
      exact ⟨Expr.Writable.erase h.1, Block.Writable.erase h.2⟩
  | .cond tag condition consequence (some alternative) =>
      exact ⟨Expr.Writable.erase h.1, Block.Writable.erase h.2.1, Block.Writable.erase h.2.2⟩
  | .function tag params body =>
      rw [Expr.Writable] at h
      rw [Expr.erase_function, Expr.Writable]
      refine ⟨fun id hid => ?_, Block.Writable.erase h.2⟩
      obtain ⟨id, hmem, rfl⟩ := List.mem_map.mp hid
      exact h.1 id hmem
  | .call tag callee args =>
      rw [Expr.erase_call]
      exact ⟨Expr.Writable.erase h.1, Expr.AllWritable.erase h.2⟩

theorem Expr.AllWritable.erase {es : List (Expr α)} (h : Expr.AllWritable es) :
    Expr.AllWritable (es.map Expr.erase) := by
  match es with
  | [] => trivial
  | e :: es => exact ⟨Expr.Writable.erase h.1, Expr.AllWritable.erase h.2⟩

theorem Stmt.Writable.erase {s : Stmt α} (h : s.Writable) : s.erase.Writable := by
  match s with
  | .let_ tag id value => exact ⟨h.1, Expr.Writable.erase h.2⟩
  | .return_ tag value | .expr tag value =>
      rw [Stmt.Writable] at h
      simpa [Stmt.Writable] using Expr.Writable.erase h
  | .block body =>
      rw [Stmt.Writable] at h
      simpa [Stmt.Writable] using Block.Writable.erase h

theorem Stmt.AllWritable.erase {ss : List (Stmt α)} (h : Stmt.AllWritable ss) :
    Stmt.AllWritable (ss.map Stmt.erase) := by
  match ss with
  | [] => trivial
  | s :: ss => exact ⟨Stmt.Writable.erase h.1, Stmt.AllWritable.erase h.2⟩

theorem Block.Writable.erase {b : Block α} (h : b.Writable) : b.erase.Writable := by
  match b with
  | .mk tag statements =>
      rw [Block.erase_mk]
      exact Stmt.AllWritable.erase h

end

/-! ## Names among tokens -/

instance {name : String} : Decidable (IsName name) :=
  decidable_of_iff
    (name ≠ "" ∧ name.toList.all isWordChar ∧ Keyword.ofSpelling? name = none)
    (by rw [Keyword.ofSpelling?_eq_none_iff, List.all_eq_true, IsName])

theorem Kind.ofMark_ne_ident (c : Char) : Kind.ofMark c ≠ .ident := by
  unfold Kind.ofMark
  split <;> simp

/-- The text of a name token is a name. -/
theorem isName_of_mem_scan {t : Token} {offset : Nat} {cs : List Char}
    (ht : t ∈ scan offset cs) (hk : t.kind = .ident) : IsName t.literal := by
  obtain ⟨c, ds, hkind, hliteral⟩ := exists_lexeme_of_mem_scan ht
  rw [hkind] at hk
  by_cases hword : isWordChar c
  · rw [lexeme_word hword] at hk hliteral
    rw [hliteral]
    refine ⟨by simp [← String.toList_inj], ?_, Kind.ofWord_eq_ident_iff.mp hk⟩
    rw [String.toList_ofList]
    refine List.forall_mem_cons.mpr ⟨hword, ?_⟩
    exact List.all_eq_true.mp List.all_takeWhile
  by_cases hdigit : isDigit c
  · rw [lexeme_digit hword hdigit] at hk
    cases hk
  · rw [lexeme_mark hword hdigit] at hk
    split at hk
    · cases hk
    split at hk
    · cases hk
    · exact absurd hk (Kind.ofMark_ne_ident c)

/-! ## Trees that were read -/

/-- The texts of name tokens are names. -/
def NamesIn (ts : List Token) : Prop :=
  ∀ t ∈ ts, t.kind = .ident → IsName t.literal

theorem NamesIn.mono {ts us : List Token} (h : NamesIn ts) (hsub : us ⊆ ts) : NamesIn us :=
  fun t ht => h t (hsub ht)

theorem namesIn_cons {t : Token} {ts : List Token} :
    NamesIn (t :: ts) ↔ (t.kind = .ident → IsName t.literal) ∧ NamesIn ts :=
  List.forall_mem_cons

theorem namesIn_append {us vs : List Token} :
    NamesIn (us ++ vs) ↔ NamesIn us ∧ NamesIn vs :=
  List.forall_mem_append

theorem Ident.Fits.writable {id : Ident Token} (h : id.Fits)
    (hname : id.tag.kind = .ident → IsName id.tag.literal) : id.Writable := by
  unfold Ident.Writable
  rw [← h.2]
  exact hname h.1

theorem Token.integer?_nonneg {t : Token} {n : Int64} (h : t.integer? = some n) : 0 ≤ n := by
  obtain ⟨hlt, rfl⟩ := Token.integer?_eq_some_iff.mp h
  rw [Int64.le_iff_toInt_le, Int64.toInt_ofNat_of_lt hlt]
  exact Int.natCast_nonneg _

mutual

theorem Expr.Fits.writable {e : Expr Token} (h : e.Fits) (hnames : NamesIn e.tags) :
    e.Writable := by
  match e with
  | .ident id => exact Ident.Fits.writable h (namesIn_cons.mp hnames).1
  | .int tag value => exact Token.integer?_nonneg h.2
  | .bool tag value => trivial
  | .unary tag op operand =>
      simp only [Expr.tags, namesIn_cons] at hnames
      rw [Expr.Writable]
      exact Expr.Fits.writable h.2 hnames.2
  | .binary tag op left right =>
      simp only [Expr.tags, namesIn_append, namesIn_cons] at hnames
      exact ⟨Expr.Fits.writable h.2.1 hnames.1, Expr.Fits.writable h.2.2 hnames.2.2⟩
  | .cond tag condition consequence none =>
      simp only [Expr.tags, List.cons_append, namesIn_cons, namesIn_append] at hnames
      exact ⟨Expr.Fits.writable h.2.1 hnames.2.1, Block.Fits.writable h.2.2 hnames.2.2⟩
  | .cond tag condition consequence (some alternative) =>
      simp only [Expr.tags, List.cons_append, namesIn_cons, namesIn_append] at hnames
      obtain ⟨-, ⟨hcondition, hconsequence⟩, halternative⟩ := hnames
      exact ⟨Expr.Fits.writable h.2.1 hcondition, Block.Fits.writable h.2.2.1 hconsequence,
        Block.Fits.writable h.2.2.2 halternative⟩
  | .function tag params body =>
      simp only [Expr.tags, List.cons_append, namesIn_cons, namesIn_append] at hnames
      refine ⟨fun id hid => ?_, Block.Fits.writable h.2.2 hnames.2.2⟩
      exact Ident.Fits.writable (h.2.1 id hid) (hnames.2.1 _ (List.mem_map_of_mem hid))
  | .call tag callee args =>
      simp only [Expr.tags, namesIn_append, namesIn_cons] at hnames
      exact ⟨Expr.Fits.writable h.2.1 hnames.1, Expr.AllFit.writable h.2.2 hnames.2.2⟩

theorem Expr.AllFit.writable {es : List (Expr Token)} (h : Expr.AllFit es)
    (hnames : NamesIn (Expr.allTags es)) : Expr.AllWritable es := by
  match es with
  | [] => trivial
  | e :: es =>
      obtain ⟨he, hes⟩ := namesIn_append.mp hnames
      exact ⟨Expr.Fits.writable h.1 he, Expr.AllFit.writable h.2 hes⟩

theorem Stmt.Fits.writable {s : Stmt Token} (h : s.Fits) (hnames : NamesIn s.tags) :
    s.Writable := by
  match s with
  | .let_ tag id value =>
      simp only [Stmt.tags, namesIn_cons] at hnames
      exact ⟨Ident.Fits.writable h.2.1 hnames.2.1, Expr.Fits.writable h.2.2 hnames.2.2⟩
  | .return_ tag value =>
      rw [Stmt.Writable]
      exact Expr.Fits.writable h.2 (namesIn_cons.mp hnames).2
  | .expr tag value =>
      rw [Stmt.Writable]
      exact Expr.Fits.writable h hnames
  | .block body =>
      rw [Stmt.Writable]
      exact Block.Fits.writable h hnames

theorem Stmt.AllFit.writable {ss : List (Stmt Token)} (h : Stmt.AllFit ss)
    (hnames : NamesIn (Stmt.allTags ss)) : Stmt.AllWritable ss := by
  match ss with
  | [] => trivial
  | s :: ss =>
      obtain ⟨hs, hss⟩ := namesIn_append.mp hnames
      exact ⟨Stmt.Fits.writable h.1 hs, Stmt.AllFit.writable h.2 hss⟩

theorem Block.Fits.writable {b : Block Token} (h : b.Fits) (hnames : NamesIn b.tags) :
    b.Writable := by
  match b with
  | .mk tag statements => exact Stmt.AllFit.writable h.2 (namesIn_cons.mp hnames).2

end

/-- What is read from a text can be written, whatever the text. -/
theorem parse_writable (source : String) : (parse source).program.Writable := by
  obtain ⟨hfits, hanchors⟩ := parse_anchors source
  have htags := (Stmt.flatMap_tags_sublist _).trans hanchors
  have hnames : NamesIn (tokenize source) := fun t ht => isName_of_mem_scan ht
  intro s hs
  refine (hfits s hs).writable ((hnames.mono htags.subset).mono ?_)
  exact fun t ht => List.mem_flatMap.mpr ⟨s, hs, ht⟩

end Monkey
