import Monkey.Program.Parse.Equations

/-!
# The grammar of programs

Which sequences of tokens are written for which trees, said without a parser:
operators in levels from the loosest to the tightest, each grouping to the left, over
unary operators, calls and what stands for itself.

The plain grammar is ambiguous. Nothing has to stand between two statements, and
behind an expression an opening parenthesis or a minus begins a statement just as well
as it continues the expression. In a longest derivation it always continues.
-/

namespace Monkey

/-- One step tighter; nothing is tighter than the unary operators. -/
def Precedence.tighter : Precedence → Precedence
  | lowest => equality
  | equality => order
  | order => sum
  | sum => product
  | product => unary
  | unary => unary

/-- The kinds of tokens that a statement can begin with. -/
def Kind.OpensStmt (k : Kind) : Prop :=
  k = keyword .let_ ∨ k = keyword .return_ ∨ k = lbrace ∨ k.OpensExpr

namespace Grammar

/-- What a statement ends with. -/
inductive Ending where
  | expression
  /-- A semicolon or a closing brace of its own. -/
  | mark
deriving DecidableEq

/-- What a sequence of tokens can be, together with what it says. -/
inductive Phrase where
  | statements (ss : List (Stmt Unit))
  | statement (s : Stmt Unit) (ending : Ending)
  /-- A statement that is no block, without a semicolon. -/
  | clause (s : Stmt Unit)
  | block (b : Block Unit)
  /-- An expression whose operators outside of parentheses are of this precedence or
  tighter. -/
  | expr (p : Precedence) (e : Expr Unit)
  /-- A primary expression and the calls behind it. -/
  | called (e : Expr Unit)
  | primary (e : Expr Unit)
  /-- Arguments in parentheses. -/
  | args (es : List (Expr Unit))
  /-- At least one expression, with commas between them. -/
  | exprs (es : List (Expr Unit))
  /-- Parameters in parentheses. -/
  | params (ids : List (Ident Unit))
  /-- At least one name, with commas between them. -/
  | names (ids : List (Ident Unit))

/-- What follows begins with a parenthesis or a minus, and so can continue an
expression before it. -/
def Continues (ts : List Token) : Prop :=
  ∃ t ∈ ts.head?, t.kind = .lparen ∨ t.kind = .minus

/-- The phrase is written with these tokens. In a `longest` derivation nothing that could
continue the expression at the end of a statement begins a new one. -/
inductive Derives (longest : Bool) : Phrase → List Token → Prop where
  | done : Derives longest (.statements []) []
  | next {s ending ss us vs} : Derives longest (.statement s ending) us →
      Derives longest (.statements ss) vs →
      (longest → ending = .expression → ¬Continues vs) →
      Derives longest (.statements (s :: ss)) (us ++ vs)
  | unclosed {s us} : Derives longest (.clause s) us →
      Derives longest (.statement s .expression) us
  | closed {s us t} : Derives longest (.clause s) us → t.kind = .semicolon →
      Derives longest (.statement s .mark) (us ++ [t])
  | let_ {t name eq e us} : t.kind = .keyword .let_ → name.kind = .ident →
      eq.kind = .assign → Derives longest (.expr .lowest e) us →
      Derives longest (.clause (.let_ () ⟨(), name.literal⟩ e)) (t :: name :: eq :: us)
  | return_ {t e us} : t.kind = .keyword .return_ →
      Derives longest (.expr .lowest e) us →
      Derives longest (.clause (.return_ () e)) (t :: us)
  | expr {e us} : Derives longest (.expr .lowest e) us →
      Derives longest (.clause (.expr () e)) us
  | block {b us} : Derives longest (.block b) us →
      Derives longest (.statement (.block b) .mark) us
  | braces {t ss us u} : t.kind = .lbrace → Derives longest (.statements ss) us →
      u.kind = .rbrace → Derives longest (.block ⟨(), ss⟩) (t :: us ++ [u])
  | looser {p e us} : Derives longest (.expr p.tighter e) us →
      Derives longest (.expr p e) us
  | binary {op l r t us vs} : Derives longest (.expr op.precedence l) us →
      BinaryOp.ofKind? t.kind = some op →
      Derives longest (.expr op.precedence.tighter r) vs →
      Derives longest (.expr op.precedence (.binary () op l r)) (us ++ t :: vs)
  | unary {op e t us} : UnaryOp.ofKind? t.kind = some op →
      Derives longest (.expr .unary e) us →
      Derives longest (.expr .unary (.unary () op e)) (t :: us)
  | called {e us} : Derives longest (.called e) us → Derives longest (.expr .unary e) us
  | primary {e us} : Derives longest (.primary e) us → Derives longest (.called e) us
  | call {f es us vs} : Derives longest (.called f) us → Derives longest (.args es) vs →
      Derives longest (.called (.call () f es)) (us ++ vs)
  | ident {t} : t.kind = .ident →
      Derives longest (.primary (.ident ⟨(), t.literal⟩)) [t]
  | int {t n} : t.kind = .int → n = Nat.ofDigitChars 10 t.literal.toList 0 → n < 2 ^ 63 →
      Derives longest (.primary (.int () (Int64.ofNat n))) [t]
  | true_ {t} : t.kind = .keyword .true_ → Derives longest (.primary (.bool () true)) [t]
  | false_ {t} : t.kind = .keyword .false_ →
      Derives longest (.primary (.bool () false)) [t]
  | group {t e us u} : t.kind = .lparen → Derives longest (.expr .lowest e) us →
      u.kind = .rparen → Derives longest (.primary e) (t :: us ++ [u])
  | if_ {t l c us r b vs} : t.kind = .keyword .if_ → l.kind = .lparen →
      Derives longest (.expr .lowest c) us → r.kind = .rparen →
      Derives longest (.block b) vs →
      Derives longest (.primary (.cond () c b none)) (t :: l :: us ++ r :: vs)
  | ifElse {t l c us r b vs o a ws} : t.kind = .keyword .if_ → l.kind = .lparen →
      Derives longest (.expr .lowest c) us → r.kind = .rparen →
      Derives longest (.block b) vs → o.kind = .keyword .else_ →
      Derives longest (.block a) ws →
      Derives longest (.primary (.cond () c b (some a))) (t :: l :: us ++ r :: vs ++ o :: ws)
  | function {t ids us b vs} : t.kind = .keyword .function →
      Derives longest (.params ids) us → Derives longest (.block b) vs →
      Derives longest (.primary (.function () ids b)) (t :: us ++ vs)
  | noArgs {t u} : t.kind = .lparen → u.kind = .rparen → Derives longest (.args []) [t, u]
  | someArgs {t es us u} : t.kind = .lparen → Derives longest (.exprs es) us →
      u.kind = .rparen → Derives longest (.args es) (t :: us ++ [u])
  | lastExpr {e us} : Derives longest (.expr .lowest e) us → Derives longest (.exprs [e]) us
  | moreExprs {e us t es vs} : Derives longest (.expr .lowest e) us → t.kind = .comma →
      Derives longest (.exprs es) vs → Derives longest (.exprs (e :: es)) (us ++ t :: vs)
  | noParams {t u} : t.kind = .lparen → u.kind = .rparen →
      Derives longest (.params []) [t, u]
  | someParams {t ids us u} : t.kind = .lparen → Derives longest (.names ids) us →
      u.kind = .rparen → Derives longest (.params ids) (t :: us ++ [u])
  | lastName {t} : t.kind = .ident → Derives longest (.names [⟨(), t.literal⟩]) [t]
  | moreNames {t c ids us} : t.kind = .ident → c.kind = .comma →
      Derives longest (.names ids) us →
      Derives longest (.names (⟨(), t.literal⟩ :: ids)) (t :: c :: us)

/-- The kinds of tokens that the phrase can begin with. -/
def Phrase.Opens : Phrase → Kind → Prop
  | statements _, k | statement _ _, k | clause _, k => k.OpensStmt
  | block _, k => k = .lbrace
  | expr _ _, k | called _, k | primary _, k | exprs _, k => k.OpensExpr
  | args _, k | params _, k => k = .lparen
  | names _, k => k = .ident

namespace Derives

variable {longest : Bool} {φ : Phrase} {p q : Precedence} {e : Expr Unit}
  {us vs : List Token}

/-- Nothing but a sequence of statements can be empty. -/
theorem opens (h : Derives longest φ us) :
    (φ = .statements [] ∧ us = []) ∨ ∃ t ts, us = t :: ts ∧ φ.Opens t.kind := by
  induction h with
  | done => exact .inl ⟨rfl, rfl⟩
  | next _ _ _ ih _ | closed _ _ ih | binary _ _ _ ih _ | call _ _ ih _ | moreExprs _ _ _ ih _ =>
      obtain ⟨hφ, _⟩ | ⟨t, ts, rfl, ht⟩ := ih
      · cases hφ
      · exact .inr ⟨t, _, rfl, ht⟩
  | unclosed _ ih | looser _ ih | called _ ih | primary _ ih | lastExpr _ ih =>
      obtain ⟨hφ, _⟩ | ⟨t, ts, rfl, ht⟩ := ih
      · cases hφ
      · exact .inr ⟨t, _, rfl, ht⟩
  | expr _ ih =>
      obtain ⟨hφ, _⟩ | ⟨t, ts, rfl, ht⟩ := ih
      · cases hφ
      · exact .inr ⟨t, _, rfl, .inr (.inr (.inr ht))⟩
  | block _ ih =>
      obtain ⟨hφ, _⟩ | ⟨t, ts, rfl, ht⟩ := ih
      · cases hφ
      · exact .inr ⟨t, _, rfl, .inr (.inr (.inl ht))⟩
  | unary hop =>
      refine .inr ⟨_, _, rfl, ?_⟩
      unfold UnaryOp.ofKind? at hop
      split at hop
      · simp [Phrase.Opens, Kind.OpensExpr, *]
      · simp [Phrase.Opens, Kind.OpensExpr, *]
      · cases hop
  | let_ ht | return_ ht | braces ht | ident ht | int ht | true_ ht | false_ ht | group ht | if_ ht
  | ifElse ht | function ht | noArgs ht | someArgs ht | noParams ht | someParams ht | lastName ht
  | moreNames ht =>
      exact .inr ⟨_, _, rfl, by simp [Phrase.Opens, Kind.OpensStmt, Kind.OpensExpr, ht]⟩

end Derives

end Grammar

end Monkey
