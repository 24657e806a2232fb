/-!
# Stretches of a text

A span is a half-open stretch of bytes of a source text. Tokens carry the span
they were cut from, and diagnostics point at one.
-/

namespace Monkey

/-- The bytes from `start` up to, but not including, `stop`. -/
structure Span where
  start : Nat
  stop : Nat
deriving DecidableEq, Repr, Inhabited

namespace Span

instance : ToString Span where
  toString s := s!"{s.start}..{s.stop}"

/-- The span an excerpt underlines: an empty one is widened by one byte, so that
there is something to point at. -/
def widen (s : Span) : Span :=
  if s.start = s.stop then ⟨s.start, s.stop + 1⟩ else s

/-- The same stretch when `n` bytes are put before the text. -/
def shift (n : Nat) (s : Span) : Span :=
  ⟨s.start + n, s.stop + n⟩

theorem widen_of_ne {s : Span} (h : s.start ≠ s.stop) : s.widen = s := if_neg h

theorem widen_start (s : Span) : s.widen.start = s.start := by
  unfold widen
  split <;> rfl

end Span

end Monkey
