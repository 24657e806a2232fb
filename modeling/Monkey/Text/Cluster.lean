import Monkey.Text.Cluster.Role

/-!
# Clusters

A text is split into clusters, each of which a reader takes for one character. Whether a
character still belongs to a cluster hangs on its role and on how the cluster ends so far.
The clusters put together are the text, and a control character is a cluster of its own.
-/

namespace Monkey.Text

namespace Cluster

/-- How a cluster ends, as far as the next character asks. -/
inductive Ending where
  | carriageReturn
  /-- Nothing can follow. -/
  | closed
  /-- It ends with what is drawn upon the next character. -/
  | lead
  /-- It ends with the first consonant of a Hangul syllable. -/
  | initial
  /-- It ends with a Hangul syllable that has its vowel. -/
  | vowel
  /-- It ends with a Hangul syllable that has its last consonant. -/
  | final
  /-- It ends with the first half of a flag. -/
  | halfFlag
  /-- It ends with a pictograph and marks upon it. -/
  | pictograph
  /-- It ends with a pictograph, marks upon it, and a joiner. -/
  | joinedPictograph
  /-- It ends with a consonant, marks upon it, and no linker. -/
  | consonant
  /-- It ends with a consonant, marks upon it, and a linker among these. -/
  | linkedConsonant
  | other
deriving DecidableEq, Repr

/-- How a cluster of one character ends. -/
def Role.ending : Role → Ending
  | .carriageReturn => .carriageReturn
  | .lineFeed | .control => .closed
  | .lead => .lead
  | .initial => .initial
  | .vowel | .openSyllable => .vowel
  | .final | .closedSyllable => .final
  | .flagLetter => .halfFlag
  | .pictograph => .pictograph
  | .consonant => .consonant
  | .mark | .linker | .nonJoiner | .joiner | .spacingMark | .other => .other

namespace Ending

/-- A character of this role belongs to the cluster that ends this way. -/
def takes : Ending → Role → Bool
  | .carriageReturn, r => r = .lineFeed
  | .closed, _ => false
  | _, .carriageReturn | _, .lineFeed | _, .control => false
  | _, .mark | _, .linker | _, .nonJoiner | _, .joiner | _, .spacingMark => true
  | .lead, _ => true
  | .initial, .initial | .initial, .vowel => true
  | .initial, .openSyllable | .initial, .closedSyllable => true
  | .vowel, .vowel | .vowel, .final => true
  | .final, .final => true
  | .halfFlag, .flagLetter => true
  | .joinedPictograph, .pictograph => true
  | .linkedConsonant, .consonant => true
  | _, _ => false

/-- How the cluster ends once it has taken a character of this role. -/
def push : Ending → Role → Ending
  | .pictograph, .mark | .pictograph, .linker | .pictograph, .nonJoiner => .pictograph
  | .pictograph, .joiner => .joinedPictograph
  | .consonant, .mark | .consonant, .joiner => .consonant
  | .consonant, .linker => .linkedConsonant
  | .linkedConsonant, .mark | .linkedConsonant, .joiner => .linkedConsonant
  | .linkedConsonant, .linker => .linkedConsonant
  | .halfFlag, .flagLetter => .other
  | _, r => r.ending

theorem takes_control (e : Ending) : e.takes .control = false := by
  cases e <;> rfl

end Ending

end Cluster

open Cluster

/-- What a text adds to the cluster before it, which ends in the way given, and the
clusters behind. -/
def continueClusters (e : Ending) : List Char → List Char × List (List Char)
  | [] => ([], [])
  | c :: cs =>
      let r := Role.ofChar c
      if e.takes r then
        let (l, ls) := continueClusters (e.push r) cs
        (c :: l, ls)
      else
        let (l, ls) := continueClusters r.ending cs
        ([], (c :: l) :: ls)

/-- The clusters of a text. -/
def clusters : List Char → List (List Char)
  | [] => []
  | c :: cs =>
      let (l, ls) := continueClusters (Role.ofChar c).ending cs
      (c :: l) :: ls

theorem continueClusters_cons (e : Ending) (c : Char) (cs : List Char) :
    continueClusters e (c :: cs) =
      if e.takes (Role.ofChar c) then
        (c :: (continueClusters (e.push (Role.ofChar c)) cs).1,
          (continueClusters (e.push (Role.ofChar c)) cs).2)
      else
        ([], (c :: (continueClusters (Role.ofChar c).ending cs).1) ::
          (continueClusters (Role.ofChar c).ending cs).2) :=
  rfl

theorem append_flatten_continueClusters (e : Ending) (cs : List Char) :
    (continueClusters e cs).1 ++ (continueClusters e cs).2.flatten = cs := by
  induction cs generalizing e with
  | nil => rfl
  | cons c cs ih =>
      rw [continueClusters_cons]
      split <;> simp [ih]

/-- No character is lost, and none is added. -/
theorem flatten_clusters (cs : List Char) : (clusters cs).flatten = cs := by
  cases cs with
  | nil => rfl
  | cons c cs => simp [clusters, append_flatten_continueClusters]

/-- Nothing follows a control character in its cluster. -/
theorem continueClusters_closed (cs : List Char) : (continueClusters .closed cs).1 = [] := by
  cases cs <;> rfl

theorem continueClusters_control (e : Ending) {c : Char} (hc : Role.ofChar c = .control)
    (cs : List Char) :
    c ∉ (continueClusters e cs).1 ∧
      ∀ l ∈ (continueClusters e cs).2, c ∈ l → l = [c] := by
  induction cs generalizing e with
  | nil => simp [continueClusters]
  | cons d cs ih =>
      rw [continueClusters_cons]
      split
      next htakes =>
        obtain ⟨hfirst, hrest⟩ := ih (e.push (Role.ofChar d))
        refine ⟨?_, hrest⟩
        intro hmem
        rcases List.mem_cons.mp hmem with rfl | hmem
        · rw [hc, Ending.takes_control] at htakes
          exact Bool.false_ne_true htakes
        · exact hfirst hmem
      next =>
        obtain ⟨hfirst, hrest⟩ := ih (Role.ofChar d).ending
        refine ⟨List.not_mem_nil, ?_⟩
        intro l hl hmem
        rcases List.mem_cons.mp hl with rfl | hl
        · rcases List.mem_cons.mp hmem with rfl | hmem
          · rw [hc]
            exact congrArg (c :: ·) (continueClusters_closed cs)
          · exact absurd hmem hfirst
        · exact hrest l hl hmem

/-- A control character is a cluster of its own. -/
theorem eq_singleton_of_mem_clusters {c : Char} (hc : Role.ofChar c = .control)
    {cs l : List Char} (hl : l ∈ clusters cs) (hmem : c ∈ l) : l = [c] := by
  cases cs with
  | nil => simp [clusters] at hl
  | cons d cs =>
      obtain ⟨hfirst, hrest⟩ := continueClusters_control (Role.ofChar d).ending hc cs
      rcases List.mem_cons.mp hl with rfl | hl
      · rcases List.mem_cons.mp hmem with rfl | hmem
        · rw [hc]
          exact congrArg (c :: ·) (continueClusters_closed cs)
        · exact absurd hmem hfirst
      · exact hrest l hl hmem

end Monkey.Text
