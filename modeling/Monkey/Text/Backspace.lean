import Monkey.Text.Cluster
import Monkey.Token.Scanner

/-!
# Backspaces

A backspace takes back the cluster that was typed before it, and does nothing where no
cluster is left. What is kept holds no backspace, and a text without one stays as it is.

How many bytes a cluster takes is noted in one byte, and a backspace goes by this note.
So it takes back a cluster of less than 256 bytes as a whole. Of a longer one it takes
back only what the note says, which fails if a character would be cut in two.
-/

namespace Monkey.Text

/-- The character that takes back what was typed before it. -/
def backspace : Char :=
  '\x08'

/-- The text behind its first `n` bytes; `none` if these end within a character. -/
def dropBytes : Nat → List Char → Option (List Char)
  | 0, cs => some cs
  | _ + 1, [] => none
  | n + 1, c :: cs =>
      if c.utf8Size ≤ n + 1 then dropBytes (n + 1 - c.utf8Size) cs else none

theorem dropBytes_zero (cs : List Char) : dropBytes 0 cs = some cs := by
  cases cs <;> rfl

theorem dropBytes_cons {n : Nat} {c : Char} (h : c.utf8Size ≤ n) (cs : List Char) :
    dropBytes n (c :: cs) = dropBytes (n - c.utf8Size) cs := by
  cases n with
  | zero => exact absurd c.utf8Size_pos (by omega)
  | succ n => simp [dropBytes, h]

/-- The bytes of a text are dropped together with it. -/
theorem dropBytes_byteCount_append (cs ds : List Char) :
    dropBytes (byteCount cs) (cs ++ ds) = some ds := by
  induction cs with
  | nil => exact dropBytes_zero ds
  | cons c cs ih =>
      rw [byteCount_cons, List.cons_append, dropBytes_cons (by omega)]
      simpa using ih

/-- Only the end of the text is left. -/
theorem mem_of_mem_dropBytes {n : Nat} {cs ds : List Char} (h : dropBytes n cs = some ds)
    {c : Char} (hmem : c ∈ ds) : c ∈ cs := by
  fun_induction dropBytes n cs with
  | case1 cs => exact Option.some.inj h ▸ hmem
  | case2 => simp at h
  | case3 n d cs _ ih => exact List.mem_cons_of_mem d (ih h)
  | case4 => simp at h

theorem byteCount_reverse (cs : List Char) : byteCount cs.reverse = byteCount cs := by
  induction cs with
  | nil => rfl
  | cons c cs ih =>
      rw [List.reverse_cons, byteCount_append, ih, byteCount_cons, byteCount_cons, byteCount_nil]
      omega

/-- What was typed and not taken back. -/
structure Typed where
  /-- The characters, the last one first. -/
  rev : List Char
  /-- The notes on how many bytes each cluster takes, the last one first. -/
  notes : List UInt8
deriving DecidableEq, Repr

namespace Typed

/-- Nothing is typed. -/
def nothing : Typed :=
  ⟨[], []⟩

/-- Type one more cluster. -/
def push (t : Typed) (l : List Char) : Option Typed :=
  if l = [backspace] then
    match t.notes with
    | [] => some t
    | n :: notes => (dropBytes n.toNat t.rev).map (⟨·, notes⟩)
  else some ⟨l.reverse ++ t.rev, UInt8.ofNat (byteCount l) :: t.notes⟩

theorem push_of_ne (t : Typed) {l : List Char} (h : l ≠ [backspace]) :
    t.push l = some ⟨l.reverse ++ t.rev, UInt8.ofNat (byteCount l) :: t.notes⟩ :=
  if_neg h

/-- A backspace takes back a cluster of less than 256 bytes as a whole. -/
theorem push_push_backspace (t : Typed) {l : List Char} (h : l ≠ [backspace])
    (hlength : byteCount l < 256) : (t.push l >>= (·.push [backspace])) = some t := by
  have hnote : (UInt8.ofNat (byteCount l)).toNat = byteCount l.reverse := by
    rw [byteCount_reverse, UInt8.toNat_ofNat']
    exact Nat.mod_eq_of_lt hlength
  rw [push_of_ne t h]
  simp [push, hnote, dropBytes_byteCount_append]

/-- A backspace is not kept. -/
theorem backspace_notMem_push {t u : Typed} {l : List Char} (hpush : t.push l = some u)
    (hl : l ≠ [backspace] → backspace ∉ l) (ht : backspace ∉ t.rev) : backspace ∉ u.rev := by
  by_cases h : l = [backspace]
  · cases hnotes : t.notes with
    | nil =>
        simp only [push, h, if_true, hnotes, Option.some.injEq] at hpush
        exact hpush ▸ ht
    | cons n notes =>
        simp only [push, h, if_true, hnotes, Option.map_eq_some_iff] at hpush
        obtain ⟨rev, hrev, rfl⟩ := hpush
        exact fun hmem => ht (mem_of_mem_dropBytes hrev hmem)
  · rw [push_of_ne t h, Option.some.injEq] at hpush
    rw [← hpush]
    simp [hl h, ht]

end Typed

/-- The text that is left when each backspace has taken back what it can; `none` if one
of them would cut a character in two. -/
def eraseBackspaces (cs : List Char) : Option (List Char) :=
  ((clusters cs).foldlM Typed.push .nothing).map (·.rev.reverse)

theorem ofChar_backspace : Cluster.Role.ofChar backspace = .control := by
  decide

theorem foldlM_push_of_forall_ne {ls : List (List Char)} (h : ∀ l ∈ ls, l ≠ [backspace])
    (t : Typed) : ∃ notes, ls.foldlM Typed.push t = some ⟨ls.flatten.reverse ++ t.rev, notes⟩ := by
  induction ls generalizing t with
  | nil => exact ⟨t.notes, rfl⟩
  | cons l ls ih =>
      rw [List.foldlM_cons, t.push_of_ne (h l List.mem_cons_self)]
      obtain ⟨notes, hfold⟩ := ih (fun m hm => h m (List.mem_cons_of_mem l hm))
        ⟨l.reverse ++ t.rev, UInt8.ofNat (byteCount l) :: t.notes⟩
      exact ⟨notes, by simpa using hfold⟩

/-- A text without a backspace stays as it is. -/
theorem eraseBackspaces_eq_some_self {cs : List Char} (h : backspace ∉ cs) :
    eraseBackspaces cs = some cs := by
  have hne : ∀ l ∈ clusters cs, l ≠ [backspace] := by
    rintro l hl rfl
    apply h
    rw [← flatten_clusters cs]
    exact List.mem_flatten.mpr ⟨_, hl, List.mem_singleton_self backspace⟩
  obtain ⟨notes, hfold⟩ := foldlM_push_of_forall_ne hne .nothing
  rw [eraseBackspaces, hfold, flatten_clusters]
  simp [Typed.nothing]

theorem backspace_notMem_foldlM_push {ls : List (List Char)}
    (hls : ∀ l ∈ ls, l ≠ [backspace] → backspace ∉ l) {t u : Typed}
    (hfold : ls.foldlM Typed.push t = some u) (ht : backspace ∉ t.rev) : backspace ∉ u.rev := by
  induction ls generalizing t with
  | nil => exact Option.some.inj hfold ▸ ht
  | cons l ls ih =>
      rw [List.foldlM_cons] at hfold
      obtain ⟨v, hpush, hrest⟩ := Option.bind_eq_some_iff.mp hfold
      exact ih (fun m hm => hls m (List.mem_cons_of_mem l hm)) hrest
        (Typed.backspace_notMem_push hpush (hls l List.mem_cons_self) ht)

/-- No backspace is left. -/
theorem backspace_notMem_eraseBackspaces {cs ds : List Char} (h : eraseBackspaces cs = some ds) :
    backspace ∉ ds := by
  obtain ⟨t, hfold, rfl⟩ := Option.map_eq_some_iff.mp h
  have hrev := backspace_notMem_foldlM_push
    (fun l hl hne hmem => hne (eq_singleton_of_mem_clusters ofChar_backspace hl hmem))
    hfold List.not_mem_nil
  simpa using hrev

end Monkey.Text
