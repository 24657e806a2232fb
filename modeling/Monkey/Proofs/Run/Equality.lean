import Monkey.Proofs.Run.History
import Monkey.Proofs.Run.Sharing

/-!
# Equality

`==` goes by what an integer, a truth value or `null` is, and by the number of anything else.
So it is an equivalence, which no values of different types fall under. Two functions are equal
exactly if one evaluation of a function literal has made them both, however they were passed on
(`History.equality_laws`).

That truth values and `null` can be compared by what they are is seen in memory: there they are
compared by their addresses, and no program ever makes one of them anew
(`Memory.History.represents`).
-/

namespace Monkey

namespace Value

/-- What `==` answers: integers are compared by what they are, other values as objects. -/
def equal : Value → Value → Bool
  | int _ m, int _ n => m = n
  | v, w => v.same w

/-- What `==` goes by. -/
inductive Key where
  | int (value : Int64)
  | bool (value : Bool)
  | null
  | returned (id : ObjectId)
  | error (id : ObjectId)
  | closure (id : ObjectId)
deriving DecidableEq

/-- What `==` goes by at the value. -/
def key : Value → Key
  | int _ value => .int value
  | bool value => .bool value
  | null => .null
  | returned id _ => .returned id
  | error id _ => .error id
  | closure c => .closure c.id

theorem equal_iff_key_eq {v w : Value} : v.equal w ↔ v.key = w.key := by
  cases v <;> cases w <;> simp [equal, same, key]

end Value

variable {x y z : Value} {s : Store}

/-- No operand makes `==` or `!=` fail. -/
theorem evalBinary_equal :
    evalBinary .equal x y s = some (.bool (x.equal y), s) ∧
      evalBinary .notEqual x y s = some (.bool !x.equal y, s) := by
  by_cases hints : x.type = .integer ∧ y.type = .integer
  · obtain ⟨hx, hy⟩ := hints
    cases x with
    | int i m => cases y with
      | int j n =>
          refine ⟨rfl, ?_⟩
          change some (Value.bool (decide (m ≠ n)), s) = some (Value.bool !decide (m = n), s)
          rw [decide_not]
      | _ => cases hy
    | _ => cases hx
  · have hsame : x.equal y = x.same y := by
      cases x with
      | int => cases y with
        | int => exact absurd ⟨rfl, rfl⟩ hints
        | _ => rfl
      | _ => rfl
    rw [evalBinary_of_not_integers hints, evalBinary_of_not_integers hints, hsame]
    exact ⟨rfl, rfl⟩

/-! ## In memory -/

namespace Memory

/-- The programs have been run on objects in memory, one after the other, the last one first. -/
inductive History : List (Program Unit) → Heap → Prop where
  | start : History [] .fresh
  | next {ps σ p depth a τ} : History ps σ → evaluate depth p 0 σ = some (a, τ) →
      History (p :: ps) τ

theorem represents_fresh : Heap.fresh.Represents .single := by
  have hobjects : ∀ (a : Address) (o : Object), Heap.fresh.objects[a]? = some o →
      a = truth true ∧ o = .bool true ∨ a = truth false ∧ o = .bool false ∨
        a = nothing ∧ o = .null := by
    intro a o ho
    match a with
    | 0 =>
        cases ho
        exact .inl ⟨rfl, rfl⟩
    | 1 =>
        cases ho
        exact .inr (.inl ⟨rfl, rfl⟩)
    | 2 =>
        cases ho
        exact .inr (.inr ⟨rfl, rfl⟩)
    | a + 3 => cases ho
  refine ⟨rfl, rfl, fun b => ?_, rfl, fun a b ho => ?_, fun a ho => ?_, fun i => ?_⟩
  · cases b <;> rfl
  · obtain ⟨rfl, heq⟩ | ⟨rfl, heq⟩ | ⟨rfl, heq⟩ := hobjects a _ ho <;> cases heq <;> rfl
  · obtain ⟨rfl, heq⟩ | ⟨rfl, heq⟩ | ⟨rfl, heq⟩ := hobjects a _ ho <;> cases heq
    rfl
  · match i with
    | 0 => exact .some ⟨rfl, .nil⟩
    | i + 1 => exact .none

variable {ps : List (Program Unit)} {ms : List Moment} {σ : Heap} {a b : Address}

/-- In memory the same is answered, whether `==` looks at integers or compares addresses. -/
theorem evalBinary_equal (hσ : σ.Represents s) (hx : σ.Holds a x) (hy : σ.Holds b y) :
    (evalBinary .equal a b σ).map Prod.fst = some (truth (x.equal y)) := by
  have hrel := follows_evalBinary .equal hx hy σ s .refl hσ
  rw [Monkey.evalBinary_equal.1] at hrel
  obtain ⟨⟨c, τ⟩, hτ, -, -, hc⟩ := exists_of_rel_some' hrel
  rw [hτ]
  exact congrArg some hc.eq_truth

/-- Memory holds what the programs have left in the store. -/
theorem History.represents (hhistory : History ps σ) (h : Monkey.History ps ms s) :
    σ.Represents s := by
  induction h generalizing σ with
  | start =>
      cases hhistory
      exact represents_fresh
  | @next ps ms s p depth v t _ heval ih =>
      cases hhistory with
      | @next _ σ _ depth' a _ hhistory hevaluate =>
          have hrel := follows_evaluate depth' p 0 σ s .refl (ih hhistory)
          rw [hevaluate] at hrel
          obtain ⟨⟨v', t'⟩, ht, -, hrep, -⟩ := exists_of_rel_some hrel
          obtain ⟨-, rfl⟩ := evaluate_unique heval ht
          exact hrep

/-- In memory the programs come to an end as well. -/
theorem exists_history (h : Monkey.History ps ms s) : ∃ σ, History ps σ := by
  induction h with
  | start => exact ⟨_, .start⟩
  | @next ps ms s p depth v t hhistory heval ih =>
      obtain ⟨σ, hσ⟩ := ih
      have hrel := follows_evaluate depth p 0 σ s .refl (hσ.represents hhistory)
      rw [heval] at hrel
      obtain ⟨⟨a, τ⟩, hτ, -⟩ := exists_of_rel_some' hrel
      exact ⟨τ, hσ.next hτ⟩

end Memory

/-! ## The laws -/

/-- `==` between three values, of which the functions were made by parts of the evaluations. -/
structure EqualityLaws (ms : List Moment) (x y z : Value) : Prop where
  equal : ∀ s, evalBinary .equal x y s = some (.bool (x.equal y), s)
  notEqual : ∀ s, evalBinary .notEqual x y s = some (.bool !x.equal y, s)
  refl : x.equal x
  symm : x.equal y → y.equal x
  trans : x.equal y → y.equal z → x.equal z
  type : x.equal y → x.type = y.type
  ints : ∀ i j m n, x = .int i m → y = .int j n → (x.equal y ↔ m = n)
  bools : ∀ a b, x = .bool a → y = .bool b → (x.equal y ↔ a = b)
  nulls : x = .null → y = .null → x.equal y
  functions : ∀ c d, x = .closure c → y = .closure d →
    (x.equal y ↔ ∃ l, PartOf ms l ∧ l.Makes c ∧ l.Makes d)
  origin : ∀ c, x = .closure c → ∃! l, PartOf ms l ∧ l.Makes c

variable {ps : List (Program Unit)} {ms : List Moment} {p : Program Unit}

/-- What a frame of the store sees is met. -/
theorem metIn_of_get? {i : FrameId} {m : String} (h : s.get? i m = some x) :
    MetIn (.ofProgram p s :: ms) x := by
  have hbound : s.Region (fun _ => True) (MetIn (.ofProgram p s :: ms)) :=
    ⟨fun _ _ => trivial, fun _ _ _ _ _ _ => trivial, fun i f b _ hf hb =>
      ⟨_, List.mem_cons_self, .bound (.start .refl) hf hb⟩⟩
  exact hbound.get? trivial h

/-- Two functions have the same number exactly if one evaluation has made them. -/
theorem History.id_eq_iff {c d : Closure} (h : History ps ms s)
    (hc : MetIn (.ofProgram p s :: ms) (.closure c))
    (hd : MetIn (.ofProgram p s :: ms) (.closure d)) :
    c.id = d.id ↔ ∃ l, PartOf (.ofProgram p s :: ms) l ∧ l.Makes c ∧ l.Makes d := by
  constructor
  · intro hid
    obtain ⟨l, hl, hmakes⟩ := h.exists_makes hc
    obtain ⟨l', hl', hmakes'⟩ := h.exists_makes hd
    cases h.eq_of_makes hl hl' hmakes hmakes' hid
    exact ⟨l, hl, hmakes, hmakes'⟩
  · rintro ⟨l, -, hmakes, hmakes'⟩
    rw [hmakes.unique hmakes']

theorem Value.type_eq_of_equal (h : x.equal y) : x.type = y.type := by
  have hkey := equal_iff_key_eq.mp h
  cases x <;> cases y <;> first | rfl | cases hkey

/-- Programs are run one after the other in a fresh environment, and one more is running. The
laws hold between all values that are met. In memory, the programs that have been run have
left one object for each truth value and one for `null`, and `==` answers the same there. -/
theorem History.equality_laws (h : History ps ms s) (p : Program Unit) :
    (∀ x y z, MetIn (.ofProgram p s :: ms) x → MetIn (.ofProgram p s :: ms) y →
      MetIn (.ofProgram p s :: ms) z → EqualityLaws (.ofProgram p s :: ms) x y z) ∧
    (∃ σ, Memory.History ps σ) ∧
    ∀ σ, Memory.History ps σ → σ.Represents s ∧
      ∀ a b x y, σ.Holds a x → σ.Holds b y →
        (Memory.evalBinary .equal a b σ).map Prod.fst = some (Memory.truth (x.equal y)) := by
  refine ⟨fun x y z hx hy hz => ?_, Memory.exists_history h, fun σ hσ => ?_⟩
  · constructor
    case equal => exact fun s => evalBinary_equal.1
    case notEqual => exact fun s => evalBinary_equal.2
    case refl => exact Value.equal_iff_key_eq.mpr rfl
    case symm =>
      intro hxy
      exact Value.equal_iff_key_eq.mpr (Value.equal_iff_key_eq.mp hxy).symm
    case trans =>
      intro hxy hyz
      have hkey := (Value.equal_iff_key_eq.mp hxy).trans (Value.equal_iff_key_eq.mp hyz)
      exact Value.equal_iff_key_eq.mpr hkey
    case type => exact Value.type_eq_of_equal
    case ints =>
      rintro i j m n rfl rfl
      exact decide_eq_true_iff
    case bools =>
      rintro a b rfl rfl
      exact decide_eq_true_iff
    case nulls =>
      rintro rfl rfl
      rfl
    case functions =>
      rintro c d rfl rfl
      exact decide_eq_true_iff.trans (h.id_eq_iff hx hy)
    case origin =>
      rintro c rfl
      exact h.existsUnique_makes hx
  · have hrep := hσ.represents h
    exact ⟨hrep, fun a b x y hx hy => Memory.evalBinary_equal hrep hx hy⟩

/-- `let f = fn(x) { fn() { x } }; let g = f(1); let h = g; let k = f(1);` -/
def makeTwice : Program Unit :=
  ⟨[.let_ () ⟨(), "f"⟩ (.function () [⟨(), "x"⟩] ⟨(),
      [.expr () (.function () [] ⟨(), [.expr () (.ident ⟨(), "x"⟩)]⟩)]⟩),
    .let_ () ⟨(), "g"⟩ (.call () (.ident ⟨(), "f"⟩) [.int () 1]),
    .let_ () ⟨(), "h"⟩ (.ident ⟨(), "g"⟩),
    .let_ () ⟨(), "k"⟩ (.call () (.ident ⟨(), "f"⟩) [.int () 1])]⟩

/-- The function `h` is the one that was passed on, `k` is another one that looks like it. -/
theorem passed_on_and_made_anew :
    ∃ s g h k, History [makeTwice] [.ofProgram makeTwice .single] s ∧
      s.get? 0 "g" = some (.closure g) ∧ s.get? 0 "h" = some (.closure h) ∧
      s.get? 0 "k" = some (.closure k) ∧
      (∃ l, PartOf [.ofProgram makeTwice s, .ofProgram makeTwice .single] l ∧
        l.Makes g ∧ l.Makes h) ∧
      ¬∃ l, PartOf [.ofProgram makeTwice s, .ofProgram makeTwice .single] l ∧
        l.Makes g ∧ l.Makes k := by
  have heval : (evaluate 1 makeTwice 0 .single).map (fun r =>
      ["g", "h", "k"].map fun m => (r.2.get? 0 m).map Value.key) =
        some [some (.closure 2), some (.closure 2), some (.closure 4)] := by
    decide +kernel
  obtain ⟨⟨v, s⟩, heval, hkeys⟩ := Option.map_eq_some_iff.mp heval
  have hfunction : ∀ m i, (s.get? 0 m).map Value.key = some (.closure i) →
      ∃ c, s.get? 0 m = some (.closure c) ∧ c.id = i := by
    intro m i h
    obtain ⟨x, hx, hkey⟩ := Option.map_eq_some_iff.mp h
    cases x with
    | closure c =>
        cases hkey
        exact ⟨c, hx, rfl⟩
    | _ => cases hkey
  injection hkeys with hg hkeys
  injection hkeys with hh hkeys
  injection hkeys with hk
  obtain ⟨g, hg, hgid⟩ := hfunction "g" 2 hg
  obtain ⟨h, hh, hhid⟩ := hfunction "h" 2 hh
  obtain ⟨k, hk, hkid⟩ := hfunction "k" 4 hk
  have hhistory : History [makeTwice] [.ofProgram makeTwice .single] s := .next .start heval
  obtain ⟨hlaws, -⟩ := hhistory.equality_laws makeTwice
  have hgh := hlaws _ _ _ (metIn_of_get? hg) (metIn_of_get? hh) (metIn_of_get? hh)
  have hgk := hlaws _ _ _ (metIn_of_get? hg) (metIn_of_get? hk) (metIn_of_get? hk)
  refine ⟨s, g, h, k, hhistory, hg, hh, hk, ?_, fun hsame => ?_⟩
  · exact (hgh.functions g h rfl rfl).mp (decide_eq_true (hgid.trans hhid.symm))
  · have hid := of_decide_eq_true ((hgk.functions g k rfl rfl).mpr hsame)
    rw [hgid, hkid] at hid
    cases hid

end Monkey
