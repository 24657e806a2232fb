import Monkey.Proofs.Cursor.Parser
import Monkey.Program.Parse.Equations

/-!
# What a moving cursor answers

A function of the parser is specified by the reply that is to be had from the tokens before it
(`Parsing.Answers`): it comes to an end, answers what the reply says, records its errors, and
leaves the cursor on the last token that the reply takes. The cursor is never moved back, and
the tokens that statements were started at lie one behind the other between the old place of the
cursor and the new one.

A loop is specified turn by turn (`Parser.Turns`). If a turn either leaves or has moved the cursor
on, the loop comes to an end (`Parsing.loop_answers`).
-/

namespace Monkey

variable {size : Nat} {α β γ σ : Type}

namespace Parser

variable {w w' w'' : Parser size} {before middle behind : List Token}
  {errors errors' : List SyntaxError} {reply : Reply β}

@[simp] theorem tokens_advance (w : Parser size) : w.advance.tokens = w.behind := rfl

@[simp] theorem tokens_start (w : Parser size) : w.start.tokens = w.tokens := rfl

@[simp] theorem length_behind (w : Parser size) : w.behind.length = w.tokens.length - 1 :=
  List.length_tail

theorem length_advance (w : Parser size) : w.advance.tokens.length = w.tokens.length - 1 :=
  w.length_behind

/-- With its tokens in hand, the cursor is on the first one. -/
theorem current_of_tokens {t : Token} {ts : List Token} (h : w.tokens = t :: ts) :
    w.current = t ∧ w.behind = ts := by
  simp [current, Parser.behind, h]

/-- At the end of the input there is no token left. -/
theorem current_of_nil (h : w.tokens = []) : w.current = .eof size ∧ w.behind = [] := by
  simp [current, Parser.behind, h]

theorem tokens_eq_nil (h : w.current.kind = .eof) : w.tokens = [] := by
  cases htokens : w.tokens with
  | nil => rfl
  | cons t ts =>
      rw [(current_of_tokens htokens).1] at h
      exact absurd h (w.kind_ne_eof t (by simp [htokens]))

theorem next_of_behind {t : Token} {ts : List Token} (h : w.behind = t :: ts) :
    w.next = t ∧ w.advance.current = t ∧ w.advance.behind = ts := by
  refine ⟨by simp [next, h], ?_⟩
  exact current_of_tokens (by rw [tokens_advance, h])

theorem next_of_behind_nil (h : w.behind = []) : w.next = .eof size := by
  simp [next, h]

theorem exists_behind (h : w.next.kind ≠ .eof) : ∃ ts, w.behind = w.next :: ts := by
  cases hb : w.behind with
  | nil => exact absurd (congrArg Token.kind (next_of_behind_nil hb)) h
  | cons t ts => exact ⟨ts, by rw [(next_of_behind hb).1]⟩

theorem behind_lt_of_le {n : Nat} (hle : w'.tokens.length ≤ w.tokens.length)
    (h : w.behind.length < n) : w'.behind.length < n := by
  rw [length_behind] at h ⊢
  omega

theorem length_le_of_behind_lt {n : Nat} (h : w.behind.length < n) : w.tokens.length ≤ n := by
  rw [length_behind] at h
  omega

theorem one_lt_length {t : Token} {ts : List Token} (h : w.behind = t :: ts) :
    1 < w.tokens.length := by
  have hlen := w.length_behind
  rw [h, List.length_cons] at hlen
  omega

theorem behind_suffix (w : Parser size) : w.behind <:+ w.tokens :=
  List.tail_suffix w.tokens

/-- From `w` to `w'` these errors are recorded, and the cursor is not moved back. The tokens that
statements were started at and those that are left lie one behind the other. -/
structure Leads (w : Parser size) (before behind : List Token) (errors : List SyntaxError)
    (w' : Parser size) : Prop where
  errors_eq : w'.errors = w.errors ++ errors
  suffix : w'.tokens <:+ w.tokens
  started : ∃ new, w'.started = w.started ++ new ∧ (new ++ behind).Sublist before

theorem Leads.refl (w : Parser size) : w.Leads before before [] w :=
  ⟨by simp, List.suffix_refl _, [], by simp, by simp⟩

theorem Leads.trans (h : w.Leads before middle errors w')
    (h' : w'.Leads middle behind errors' w'') :
    w.Leads before behind (errors ++ errors') w'' := by
  obtain ⟨new, hnew, hsub⟩ := h.started
  obtain ⟨new', hnew', hsub'⟩ := h'.started
  refine ⟨?_, h'.suffix.trans h.suffix, new ++ new', ?_, ?_⟩
  · rw [h'.errors_eq, h.errors_eq, List.append_assoc]
  · rw [hnew', hnew, List.append_assoc]
  · rw [List.append_assoc]
    exact ((List.Sublist.refl new).append hsub').trans hsub

theorem Leads.record (w : Parser size) {error : SyntaxError} :
    w.Leads before before [error] (w.record error) :=
  ⟨rfl, List.suffix_refl _, [], by simp [Parser.record], by simp⟩

theorem Leads.mono {before' : List Token} (h : w.Leads before behind errors w')
    (hsub : before.Sublist before') : w.Leads before' behind errors w' :=
  let ⟨new, hnew, hsub'⟩ := h.started
  ⟨h.errors_eq, h.suffix, new, hnew, hsub'.trans hsub⟩

theorem Leads.of_advance (h : w.advance.Leads before behind errors w') :
    w.Leads before behind errors w' :=
  ⟨h.errors_eq, h.suffix.trans w.behind_suffix, h.started⟩

theorem Leads.of_start (htokens : w.tokens ≠ []) (h : w.start.Leads w.behind behind errors w') :
    w.Leads w.tokens behind errors w' := by
  obtain ⟨t, ts, hts⟩ := List.exists_cons_of_ne_nil htokens
  obtain ⟨hcurrent, hbehind⟩ := current_of_tokens hts
  obtain ⟨new, hnew, hsub⟩ := h.started
  refine ⟨h.errors_eq, h.suffix, w.current :: new, ?_, ?_⟩
  · rw [hnew, start, List.append_assoc, List.singleton_append]
  · rw [hts, ← hbehind, ← hcurrent]
    exact hsub.cons_cons w.current

/-- The token that the cursor is moved past is not one that a statement was started at. -/
theorem Leads.skip (h : w.Leads before w'.behind errors w') :
    w.Leads before w'.advance.behind errors w'.advance :=
  let ⟨new, hnew, hsub⟩ := h.started
  ⟨h.errors_eq, w'.behind_suffix.trans h.suffix, new, hnew,
    ((List.Sublist.refl new).append (List.tail_sublist _)).trans hsub⟩

/-- A statement may be started at the token that the cursor is moved to. -/
theorem Leads.move (h : w.Leads before w'.behind errors w') :
    w.Leads before w'.advance.tokens errors w'.advance :=
  ⟨h.errors_eq, w'.behind_suffix.trans h.suffix, h.started⟩

theorem Leads.length_le (h : w.Leads before behind errors w') :
    w'.tokens.length ≤ w.tokens.length :=
  h.suffix.length_le

/-- From `w` to `w'` the parser does what the reply says. -/
structure Reaches (w : Parser size) (before : List Token) (reply : Reply β)
    (w' : Parser size) : Prop where
  leads : w.Leads before reply.rest reply.errors w'
  current_eq : w'.current = reply.last
  behind_eq : w'.behind = reply.rest

theorem Reaches.mono {before' : List Token} (h : w.Reaches before reply w')
    (hsub : before.Sublist before') : w.Reaches before' reply w' :=
  ⟨h.leads.mono hsub, h.current_eq, h.behind_eq⟩

end Parser

/-- The token that is expected is the last one taken. -/
theorem Parse.last_of_expect {eof last t : Token} {kind : Kind} {ts : List Token}
    (h : (expect eof kind last ts).1.result? = some t) : (expect eof kind last ts).1.last = t := by
  cases ts with
  | nil => cases h
  | cons u us =>
      rw [expect_cons] at h ⊢
      split at h
      next hk =>
        rw [if_pos hk]
        exact Option.some.inj h
      next => cases h

namespace Parsing

variable {w w' : Parser size} {t : Token} {ts before : List Token} {reply : Reply β}
  {P Q : α → Parser size → Prop}

/-- The function comes to an end, and what it answers and where has the property. -/
def Ends (x : Parsing size α) (w : Parser size) (P : α → Parser size → Prop) : Prop :=
  ∃ a w', x.run w = some (a, w') ∧ P a w'

theorem ends_pure {a : α} (h : P a w) : (pure a : Parsing size α).Ends w P :=
  ⟨a, w, rfl, h⟩

theorem Ends.bind {x : Parsing size α} {f : α → Parsing size β} {Q : β → Parser size → Prop}
    (hx : x.Ends w P) (hf : ∀ a w', P a w' → (f a).Ends w' Q) : (x >>= f).Ends w Q := by
  obtain ⟨a, w', hrun, ha⟩ := hx
  obtain ⟨b, w'', hrun', hb⟩ := hf a w' ha
  refine ⟨b, w'', ?_, hb⟩
  rw [StateT.run_bind, hrun]
  exact hrun'

theorem Ends.mono {x : Parsing size α} (hx : x.Ends w P) (h : ∀ a w', P a w' → Q a w') :
    x.Ends w Q :=
  let ⟨a, w', hrun, ha⟩ := hx
  ⟨a, w', hrun, h a w' ha⟩

theorem ends_current {f : Token → Parsing size α} :
    (current >>= f).Ends w P ↔ (f w.current).Ends w P := Iff.rfl

theorem ends_next {f : Token → Parsing size α} :
    (next >>= f).Ends w P ↔ (f w.next).Ends w P := Iff.rfl

theorem ends_advance {f : Unit → Parsing size α} :
    (advance >>= f).Ends w P ↔ (f ()).Ends w.advance P := Iff.rfl

theorem ends_modify {f : Unit → Parsing size α} {g : Parser size → Parser size} :
    ((modify g : Parsing size PUnit) >>= f).Ends w P ↔ (f ()).Ends (g w) P := Iff.rfl

/-- The function comes to an end, and does what the reply says. -/
def Answers (x : Parsing size (Option β)) (w : Parser size) (before : List Token)
    (reply : Reply β) : Prop :=
  x.Ends w fun r w' => r = reply.result? ∧ w.Reaches before reply w'

theorem answers_current {f : Token → Parsing size (Option β)} :
    (current >>= f).Answers w before reply ↔ (f w.current).Answers w before reply := Iff.rfl

theorem answers_next {f : Token → Parsing size (Option β)} :
    (next >>= f).Answers w before reply ↔ (f w.next).Answers w before reply := Iff.rfl

theorem answers_pure {b : β} (h : w.behind = ts) :
    (pure (some b) : Parsing size _).Answers w ts (.done b w.current ts) :=
  ends_pure ⟨rfl, .refl w, rfl, h⟩

theorem answers_fail {error : SyntaxError} (h : w.behind = ts) :
    (fail error : Parsing size (Option β)).Answers w ts (.giveUp error w.current ts) :=
  ⟨none, w.record error, rfl, rfl, .record w, rfl, h⟩

theorem Answers.mono {x : Parsing size (Option β)} {before' : List Token}
    (h : x.Answers w before reply) (hsub : before.Sublist before') : x.Answers w before' reply :=
  Ends.mono h fun _ _ ⟨hr, h⟩ => ⟨hr, h.mono hsub⟩

/-- Nothing is started at the token that the cursor is on. -/
theorem Answers.behind {x : Parsing size (Option β)} (h : x.Answers w w.behind reply) :
    x.Answers w w.tokens reply :=
  h.mono (List.tail_sublist w.tokens)

theorem Answers.advance {f : Unit → Parsing size (Option β)}
    (h : (f ()).Answers w.advance before reply) : (advance >>= f).Answers w before reply :=
  Ends.mono h fun _ _ ⟨hr, h⟩ => ⟨hr, h.leads.of_advance, h.current_eq, h.behind_eq⟩

/-- A statement is started at the token that the cursor is on. -/
theorem Answers.start {f : PUnit → Parsing size (Option β)} (htokens : w.tokens ≠ [])
    (h : (f ()).Answers w.start w.behind reply) :
    ((modify Parser.start : Parsing size PUnit) >>= f).Answers w w.tokens reply :=
  Ends.mono h fun _ _ ⟨hr, h⟩ => ⟨hr, h.leads.of_start htokens, h.current_eq, h.behind_eq⟩

/-- The reply that is missing, behind errors that are recorded already. -/
theorem Answers.after {x : Parsing size (Option β)} {errors : List SyntaxError}
    {middle : List Token} (h : x.Answers w' middle reply)
    (hleads : w.Leads before middle errors w') :
    x.Ends w' fun r w'' => r = (reply.after errors).result? ∧
      w.Reaches before (reply.after errors) w'' :=
  Ends.mono h fun _ _ ⟨hr, h⟩ => ⟨hr, hleads.trans h.leads, h.current_eq, h.behind_eq⟩

/-- Go on behind a result; giving up is final. -/
theorem Answers.andThen {x : Parsing size (Option β)} {f : Option β → Parsing size (Option γ)}
    {g : β → Token → List Token → Reply γ} (hx : x.Answers w before reply)
    (hnone : f none = pure none)
    (hsome : ∀ b w', reply.result? = some b → w.Reaches before reply w' →
      (f (some b)).Answers w' w'.behind (g b w'.current w'.behind)) :
    (x >>= f).Answers w before (reply.andThen g) := by
  refine Ends.bind hx fun r w' ⟨hr, h⟩ => ?_
  cases hb : reply.result? with
  | none =>
      rw [hr, hb, hnone, Reply.andThen_of_none hb]
      exact ends_pure ⟨rfl, h.leads, h.current_eq, h.behind_eq⟩
  | some b =>
      rw [hr, hb, Reply.andThen_eq_after hb, ← h.current_eq, ← h.behind_eq]
      exact (hsome b w' hb h).after (h.behind_eq ▸ h.leads)

/-! ## Single tokens and parameters -/

/-- A result behind the next token. -/
theorem answers_taken {b : β} (h : w.behind = t :: ts) :
    (advance >>= fun _ => pure (some b) : Parsing size _).Answers w (t :: ts) (.done b t ts) := by
  obtain ⟨-, hcurrent, hbehind⟩ := Parser.next_of_behind h
  rw [← hcurrent]
  exact Answers.advance ((answers_pure hbehind).mono (List.sublist_cons_self _ ts))

theorem expectNext_answers {kind : Kind} (hkind : kind ≠ .eof) :
    (expectNext kind).Answers w w.behind (Parse.expect (.eof size) kind w.current w.behind).1 := by
  rw [expectNext, answers_next]
  cases hb : w.behind with
  | nil =>
      have hne : (Token.eof size).kind ≠ kind := Ne.symm hkind
      rw [Parser.next_of_behind_nil hb, if_neg hne]
      exact answers_fail hb
  | cons t ts =>
      rw [(Parser.next_of_behind hb).1, Parse.expect_cons]
      split
      next => exact answers_taken hb
      next => exact answers_fail hb

/-- Go on behind a mark that has to follow, with the cursor on it. -/
theorem answers_expectNext {kind : Kind} {f : Option Token → Parsing size (Option β)}
    {g : Token → Token → List Token → Reply β} (hkind : kind ≠ .eof) (hnone : f none = pure none)
    (hsome : ∀ w', w'.tokens.length ≤ w.tokens.length →
      (f (some w'.current)).Answers w' w'.behind (g w'.current w'.current w'.behind)) :
    (expectNext kind >>= f).Answers w w.behind
      ((Parse.expect (.eof size) kind w.current w.behind).1.andThen g) := by
  refine (expectNext_answers hkind).andThen hnone fun b w' hb h => ?_
  have hcurrent := h.current_eq
  rw [Parse.last_of_expect hb] at hcurrent
  rw [← hcurrent]
  exact hsome w' h.leads.length_le

theorem finish_answers {s : Stmt Token} :
    (skipSemicolon >>= fun _ => pure (some s) : Parsing size _).Answers w w.behind
      (Parse.finish s w.current w.behind).1 := by
  rw [skipSemicolon, bind_assoc, answers_next]
  cases hb : w.behind with
  | nil =>
      have hne : (Token.eof size).kind ≠ .semicolon := nofun
      rw [Parser.next_of_behind_nil hb, if_neg hne, pure_bind]
      exact answers_pure hb
  | cons t ts =>
      rw [(Parser.next_of_behind hb).1, Parse.finish_cons]
      split
      next => exact answers_taken hb
      next =>
        rw [pure_bind]
        exact answers_pure hb

theorem closeWith_answers {kind : Kind} {b : β} (hkind : kind ≠ .eof) :
    (closeWith kind b).Answers w w.behind
      ((Parse.expect (.eof size) kind w.current w.behind).1.andThen fun _ last rest =>
        .done b last rest) :=
  answers_expectNext hkind rfl fun _ _ => answers_pure rfl

/-! ## Loops -/

end Parsing

/-- How a turn of a loop ends, in view of the reply that the loop is to give from here on. It has
given up, or the loop is left, and what comes after it does what is missing of the reply. Or else
the cursor is moved on, and the next turns do. -/
inductive Parser.Turns (before : Parser size → List Token) (reply : σ → Parser size → Reply β)
    (after : σ → Parsing size (Option β)) (s : σ) (w : Parser size) :
    Option (Turn σ) → Parser size → Prop where
  | giveUp {w' : Parser size} (hreply : (reply s w).result? = none)
      (h : w.Reaches (before w) (reply s w) w') : Turns before reply after s w none w'
  | leave {w' : Parser size} {s' : σ} {errors : List SyntaxError} {missing : Reply β}
      (hreply : reply s w = missing.after errors) (h : w.Leads (before w) w'.behind errors w')
      (hafter : (after s').Answers w' w'.behind missing) :
      Turns before reply after s w (some (.leave s')) w'
  | again {w' : Parser size} {s' : σ} {errors : List SyntaxError}
      (hreply : reply s w = (reply s' w').after errors)
      (h : w.Leads (before w) (before w') errors w')
      (hlen : w'.tokens.length < w.tokens.length) :
      Turns before reply after s w (some (.again s')) w'

namespace Parsing

variable {before : Parser size → List Token} {reply : σ → Parser size → Reply β}
  {turn : σ → Parsing size (Option (Turn σ))} {after : σ → Parsing size (Option β)}

/-- The loop is left with what it has, and there was nothing more to read. -/
theorem ends_leave {s : σ} {f : σ → β} (hreply : reply s w = .done (f s) w.current w.behind)
    (hbefore : w.behind.Sublist (before w)) :
    (pure (some (.leave s)) : Parsing size (Option (Turn σ))).Ends w
      (w.Turns before reply (fun s => pure (some (f s))) s) := by
  have hleads := (Parser.Leads.refl w).mono hbefore
  rw [← Reply.after_nil (.done (f s) w.current w.behind)] at hreply
  exact ends_pure (.leave hreply hleads (answers_pure rfl))

/-- A turn gives up where a part of it does, and goes on behind it otherwise. -/
theorem Ends.turns {x : Parsing size (Option γ)} {f : Option γ → Parsing size (Option (Turn σ))}
    {part : Reply γ} {g : γ → Token → List Token → Reply β} {middle : List Token} {s : σ}
    (hstart : w.Leads (before w) middle [] w') (hx : x.Answers w' middle part)
    (hnone : f none = pure none) (hreply : reply s w = part.andThen g)
    (hsome : ∀ c w'', reply s w = (g c w''.current w''.behind).after part.errors →
      w.Leads (before w) w''.behind part.errors w'' → w''.tokens.length ≤ w'.tokens.length →
      (f (some c)).Ends w'' (w.Turns before reply after s)) :
    (x >>= f).Ends w' (w.Turns before reply after s) := by
  refine Ends.bind hx fun r w'' ⟨hr, h⟩ => ?_
  have hleads := hstart.trans h.leads
  rw [List.nil_append] at hleads
  cases hc : part.result? with
  | none =>
      rw [Reply.andThen_of_none hc] at hreply
      rw [hr, hc, hnone]
      refine ends_pure (.giveUp ?_ ?_)
      · rw [hreply]
      · rw [hreply]
        exact ⟨hleads, h.current_eq, h.behind_eq⟩
  | some c =>
      rw [Reply.andThen_eq_after hc, ← h.current_eq, ← h.behind_eq] at hreply
      rw [hr, hc]
      exact hsome c w'' hreply (h.behind_eq ▸ hleads) h.leads.length_le

/-- A loop comes to an end, as the cursor is moved on from turn to turn. -/
theorem loop_answers {turns : Nat} (s : σ) (w : Parser size)
    (hturn : ∀ s' w', w'.tokens.length ≤ w.tokens.length →
      (turn s').Ends w' (w'.Turns before reply after s'))
    (hturns : w.tokens.length < turns) :
    (loop turn after turns s).Answers w (before w) (reply s w) := by
  induction turns generalizing s w with
  | zero => exact absurd hturns (Nat.not_lt_zero _)
  | succ turns ih =>
      refine Ends.bind (hturn s w (Nat.le_refl _)) fun r w' h => ?_
      cases h with
      | giveUp hreply h => exact ends_pure ⟨hreply.symm, h⟩
      | leave hreply h hafter =>
          rw [hreply]
          exact hafter.after h
      | again hreply h hlen =>
          -- one turn less, and at least one token less
          rw [hreply]
          refine Answers.after (ih _ _ (fun s' w'' hle => hturn s' w'' ?_) ?_) h
          · exact Nat.le_trans hle (Nat.le_of_lt hlen)
          · exact Nat.lt_of_lt_of_le hlen (Nat.le_of_lt_succ hturns)

end Parsing

end Monkey
