import InkGauge.Proofs.Peg.Total

/-!
`Reads p s t Q` says that `p` reads exactly the text `s` where `t` follows it, and that its value
satisfies `Q`; `Refuses p t` says that `p` is refused before `t`. There is a lemma for each way to
put expressions together.

Most refusals are seen from the start of the text alone. What may stand there is a `Look`, and
`Expression.fate` works out from it whether an expression is certainly refused.
-/

namespace InkGauge.Peg

variable {T R : Type} {V : R → Type} {α β γ : Type}

/-- The reply of an expression in a grammar. -/
def Grammar.read (g : Grammar T R V) (p : Expression T R V α) (k : Cursor) : Reply α :=
  p.answer g.scan g.reply k

def Grammar.Reads (g : Grammar T R V) (p : Expression T R V α) (s t : List Char) (Q : α → Prop) :
    Prop :=
  ∀ k : Cursor, k.rest = s ++ t → ∃ a, g.read p k = .matched a (k.advance s.length) ∧ Q a

def Grammar.Refuses (g : Grammar T R V) (p : Expression T R V α) (t : List Char) : Prop :=
  ∀ k : Cursor, k.rest = t → g.read p k = .refused

/-- A repetition of `p` reads `s`, whatever it has found before and however many rounds more than
enough it may take. -/
def Grammar.ReadsMany (g : Grammar T R V) (p : Expression T R V α) (s t : List Char)
    (Q : List α → Prop) : Prop :=
  ∀ (k : Cursor) (n : Nat) (found : List α), k.rest = s ++ t → k.rest.length ≤ n →
    ∃ as, Reply.repeated (g.read p) n found k
      = .matched (found.reverse ++ as) (k.advance s.length) ∧ Q as

namespace Grammar

variable {g : Grammar T R V} {p : Expression T R V α} {q : Expression T R V β} {s u t : List Char}
  {Q : α → Prop} {Q' : β → Prop}

theorem rest_advance_of_append {k : Cursor} (h : k.rest = s ++ t) : (k.advance s.length).rest = t := by
  rw [Cursor.rest_advance, h, List.drop_left]

theorem Reads.imp {Q' : α → Prop} (h : g.Reads p s t Q) (hq : ∀ a, Q a → Q' a) :
    g.Reads p s t Q' := by
  intro k hk
  obtain ⟨a, ha, hQ⟩ := h k hk
  exact ⟨a, ha, hq a hQ⟩

theorem reads_text (s t : List Char) : g.Reads (.text s) s t fun _ => True := by
  intro k hk
  have hs : Text.startsWith s k.rest = true := by
    rw [hk, Text.startsWith_iff]
    exact List.prefix_append s t
  exact ⟨(), Expression.answer_text.2 ⟨hs, rfl⟩, trivial⟩

theorem reads_symbol {table : List (Symbol α)} {a : α}
    (h : firstSymbol table (s ++ t) = some (s.length, a)) :
    g.Reads (.symbol table) s t (· = a) := by
  intro k hk
  exact ⟨a, Expression.answer_symbol.2 ⟨s.length, by rw [hk]; exact h, rfl⟩, rfl⟩

theorem reads_token {x : T} (h : g.scan x (s ++ t) = some s.length) :
    g.Reads (.token x) s t fun _ => True := by
  intro k hk
  exact ⟨(), Expression.answer_token.2 ⟨s.length, by rw [hk]; exact h, rfl⟩, trivial⟩

theorem Reads.both (hp : g.Reads p s (u ++ t) Q) (hq : g.Reads q u t Q') :
    g.Reads (p.both q) (s ++ u) t fun x => Q x.1 ∧ Q' x.2 := by
  intro k hk
  rw [List.append_assoc] at hk
  obtain ⟨a, ha, hQ⟩ := hp k hk
  obtain ⟨b, hb, hQ'⟩ := hq _ (rest_advance_of_append hk)
  refine ⟨(a, b), Expression.answer_both.2 ⟨_, ha, ?_⟩, hQ, hQ'⟩
  rw [List.length_append, ← Cursor.advance_advance]
  exact hb

theorem Reads.orElse {p' : Expression T R V α} (h : g.Reads p s t Q) : g.Reads
    (p <|> p') s t Q := by
  intro k hk
  obtain ⟨a, ha, hQ⟩ := h k hk
  exact ⟨a, Expression.answer_either.2 (.inl ha), hQ⟩

theorem Reads.orElse_right {p' : Expression T R V α} (hp : g.Refuses p (s ++ t))
    (h : g.Reads p' s t Q) : g.Reads (p <|> p') s t Q := by
  intro k hk
  obtain ⟨a, ha, hQ⟩ := h k hk
  exact ⟨a, Expression.answer_either.2 (.inr ⟨hp k hk, ha⟩), hQ⟩

theorem Reads.act {f : Slice → α → β}
    (h : g.Reads p s t fun a => ∀ x : Slice, x.chars = s → Q' (f x a)) :
    g.Reads (.act f p) s t Q' := by
  intro k hk
  obtain ⟨a, ha, hQ⟩ := h k hk
  refine ⟨_, Expression.answer_act.2 ⟨a, ha, rfl⟩, hQ _ ?_⟩
  have hlen : s.length ≤ k.rest.length := by
    rw [hk, List.length_append]
    omega
  rw [Slice.chars, Cursor.offset_advance hlen, Nat.add_sub_cancel_left, hk, List.take_left]

theorem Reads.map (f : α → β) (h : g.Reads p s t Q) :
    g.Reads (f <$> p) s t fun b => ∃ a, Q a ∧ b = f a :=
  Reads.act (h.imp fun a hQ _ _ => ⟨a, hQ, rfl⟩)

theorem Reads.seqRight (hp : g.Reads p s (u ++ t) Q) (hq : g.Reads q u t Q') :
    g.Reads (p *> q) (s ++ u) t Q' :=
  Reads.act ((hp.both hq).imp fun _ hQ _ _ => hQ.2)

theorem Reads.seqLeft (hp : g.Reads p s (u ++ t) Q) (hq : g.Reads q u t Q') :
    g.Reads (p <* q) (s ++ u) t Q :=
  Reads.act ((hp.both hq).imp fun _ hQ _ _ => hQ.1)

theorem Reads.seq {p : Expression T R V (α → β)} {q : Expression T R V α} {P : (α → β) → Prop}
    (hp : g.Reads p s (u ++ t) P) (hq : g.Reads q u t Q) :
    g.Reads (p <*> q) (s ++ u) t fun b => ∃ f a, P f ∧ Q a ∧ b = f a :=
  Reads.act ((hp.both hq).imp fun x hQ _ _ => ⟨x.1, x.2, hQ.1, hQ.2, rfl⟩)

theorem Reads.map₂ (f : α → β → γ) (hp : g.Reads p s (u ++ t) Q) (hq : g.Reads q u t Q') :
    g.Reads (f <$> p <*> q) (s ++ u) t fun c => ∃ a b, Q a ∧ Q' b ∧ c = f a b := by
  refine ((hp.map f).seq hq).imp ?_
  rintro _ ⟨_, b, ⟨a, ha, rfl⟩, hb, rfl⟩
  exact ⟨a, b, ha, hb, rfl⟩

theorem Reads.option (h : g.Reads p s t Q) (hne : s ≠ []) :
    g.Reads p.option s t fun o => ∃ a, o = some a ∧ Q a := by
  intro k hk
  obtain ⟨a, ha, hQ⟩ := h k hk
  refine ⟨some a, ?_, a, rfl, hQ⟩
  have hend : k.atEnd = false := by
    cases s with
    | nil => exact absurd rfl hne
    | cons c s => simp [Cursor.atEnd, hk]
  have ha' : p.answer g.scan g.reply k = .matched a (k.advance s.length) := ha
  rw [read, Expression.answer, hend, ha']
  rfl

theorem Refuses.option (h : g.Refuses p t) : g.Reads p.option [] t (· = none) := by
  intro k hk
  refine ⟨none, ?_, rfl⟩
  have hp : p.answer g.scan g.reply k = .refused := h k hk
  rw [read, Expression.answer, hp]
  split <;> rfl

theorem Refuses.absent (h : g.Refuses p t) : g.Reads p.absent [] t fun _ => True := by
  intro k hk
  exact ⟨(), Expression.answer_absent.2 ⟨h k hk, rfl⟩, trivial⟩

theorem ReadsMany.imp {Q Q' : List α → Prop} (h : g.ReadsMany p s t Q) (hq : ∀ as, Q as → Q' as) :
    g.ReadsMany p s t Q' := by
  intro k n found hk hn
  obtain ⟨as, has, hQ⟩ := h k n found hk hn
  exact ⟨as, has, hq as hQ⟩

theorem ReadsMany.stop (h : g.Refuses p t ∨ t = []) : g.ReadsMany p [] t (· = []) := by
  intro k n found hk _
  refine ⟨[], ?_, rfl⟩
  rw [List.append_nil]
  cases n with
  | zero => rfl
  | succ n =>
    rw [Reply.repeated]
    split
    · rfl
    · rename_i hend
      rcases h with h | h
      · rw [h k hk]
        rfl
      · exact absurd (by rw [Cursor.atEnd, hk, h]; rfl) hend

theorem ReadsMany.step {Q' : List α → Prop} (hp : g.Reads p s (u ++ t) Q) (hne : s ≠ [])
    (h : g.ReadsMany p u t Q') :
    g.ReadsMany p (s ++ u) t fun as => ∃ a as', as = a :: as' ∧ Q a ∧ Q' as' := by
  intro k n found hk hn
  rw [List.append_assoc] at hk
  obtain ⟨a, ha, hQ⟩ := hp k hk
  have hpos := List.length_pos_iff.2 hne
  have hlen : k.rest.length = s.length + (u ++ t).length := by rw [hk, List.length_append]
  have hrest := rest_advance_of_append hk
  have hoffset : (k.advance s.length).offset ≠ k.offset := by
    rw [Cursor.offset_advance (by omega)]
    omega
  obtain ⟨n, rfl⟩ : ∃ m, n = m + 1 := ⟨n - 1, by omega⟩
  obtain ⟨as, has, hQ'⟩ := h (k.advance s.length) n (a :: found) hrest (by rw [hrest]; omega)
  refine ⟨a :: as, ?_, a, as, rfl, hQ, hQ'⟩
  have hend : k.atEnd = false := by
    rw [Cursor.atEnd, List.isEmpty_eq_false_iff]
    exact List.ne_nil_of_length_pos (by omega)
  rw [Reply.repeated, hend, ha, List.length_append, ← Cursor.advance_advance]
  simp only [Bool.false_eq_true, if_false, Reply.cases, hoffset]
  rw [has]
  simp

theorem ReadsMany.many {Q : List α → Prop} (h : g.ReadsMany p s t Q) : g.Reads p.many s t Q := by
  intro k hk
  obtain ⟨as, has, hQ⟩ := h k k.rest.length [] hk (Nat.le_refl _)
  exact ⟨as, has, hQ⟩

theorem Refuses.many (h : g.Refuses p t) : g.Reads p.many [] t (· = []) :=
  (ReadsMany.stop (.inl h)).many

theorem refuses_text (h : ¬s <+: t) : g.Refuses (.text s) t := by
  intro k hk
  have hno : Text.startsWith s k.rest = false :=
    Bool.eq_false_iff.2 fun hs => h (hk ▸ (Text.startsWith_iff _ _).1 hs)
  change (if Text.startsWith s k.rest then _ else _) = _
  rw [hno]
  rfl

theorem refuses_symbol {table : List (Symbol α)} (h : firstSymbol table t = none) :
    g.Refuses (.symbol table) t := by
  intro k hk
  rw [read, Expression.answer, hk, h]

theorem refuses_token {x : T} (h : g.scan x t = none) : g.Refuses (.token x) t := by
  intro k hk
  rw [read, Expression.answer, hk, h]

theorem Refuses.both (h : g.Refuses p t) : g.Refuses (p.both q) t := by
  intro k hk
  have hp : p.answer g.scan g.reply k = .refused := h k hk
  rw [read, Expression.answer, hp]
  rfl

theorem Reads.both_refuses (hp : g.Reads p s t Q) (hq : g.Refuses q t) :
    g.Refuses (p.both q) (s ++ t) := by
  intro k hk
  obtain ⟨a, ha, _⟩ := hp k hk
  have ha' : p.answer g.scan g.reply k = .matched a (k.advance s.length) := ha
  have hb : q.answer g.scan g.reply (k.advance s.length) = .refused :=
    hq _ (rest_advance_of_append hk)
  rw [read, Expression.answer, ha']
  simp only [Reply.bind, hb]

theorem Refuses.act {f : Slice → α → β} (h : g.Refuses p t) : g.Refuses (.act f p) t := by
  intro k hk
  have hp : p.answer g.scan g.reply k = .refused := h k hk
  rw [read, Expression.answer, hp]
  rfl

theorem Refuses.map {f : α → β} (h : g.Refuses p t) : g.Refuses (f <$> p) t := h.act

theorem Refuses.seqRight (h : g.Refuses p t) : g.Refuses (p *> q) t := h.both.act

theorem Refuses.seqLeft (h : g.Refuses p t) : g.Refuses (p <* q) t := h.both.act

theorem Reads.seqRight_refuses (hp : g.Reads p s t Q) (hq : g.Refuses q t) :
    g.Refuses (p *> q) (s ++ t) := (hp.both_refuses hq).act

theorem Reads.seqLeft_refuses (hp : g.Reads p s t Q) (hq : g.Refuses q t) :
    g.Refuses (p <* q) (s ++ t) := (hp.both_refuses hq).act

theorem Reads.seq_refuses {p : Expression T R V (α → β)} {q : Expression T R V α}
    {P : (α → β) → Prop}
    (hp : g.Reads p s t P) (hq : g.Refuses q t) : g.Refuses (p <*> q) (s ++ t) :=
  (hp.both_refuses hq).act

theorem Refuses.seq {p : Expression T R V (α → β)} {q : Expression T R V α} (h : g.Refuses p t) :
    g.Refuses (p <*> q) t := h.both.act

theorem Refuses.orElse {p' : Expression T R V α} (h : g.Refuses p t) (h' : g.Refuses p' t) :
    g.Refuses (p <|> p') t := by
  intro k hk
  have hp : p.answer g.scan g.reply k = .refused := h k hk
  have hp' : p'.answer g.scan g.reply k = .refused := h' k hk
  change (p.answer g.scan g.reply k).cases _ (p'.answer g.scan g.reply k) = _
  rw [hp, hp']
  rfl

end Grammar

section Rules

variable {g : Grammar T R V} {token : T → Bool} {rule : R → Bool} {rank : R → Nat}

theorem Grammar.Total.reads_rule (hg : g.Total token rule rank) {r : R} {s t : List Char}
    {Q : V r → Prop} (h : g.Reads (g.body r) s t Q) : g.Reads (.rule r) s t Q := by
  intro k hk
  obtain ⟨a, ha, hQ⟩ := h k hk
  exact ⟨a, (hg.reply_eq r k).trans ha, hQ⟩

theorem Grammar.Total.refuses_rule (hg : g.Total token rule rank) {r : R} {t : List Char}
    (h : g.Refuses (g.body r) t) : g.Refuses (.rule r) t :=
  fun k hk => (hg.reply_eq r k).trans (h k hk)

end Rules

/-- What may stand at the start of a text: fixed texts and tokens. -/
structure Look (T : Type) where
  text : List Char → Bool
  token : T → Bool

/-- Everything that stands at the start of `t` is among what may. -/
structure Look.Sound (L : Look T) (scan : T → List Char → Option Nat) (t : List Char) : Prop where
  ne_nil : t ≠ []
  text : ∀ x, x <+: t → L.text x = true
  token : ∀ x n, scan x t = some n → L.token x = true

/-- What is known of trying an expression at a place. -/
inductive Fate where
  | refused
  /-- It matches and reads nothing. -/
  | idle
  | unknown
  deriving DecidableEq

/-- What becomes of an expression at a place, given what becomes of the rules. -/
def Expression.fate (L : Look T) (call : R → Fate) : {α : Type} → Expression T R V α → Fate
  | _, .text s => if L.text s then .unknown else .refused
  | _, .symbol table => if table.any fun x => L.text x.spelling then .unknown else .refused
  | _, .token x => if L.token x then .unknown else .refused
  | _, .rule r => call r
  | _, .both p q =>
    match p.fate L call with
    | .refused => .refused
    | .idle => q.fate L call
    | .unknown => .unknown
  | _, .either p q =>
    match p.fate L call with
    | .refused => q.fate L call
    | .idle => .idle
    | .unknown => .unknown
  | _, .option p | _, .many p =>
    match p.fate L call with
    | .unknown => .unknown
    | _ => .idle
  | _, .many1 p => p.fate L call
  | _, .absent p =>
    match p.fate L call with
    | .refused => .idle
    | .idle => .refused
    | .unknown => .unknown
  | _, .ahead p => p.fate L call
  | _, .act _ p => p.fate L call

/-- What becomes of a rule at a place, with so many rules inside one another looked at. -/
def Grammar.fate (g : Grammar T R V) (L : Look T) : Nat → R → Fate
  | 0, _ => .unknown
  | n + 1, r => (g.body r).fate L (g.fate L n)

/-- A reply is as foretold. -/
def Fate.Holds (f : Fate) (k : Cursor) (x : Reply α) : Prop :=
  match f with
  | .refused => x = .refused
  | .idle => ∃ a, x = .matched a k
  | .unknown => True

section Fates

variable {g : Grammar T R V} {L : Look T} {k : Cursor}

theorem Fate.Holds.repeated {x : Cursor → Reply α} {f : Fate} (h : f.Holds k (x k))
    (hf : f ≠ .unknown) (n : Nat) (found : List α) :
    ∃ as, Reply.repeated x n found k = .matched as k := by
  cases n with
  | zero => exact ⟨_, rfl⟩
  | succ n =>
    rw [Reply.repeated]
    split
    · exact ⟨_, rfl⟩
    · cases f with
      | refused =>
        have hx : x k = .refused := h
        rw [hx]
        exact ⟨_, rfl⟩
      | idle =>
        obtain ⟨a, ha⟩ := h
        rw [ha]
        simp only [Reply.cases, if_true]
        exact ⟨_, rfl⟩
      | unknown => exact absurd rfl hf

/-- What goes on from a reply is as foretold, if it is wherever the reply may lead. -/
theorem Fate.Holds.cases {f f' : Fate} {x : Reply α} {y : α → Cursor → Reply β} {z : Reply β}
    (h : f.Holds k x) (hrefused : f = .refused → f'.Holds k z)
    (hidle : f = .idle → ∀ a, f'.Holds k (y a k)) (hunknown : f = .unknown → f' = .unknown) :
    f'.Holds k (x.cases y z) := by
  cases f with
  | refused =>
    have hx : x = .refused := h
    rw [hx]
    exact hrefused rfl
  | idle =>
    obtain ⟨a, ha⟩ := h
    rw [ha]
    exact hidle rfl a
  | unknown =>
    rw [hunknown rfl]
    trivial

theorem Fate.Holds.bind {f f' : Fate} {x : Reply α} {y : α → Cursor → Reply β} (h : f.Holds k x)
    (hrefused : f = .refused → f' = .refused) (hidle : f = .idle → ∀ a, f'.Holds k (y a k))
    (hunknown : f = .unknown → f' = .unknown) : f'.Holds k (x.bind y) := by
  have hbind : x.bind y = x.cases y .refused := by cases x <;> rfl
  rw [hbind]
  refine h.cases (fun hf => ?_) hidle hunknown
  rw [hrefused hf]
  rfl

/-- What matches at once behind a reply shares its fate. -/
theorem Fate.Holds.bind_matched {f : Fate} {x : Reply α} {y : α → Cursor → Reply β}
    (h : f.Holds k x) (hy : ∀ a, ∃ b, y a k = .matched b k) : f.Holds k (x.bind y) := by
  refine h.bind id (fun hf a => ?_) id
  rw [hf]
  exact hy a

theorem Expression.fate_holds (hL : L.Sound g.scan k.rest) {call : R → Fate}
    (hc : ∀ r, (call r).Holds k (g.reply r k)) (p : Expression T R V α) :
    (p.fate L call).Holds k (g.read p k) := by
  have hend : k.atEnd = false := by simpa [Cursor.atEnd] using hL.ne_nil
  induction p with
  | text s =>
    unfold fate
    split
    · trivial
    · rename_i hs
      exact Grammar.refuses_text (fun h => hs (hL.text s h)) k rfl
  | symbol table =>
    unfold fate
    split
    · trivial
    · rename_i hs
      cases h : firstSymbol table k.rest with
      | none => exact Grammar.refuses_symbol h k rfl
      | some x =>
        obtain ⟨y, hy, _, hpre⟩ := firstSymbol_some h
        exact absurd (List.any_eq_true.2 ⟨y, hy, hL.text _ hpre⟩) hs
  | token x =>
    unfold fate
    split
    · trivial
    · rename_i hx
      cases h : g.scan x k.rest with
      | none => exact Grammar.refuses_token h k rfl
      | some n => exact absurd (hL.token x n h) hx
  | rule r => exact hc r
  | both p q ihp ihq =>
    have hread : g.read (p.both q) k = (g.read p k).bind fun a k' =>
        (g.read q k').bind fun b k'' => .matched (a, b) k'' := rfl
    unfold fate
    rw [hread]
    generalize p.fate L call = f at ihp
    refine ihp.bind ?_ ?_ ?_
    · rintro rfl
      rfl
    · rintro rfl a
      exact ihq.bind_matched fun b => ⟨(a, b), rfl⟩
    · rintro rfl
      rfl
  | either p q ihp ihq =>
    have hread : g.read (p.either q) k = (g.read p k).cases .matched (g.read q k) := rfl
    unfold fate
    rw [hread]
    generalize p.fate L call = f at ihp
    refine ihp.cases ?_ ?_ ?_
    · rintro rfl
      exact ihq
    · rintro rfl a
      exact ⟨a, rfl⟩
    · rintro rfl
      rfl
  | option p ih =>
    have hread : g.read p.option k = (g.read p k).cases (fun a => .matched (some a))
        (.matched none k) := by
      change (if k.atEnd then _ else _) = _
      rw [hend]
      rfl
    unfold fate
    rw [hread]
    generalize p.fate L call = f at ih
    refine ih.cases ?_ ?_ ?_
    · rintro rfl
      exact ⟨none, rfl⟩
    · rintro rfl a
      exact ⟨some a, rfl⟩
    · rintro rfl
      rfl
  | many p ih =>
    unfold fate
    cases hp : p.fate L call with
    | refused =>
      rw [hp] at ih
      exact ih.repeated (x := g.read p) Fate.noConfusion _ _
    | idle =>
      rw [hp] at ih
      exact ih.repeated (x := g.read p) Fate.noConfusion _ _
    | unknown => trivial
  | many1 p ih =>
    have hread : g.read p.many1 k = (g.read p k).bind fun a k' =>
        if k'.offset = k.offset then .matched [a] k'
        else Reply.repeated (g.read p) k'.rest.length [a] k' := by
      change (if k.atEnd then _ else _) = _
      rw [hend]
      rfl
    unfold fate
    rw [hread]
    exact ih.bind_matched fun a => ⟨[a], if_pos rfl⟩
  | absent p ih =>
    have hread : g.read p.absent k = (g.read p k).cases (fun _ _ => .refused) (.matched () k) := rfl
    unfold fate
    rw [hread]
    generalize p.fate L call = f at ih
    refine ih.cases ?_ ?_ ?_
    · rintro rfl
      exact ⟨(), rfl⟩
    · rintro rfl a
      rfl
    · rintro rfl
      rfl
  | ahead p ih =>
    have hread : g.read p.ahead k = (g.read p k).bind fun _ _ => .matched () k := rfl
    unfold fate
    rw [hread]
    exact ih.bind_matched fun _ => ⟨(), rfl⟩
  | act f p ih =>
    have hread : g.read (p.act f) k = (g.read p k).bind fun a k' =>
        .matched (f ⟨k, k'.offset⟩ a) k' := rfl
    unfold fate
    rw [hread]
    exact ih.bind_matched fun _ => ⟨_, rfl⟩

variable {token : T → Bool} {rule : R → Bool} {rank : R → Nat}

theorem Grammar.Total.fate_holds (hg : g.Total token rule rank) (hL : L.Sound g.scan k.rest)
    (n : Nat) (r : R) : (g.fate L n r).Holds k (g.reply r k) := by
  induction n generalizing r with
  | zero => trivial
  | succ n ih =>
    rw [hg.reply_eq]
    exact Expression.fate_holds hL ih (g.body r)

/-- An expression that the start of a text rules out is refused before it. -/
theorem Grammar.Total.refuses_of_fate (hg : g.Total token rule rank) {t : List Char}
    (hL : L.Sound g.scan t) (n : Nat) {p : Expression T R V α}
        (h : p.fate L (g.fate L n) = .refused) :
    g.Refuses p t := by
  intro k hk
  subst hk
  have hp := Expression.fate_holds hL (hg.fate_holds hL n) p
  rwa [h] at hp

end Fates

end InkGauge.Peg
