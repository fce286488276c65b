import InkGauge.Proofs.Peg.Derivation

/-!
`Grammar.Misses` says where rules are refused while a rule is evaluated, and `Grammar.Stumbles` what
is refused first, be it a rule or a part of one. A run starts its record with the first refusal of
all and moves it on to every farther place where a rule is refused. What it remembers does not show:
a rule whose reply is kept was evaluated before, and its refusals were recorded then.
-/

namespace InkGauge.Peg

variable {T R : Type} {V : R → Type} {α β : Type}

/-- While the rule is evaluated at its place, a rule is refused at `l`, perhaps the rule itself. -/
def Grammar.Misses (g : Grammar T R V) (c : R × Cursor) (l : Cursor) : Prop :=
  ∃ r, Relation.ReflTransGen g.Calls c (r, l) ∧ g.Yields (.rule r) l .refused

/-- The first refusal while the expression is evaluated at a place, if there is one. -/
inductive Grammar.Stumbles (g : Grammar T R V) :
    {α : Type} → Expression T R V α → Cursor → Option Cursor → Prop where
  | text {s : List Char} {k : Cursor} (h : Text.startsWith s k.rest = true) :
    g.Stumbles (.text s) k none
  | text_missed {s : List Char} {k : Cursor} (h : Text.startsWith s k.rest = false) :
    g.Stumbles (.text s) k (some k)
  | symbol {α : Type} {table : List (Symbol α)} {k : Cursor} {x : Nat × α}
    (h : firstSymbol table k.rest = some x) : g.Stumbles (.symbol table) k none
  | symbol_missed {α : Type} {table : List (Symbol α)} {k : Cursor}
    (h : firstSymbol table k.rest = none) : g.Stumbles (.symbol table) k (some k)
  | token {t : T} {k : Cursor} {n : Nat} (h : g.scan t k.rest = some n) :
    g.Stumbles (.token t) k none
  | token_missed {t : T} {k : Cursor} (h : g.scan t k.rest = none) :
    g.Stumbles (.token t) k (some k)
  | rule {r : R} {k : Cursor} {x : Option Cursor} (h : g.Stumbles (g.body r) k x) :
    g.Stumbles (.rule r) k x
  | both {α β : Type} {p : Expression T R V α} {q : Expression T R V β} {k l : Cursor}
    (hp : g.Stumbles p k (some l)) : g.Stumbles (.both p q) k (some l)
  | both_right {α β : Type} {p : Expression T R V α} {q : Expression T R V β} {k k' : Cursor}
    {a : α} {x : Option Cursor} (hp : g.Stumbles p k none) (hy : g.Yields p k (.matched a k'))
    (hq : g.Stumbles q k' x) : g.Stumbles (.both p q) k x
  /-- Where nothing is refused in `p`, `q` is not tried. -/
  | either {α : Type} {p q : Expression T R V α} {k : Cursor} {x : Option Cursor}
    (hp : g.Stumbles p k x) : g.Stumbles (.either p q) k x
  | option_end {α : Type} {p : Expression T R V α} {k : Cursor} (hk : k.atEnd = true) :
    g.Stumbles (.option p) k none
  | option {α : Type} {p : Expression T R V α} {k : Cursor} {x : Option Cursor}
    (hk : k.atEnd = false) (hp : g.Stumbles p k x) : g.Stumbles (.option p) k x
  | many_end {α : Type} {p : Expression T R V α} {k : Cursor} (hk : k.atEnd = true) :
    g.Stumbles (.many p) k none
  | many {α : Type} {p : Expression T R V α} {k l : Cursor} (hk : k.atEnd = false)
    (hp : g.Stumbles p k (some l)) : g.Stumbles (.many p) k (some l)
  | many_idle {α : Type} {p : Expression T R V α} {k k' : Cursor} {a : α} (hk : k.atEnd = false)
    (hp : g.Stumbles p k none) (hy : g.Yields p k (.matched a k'))
    (ho : k'.offset = k.offset) : g.Stumbles (.many p) k none
  | many_more {α : Type} {p : Expression T R V α} {k k' : Cursor} {a : α} {x : Option Cursor}
    (hk : k.atEnd = false) (hp : g.Stumbles p k none) (hy : g.Yields p k (.matched a k'))
    (ho : k'.offset ≠ k.offset) (hrest : g.Stumbles (.many p) k' x) : g.Stumbles (.many p) k x
  | many1_end {α : Type} {p : Expression T R V α} {k : Cursor} (hk : k.atEnd = true) :
    g.Stumbles (.many1 p) k (some k)
  | many1 {α : Type} {p : Expression T R V α} {k l : Cursor} (hk : k.atEnd = false)
    (hp : g.Stumbles p k (some l)) : g.Stumbles (.many1 p) k (some l)
  | many1_idle {α : Type} {p : Expression T R V α} {k k' : Cursor} {a : α} (hk : k.atEnd = false)
    (hp : g.Stumbles p k none) (hy : g.Yields p k (.matched a k'))
    (ho : k'.offset = k.offset) : g.Stumbles (.many1 p) k none
  | many1_more {α : Type} {p : Expression T R V α} {k k' : Cursor} {a : α} {x : Option Cursor}
    (hk : k.atEnd = false) (hp : g.Stumbles p k none) (hy : g.Yields p k (.matched a k'))
    (ho : k'.offset ≠ k.offset) (hrest : g.Stumbles (.many p) k' x) : g.Stumbles (.many1 p) k x
  | absent {α : Type} {p : Expression T R V α} {k l : Cursor} (hp : g.Stumbles p k (some l)) :
    g.Stumbles (.absent p) k (some l)
  | absent_matched {α : Type} {p : Expression T R V α} {k : Cursor} (hp : g.Stumbles p k none) :
    g.Stumbles (.absent p) k (some k)
  | ahead {α : Type} {p : Expression T R V α} {k : Cursor} {x : Option Cursor}
    (hp : g.Stumbles p k x) : g.Stumbles (.ahead p) k x
  | act {α β : Type} {f : Slice → α → β} {p : Expression T R V α} {k : Cursor} {x : Option Cursor}
    (hp : g.Stumbles p k x) : g.Stumbles (.act f p) k x

/-- What is behind a first refusal, by the form of the expression. -/
def Grammar.StumblesBy (g : Grammar T R V) :
    {α : Type} → Expression T R V α → Cursor → Option Cursor → Prop
  | _, .text s, k, x => x = if Text.startsWith s k.rest then none else some k
  | _, .token t, k, x => x = if (g.scan t k.rest).isSome then none else some k
  | _, .rule r, k, x => g.Stumbles (g.body r) k x
  | _, .both p q, k, x =>
    (∃ l, x = some l ∧ g.Stumbles p k (some l)) ∨
      g.Stumbles p k none ∧ ∃ a k', g.Yields p k (.matched a k') ∧ g.Stumbles q k' x
  | _, .either p _, k, x => g.Stumbles p k x
  | _, .many p, k, x =>
    k.atEnd = true ∧ x = none ∨ k.atEnd = false ∧
      ((∃ l, x = some l ∧ g.Stumbles p k (some l)) ∨
        g.Stumbles p k none ∧ ∃ a k', g.Yields p k (.matched a k') ∧
          (k'.offset = k.offset ∨ k'.offset ≠ k.offset ∧ g.Stumbles (.many p) k' x))
  | _, .act _ p, k, x => g.Stumbles p k x
  | _, _, _, _ => True

theorem Grammar.Stumbles.inv {g : Grammar T R V} {p : Expression T R V α} {k : Cursor}
    {x : Option Cursor} (h : g.Stumbles p k x) : g.StumblesBy p k x := by
  cases h with
  | text h => simp [StumblesBy, h]
  | text_missed h => simp [StumblesBy, h]
  | token h => simp [StumblesBy, h]
  | token_missed h => simp [StumblesBy, h]
  | rule h => exact h
  | both hp => exact .inl ⟨_, rfl, hp⟩
  | both_right hp hy hq => exact .inr ⟨hp, _, _, hy, hq⟩
  | either hp => exact hp
  | many_end hk => exact .inl ⟨hk, rfl⟩
  | many hk hp => exact .inr ⟨hk, .inl ⟨_, rfl, hp⟩⟩
  | many_idle hk hp hy ho => exact .inr ⟨hk, .inr ⟨hp, _, _, hy, .inl ho⟩⟩
  | many_more hk hp hy ho hrest => exact .inr ⟨hk, .inr ⟨hp, _, _, hy, .inr ⟨ho, hrest⟩⟩⟩
  | act hp => exact hp
  | _ => trivial

/-- Where something is refused in the first part, nothing later is the first refusal. -/
theorem Grammar.Stumbles.left {g : Grammar T R V} {p : Expression T R V α} {q : Expression T R V β}
    {k : Cursor} {x : Option Cursor} (h : g.Stumbles (.both p q) k x) (hp : ¬g.Stumbles p k none) :
    g.Stumbles p k x := by
  rcases h.inv with ⟨l, rfl, hs⟩ | ⟨hs, -⟩
  · exact hs
  · exact absurd hs hp

theorem Grammar.Stumbles.first {g : Grammar T R V} {p : Expression T R V α} {k : Cursor}
    {x : Option Cursor} (h : g.Stumbles (.many p) k x) (hk : k.atEnd = false)
    (hp : ¬g.Stumbles p k none) : g.Stumbles p k x := by
  rcases h.inv with ⟨hend, -⟩ | ⟨-, ⟨l, rfl, hs⟩ | ⟨hs, -⟩⟩
  · rw [hk] at hend
    cases hend
  · exact hs
  · exact absurd hs hp

/-- Rounds of a repetition lead from one place to another. -/
inductive Grammar.Rounds (g : Grammar T R V) (p : Expression T R V α) : Cursor → Cursor → Prop where
  | refl (k : Cursor) : g.Rounds p k k
  | step {k k' l : Cursor} {a : α} (hk : k.atEnd = false) (hy : g.Yields p k (.matched a k'))
    (ho : k'.offset ≠ k.offset) (h : g.Rounds p k' l) : g.Rounds p k l

/-- While the expression is evaluated at a place, a rule is refused at `l`. -/
def Grammar.MissesIn (g : Grammar T R V) : {α : Type} → Expression T R V α → Cursor → Cursor → Prop
  | _, .text _, _, _ | _, .symbol _, _, _ | _, .token _, _, _ => False
  | _, .rule r, k, l => g.Misses (r, k) l
  | _, .both p q, k, l =>
    g.MissesIn p k l ∨ ∃ a k', g.Yields p k (.matched a k') ∧ g.MissesIn q k' l
  | _, .either p q, k, l => g.MissesIn p k l ∨ g.Yields p k .refused ∧ g.MissesIn q k l
  | _, .option p, k, l => k.atEnd = false ∧ g.MissesIn p k l
  | _, .many p, k, l | _, .many1 p, k, l =>
    ∃ k', g.Rounds p k k' ∧ k'.atEnd = false ∧ g.MissesIn p k' l
  | _, .absent p, k, l | _, .ahead p, k, l => g.MissesIn p k l
  | _, .act _ p, k, l => g.MissesIn p k l

section Refused

variable {g : Grammar T R V}

theorem Grammar.Rounds.tries {p : Expression T R V α} {k k' l : Cursor} {r : R}
    (h : g.Rounds p k k')
    (hk' : k'.atEnd = false) (ht : g.Tries p k' r l) : g.Tries (.many p) k r l := by
  induction h with
  | refl k => exact .many hk' ht
  | step hk hy ho _ ih => exact .many_more hk hy ho (ih hk' ht)

theorem Grammar.Rounds.tries1 {p : Expression T R V α} {k k' l : Cursor} {r : R}
    (h : g.Rounds p k k')
    (hk' : k'.atEnd = false) (ht : g.Tries p k' r l) : g.Tries (.many1 p) k r l := by
  cases h with
  | refl k => exact .many1 hk' ht
  | step hk hy ho h => exact .many1_more hk hy ho (h.tries hk' ht)

/-- The rules that are refused are found below the rules that are tried. -/
theorem Grammar.missesIn_iff {p : Expression T R V α} {k l : Cursor} :
    g.MissesIn p k l ↔ ∃ r k', g.Tries p k r k' ∧ g.Misses (r, k') l := by
  constructor
  · intro h
    induction p generalizing k with
    | text s => exact h.elim
    | symbol table => exact h.elim
    | token t => exact h.elim
    | rule r => exact ⟨r, k, .rule r k, h⟩
    | both p q ihp ihq =>
      rcases h with h | ⟨a, k', hy, h⟩
      · obtain ⟨r, k', ht, hm⟩ := ihp h
        exact ⟨r, k', .both ht, hm⟩
      · obtain ⟨r, k'', ht, hm⟩ := ihq h
        exact ⟨r, k'', .both_right hy ht, hm⟩
    | either p q ihp ihq =>
      rcases h with h | ⟨hy, h⟩
      · obtain ⟨r, k', ht, hm⟩ := ihp h
        exact ⟨r, k', .either ht, hm⟩
      · obtain ⟨r, k', ht, hm⟩ := ihq h
        exact ⟨r, k', .either_right hy ht, hm⟩
    | option p ih =>
      obtain ⟨hk, h⟩ := h
      obtain ⟨r, k', ht, hm⟩ := ih h
      exact ⟨r, k', .option hk ht, hm⟩
    | many p ih =>
      obtain ⟨k', hrounds, hk', h⟩ := h
      obtain ⟨r, k'', ht, hm⟩ := ih h
      exact ⟨r, k'', hrounds.tries hk' ht, hm⟩
    | many1 p ih =>
      obtain ⟨k', hrounds, hk', h⟩ := h
      obtain ⟨r, k'', ht, hm⟩ := ih h
      exact ⟨r, k'', hrounds.tries1 hk' ht, hm⟩
    | absent p ih =>
      obtain ⟨r, k', ht, hm⟩ := ih h
      exact ⟨r, k', .absent ht, hm⟩
    | ahead p ih =>
      obtain ⟨r, k', ht, hm⟩ := ih h
      exact ⟨r, k', .ahead ht, hm⟩
    | act f p ih =>
      obtain ⟨r, k', ht, hm⟩ := ih h
      exact ⟨r, k', .act ht, hm⟩
  · rintro ⟨r, k', ht, hm⟩
    induction ht with
    | rule r k => exact hm
    | both _ ih => exact .inl (ih hm)
    | both_right hy _ ih => exact .inr ⟨_, _, hy, ih hm⟩
    | either _ ih => exact .inl (ih hm)
    | either_right hy _ ih => exact .inr ⟨hy, ih hm⟩
    | option hk _ ih => exact ⟨hk, ih hm⟩
    | many hk _ ih => exact ⟨_, .refl _, hk, ih hm⟩
    | many_more hk hy ho _ ih =>
      obtain ⟨k'', hrounds, hk'', h⟩ := ih hm
      exact ⟨k'', .step hk hy ho hrounds, hk'', h⟩
    | many1 hk _ ih => exact ⟨_, .refl _, hk, ih hm⟩
    | many1_more hk hy ho _ ih =>
      obtain ⟨k'', hrounds, hk'', h⟩ := ih hm
      exact ⟨k'', .step hk hy ho hrounds, hk'', h⟩
    | absent _ ih => exact ih hm
    | ahead _ ih => exact ih hm
    | act _ ih => exact ih hm

/-- What is refused while a rule is evaluated: the rule, or something in its body. -/
theorem Grammar.misses_iff {r : R} {k l : Cursor} :
    g.Misses (r, k) l ↔ g.MissesIn (g.body r) k l ∨ l = k ∧ g.Yields (.rule r) k .refused := by
  rw [missesIn_iff]
  constructor
  · rintro ⟨r', hcalls, hy⟩
    rcases hcalls.cases_head with heq | ⟨⟨r₁, k₁⟩, hcall, hrest⟩
    · cases heq
      exact .inr ⟨rfl, hy⟩
    · exact .inl ⟨r₁, k₁, hcall, r', hrest, hy⟩
  · rintro (⟨r₁, k₁, hcall, r', hrest, hy⟩ | ⟨rfl, hy⟩)
    · exact ⟨r', Relation.ReflTransGen.head (b := (r₁, k₁)) hcall hrest, hy⟩
    · exact ⟨r, .refl, hy⟩

/-- What a repetition tries, it tries in its first round or behind it. -/
theorem Grammar.missesIn_many_iff {p : Expression T R V α} {k l : Cursor} (hk : k.atEnd = false) :
    g.MissesIn (.many p) k l ↔ g.MissesIn p k l ∨
      ∃ a k', g.Yields p k (.matched a k') ∧ k'.offset ≠ k.offset ∧ g.MissesIn (.many p) k' l := by
  constructor
  · rintro ⟨k', hrounds, hk', h⟩
    cases hrounds with
    | refl k => exact .inl h
    | step _ hy ho hrounds => exact .inr ⟨_, _, hy, ho, k', hrounds, hk', h⟩
  · rintro (h | ⟨a, k', hy, ho, k'', hrounds, hk'', h⟩)
    · exact ⟨k, .refl k, hk, h⟩
    · exact ⟨k'', .step hk hy ho hrounds, hk'', h⟩

theorem Grammar.not_missesIn_many_of_end {p : Expression T R V α} {k l : Cursor}
    (hk : k.atEnd = true) : ¬g.MissesIn (.many p) k l := by
  rintro ⟨k', hrounds, hk', _⟩
  cases hrounds with
  | refl k => rw [hk] at hk'; cases hk'
  | step hk' => rw [hk] at hk'; cases hk'

end Refused

namespace Grammar.Total

variable {g : Grammar T R V} {token : T → Bool} {rule : R → Bool} {rank : R → Nat}

/-- An answer that was not given up is all that is derived. -/
theorem yields_iff (hg : g.Total token rule rank) {n : Nat} {p : Expression T R V α} {k : Cursor}
    {x y : Reply α} (h : p.answer g.scan (g.answer n) k = y) (hne : y ≠ .exhausted) :
    g.Yields p k x ↔ x = y := by
  have hy : g.Yields p k y :=
    yields_of_answer yields_of_depth (fun _ _ _ _ => g.answer_reaches) h hne
  constructor
  · intro hx
    rw [← hg.answer_of_yields hx, hg.answer_of_yields hy]
  · rintro rfl
    exact hy

theorem yields_answer (hg : g.Total token rule rank) {p : Expression T R V α} {k : Cursor}
    {x : Reply α} (h : p.answer g.scan g.reply k = x) (hne : x ≠ .exhausted) : g.Yields p k x :=
  yields_of_answer (fun {r k _} hx _ => hx ▸ hg.yields_reply r k) g.reply_reaches h hne

/-- Where an expression is refused, something is refused. -/
theorem not_stumbles_none (hg : g.Total token rule rank) {p : Expression T R V α} {k : Cursor}
    (h : g.Yields p k .refused) : ¬g.Stumbles p k none := by
  intro hs
  have hrefused := hg.answer_of_yields h
  clear h
  generalize hx : (none : Option Cursor) = x at hs
  induction hs with
  | text h => simp [Expression.answer, h] at hrefused
  | symbol h => simp [Expression.answer, h] at hrefused
  | token h => simp [Expression.answer, h] at hrefused
  | rule _ ih =>
    rw [Expression.answer, hg.reply_eq] at hrefused
    exact ih hrefused hx
  | both_right _ hy _ _ ihq =>
    rw [Expression.answer, hg.answer_of_yields hy] at hrefused
    rcases Reply.of_bind hrefused (by simp) with ⟨a, k', hmatched, hq⟩ | ⟨hp, -⟩
    · cases hmatched
      rcases Reply.of_bind hq (by simp) with ⟨b, k'', -, hmatched⟩ | ⟨hq, -⟩
      · cases hmatched
      · exact ihq hq hx
    · cases hp
  | either _ ih =>
    rw [Expression.answer] at hrefused
    rcases Reply.of_cases hrefused (by simp) with ⟨a, k', -, hmatched⟩ | ⟨hp, -⟩
    · cases hmatched
    · exact ih hp hx
  | option_end hk => simp [Expression.answer, hk] at hrefused
  | option hk _ ih =>
    rw [Expression.answer, hk] at hrefused
    rcases Reply.of_cases hrefused (by simp) with ⟨a, k', -, hmatched⟩ | ⟨hp, -⟩
    · cases hmatched
    · exact ih hp hx
  | many_end => exact Reply.repeated_ne_refused _ _ _ _ hrefused
  | many_idle => exact Reply.repeated_ne_refused _ _ _ _ hrefused
  | many_more => exact Reply.repeated_ne_refused _ _ _ _ hrefused
  | many1_idle hk _ hy ho =>
    simp [Expression.answer, Reply.bind, hk, hg.answer_of_yields hy, ho] at hrefused
  | many1_more hk _ hy ho =>
    simp only [Expression.answer, Reply.bind, hk, hg.answer_of_yields hy, ho, if_false,
      Bool.false_eq_true] at hrefused
    exact Reply.repeated_ne_refused _ _ _ _ hrefused
  | ahead _ ih =>
    rw [Expression.answer] at hrefused
    rcases Reply.of_bind hrefused (by simp) with ⟨a, k', -, hmatched⟩ | ⟨hp, -⟩
    · cases hmatched
    · exact ih hp hx
  | act _ ih =>
    rw [Expression.answer] at hrefused
    rcases Reply.of_bind hrefused (by simp) with ⟨a, k', -, hmatched⟩ | ⟨hp, -⟩
    · cases hmatched
    · exact ih hp hx
  | _ => cases hx

theorem exists_yields_iff (hg : g.Total token rule rank) {n : Nat}
    {p : Expression T R V α} {k k' : Cursor} {a : α} {P : α → Cursor → Prop}
    (h : p.answer g.scan (g.answer n) k = .matched a k') :
    (∃ b l, g.Yields p k (.matched b l) ∧ P b l) ↔ P a k' := by
  constructor
  · rintro ⟨b, l, hy, hP⟩
    cases (hg.yields_iff h (by simp)).1 hy
    exact hP
  · exact fun hP => ⟨a, k', (hg.yields_iff h (by simp)).2 rfl, hP⟩

theorem not_exists_yields (hg : g.Total token rule rank) {n : Nat}
    {p : Expression T R V α} {k : Cursor} {P : α → Cursor → Prop}
    (h : p.answer g.scan (g.answer n) k = .refused) :
    ¬∃ b l, g.Yields p k (.matched b l) ∧ P b l := by
  rintro ⟨b, l, hy, -⟩
  cases (hg.yields_iff h (by simp)).1 hy

theorem not_stumbles_of_answer (hg : g.Total token rule rank) {n : Nat}
    {p : Expression T R V α} {k : Cursor} (h : p.answer g.scan (g.answer n) k = .refused) :
    ¬g.Stumbles p k none :=
  hg.not_stumbles_none ((hg.yields_iff h (by simp)).2 rfl)

end Grammar.Total

/-- The record stands at `n`, or at a place of `M` that is farther on. -/
def StandsAt (M : Cursor → Prop) (n : Nat) (o : Option Nat) : Prop :=
  ∃ m, o = some m ∧ n ≤ m ∧ (m = n ∨ ∃ l, M l ∧ l.offset = m)

/-- A record goes from `o` to `o'` while rules are refused at the places of `M`, and while `S` says
what is refused first. -/
structure Marks (M : Cursor → Prop) (S : Option Cursor → Prop) (o o' : Option Nat) : Prop where
  all : ∀ l, M l → ∃ m, o' = some m ∧ l.offset ≤ m
  later : ∀ n, o = some n → StandsAt M n o'
  first : o = none → o' = none ∧ S none ∨ ∃ l, S (some l) ∧ StandsAt M l.offset o'

namespace Marks

variable {M N : Cursor → Prop} {S W : Option Cursor → Prop} {o o' o'' : Option Nat} {n : Nat}

theorem nothing (o : Option Nat) : Marks (fun _ => False) (· = none) o o where
  all _ h := h.elim
  later n h := ⟨n, h, Nat.le_refl n, .inl rfl⟩
  first h := .inl ⟨h, rfl⟩

/-- A part of a rule that is refused is recorded if it is the first. -/
theorem part (k : Cursor) (o : Option Nat) :
    Marks (fun _ => False) (· = some k) o (some (o.getD k.offset)) where
  all _ h := h.elim
  later n h := ⟨n, by rw [h]; rfl, Nat.le_refl n, .inl rfl⟩
  first h := .inr ⟨k, rfl, k.offset, by rw [h]; rfl, Nat.le_refl _, .inl rfl⟩

theorem imp (h : Marks M S o o') (hM : ∀ l, M l ↔ N l) (hS : ∀ x, S x → W x) :
    Marks N W o o' := by
  have hstands : ∀ n, StandsAt M n o' → StandsAt N n o' := by
    rintro n ⟨m, ho, hle, rfl | ⟨l, hl, hm⟩⟩
    · exact ⟨m, ho, hle, .inl rfl⟩
    · exact ⟨m, ho, hle, .inr ⟨l, (hM l).1 hl, hm⟩⟩
  refine ⟨fun l hl => h.all l ((hM l).2 hl), fun n hn => hstands n (h.later n hn), fun hn => ?_⟩
  rcases h.first hn with ⟨ho, hs⟩ | ⟨l, hs, hl⟩
  · exact .inl ⟨ho, hS _ hs⟩
  · exact .inr ⟨l, hS _ hs, hstands _ hl⟩

theorem standsAt_trans (h : StandsAt M n o') (h' : Marks N W o' o'') :
    StandsAt (fun l => M l ∨ N l) n o'' := by
  obtain ⟨m, rfl, hnm, hm⟩ := h
  obtain ⟨m', ho, hmm', hm'⟩ := h'.later m rfl
  refine ⟨m', ho, Nat.le_trans hnm hmm', ?_⟩
  rcases hm' with rfl | ⟨l, hl, hl'⟩
  · rcases hm with rfl | ⟨l, hl, hl'⟩
    · exact .inl rfl
    · exact .inr ⟨l, .inl hl, hl'⟩
  · exact .inr ⟨l, .inr hl, hl'⟩

/-- One stretch of a run after another: what is refused first in the second counts only if nothing
is refused in the first. -/
theorem trans (h : Marks M S o o') (h' : Marks N W o' o'') :
    Marks (fun l => M l ∨ N l) (fun x => (∃ l, x = some l ∧ S x) ∨ S none ∧ W x) o o'' where
  all l hl := by
    rcases hl with hl | hl
    · obtain ⟨m, ho, hm⟩ := h.all l hl
      obtain ⟨m', ho', hm', _⟩ := h'.later m ho
      exact ⟨m', ho', Nat.le_trans hm hm'⟩
    · exact h'.all l hl
  later n hn := standsAt_trans (h.later n hn) h'
  first hn := by
    rcases h.first hn with ⟨ho, hs⟩ | ⟨l, hs, hl⟩
    · rcases h'.first ho with ⟨ho', hs'⟩ | ⟨l, hs', m, ho', hm, hl⟩
      · exact .inl ⟨ho', .inr ⟨hs, hs'⟩⟩
      · refine .inr ⟨l, .inr ⟨hs, hs'⟩, m, ho', hm, ?_⟩
        rcases hl with rfl | ⟨l', hl', hm'⟩
        · exact .inl rfl
        · exact .inr ⟨l', .inr hl', hm'⟩
    · exact .inr ⟨l, .inl ⟨l, rfl, hs⟩, standsAt_trans hl h'⟩

/-- The rule itself is refused at last. -/
theorem miss (h : Marks M S o (some n)) (k : Cursor) :
    Marks (fun l => M l ∨ l = k) S o (some (max n k.offset)) := by
  have hstands : ∀ i, StandsAt M i (some n) →
      StandsAt (fun l => M l ∨ l = k) i (some (max n k.offset)) := by
    rintro i ⟨m, hm, him, hl⟩
    cases hm
    refine ⟨_, rfl, by omega, ?_⟩
    rcases Nat.le_total n k.offset with hnk | hkn
    · exact .inr ⟨k, .inr rfl, by omega⟩
    · rw [Nat.max_eq_left hkn]
      exact hl.imp id fun ⟨l, hl, hl'⟩ => ⟨l, .inl hl, hl'⟩
  refine ⟨?_, fun i hi => hstands i (h.later i hi), fun ho => ?_⟩
  · rintro l (hl | rfl)
    · obtain ⟨m, hm, hle⟩ := h.all l hl
      cases hm
      exact ⟨_, rfl, by omega⟩
    · exact ⟨_, rfl, by omega⟩
  · rcases h.first ho with ⟨ho', _⟩ | ⟨l, hs, hl⟩
    · cases ho'
    · exact .inr ⟨l, hs, hstands _ hl⟩

/-- What a record tells, it tells also later on. -/
theorem settled (h : Marks M S o o) (h' : Marks N W o o') : Marks M S o' o' where
  all l hl := by
    obtain ⟨m, ho, hm⟩ := h.all l hl
    obtain ⟨m', ho', hm', _⟩ := h'.later m ho
    exact ⟨m', ho', Nat.le_trans hm hm'⟩
  later n hn := ⟨n, hn, Nat.le_refl n, .inl rfl⟩
  first hn := by
    cases o with
    | none =>
      rcases h.first rfl with ⟨_, hs⟩ | ⟨l, _, m, ho, _⟩
      · exact .inl ⟨hn, hs⟩
      · cases ho
    | some n =>
      obtain ⟨m, ho', _⟩ := h'.later n rfl
      rw [hn] at ho'
      cases ho'

theorem after (h : Marks M S o o') : Marks M S o' o' where
  all := h.all
  later n hn := ⟨n, hn, Nat.le_refl n, .inl rfl⟩
  first hn := by
    cases o with
    | none =>
      rcases h.first rfl with ⟨_, hs⟩ | ⟨l, _, m, ho, _⟩
      · exact .inl ⟨hn, hs⟩
      · rw [hn] at ho
        cases ho
    | some n =>
      obtain ⟨m, ho', _⟩ := h.later n rfl
      rw [hn] at ho'
      cases ho'

theorem exists_some (h : Marks M S o o') (hS : ¬S none) : ∃ n, o' = some n := by
  cases o with
  | none =>
    rcases h.first rfl with ⟨_, hs⟩ | ⟨l, _, m, ho, _⟩
    · exact absurd hs hS
    · exact ⟨m, ho⟩
  | some n =>
    obtain ⟨m, ho, _⟩ := h.later n rfl
    exact ⟨m, ho⟩

section

variable {g : Grammar T R V} {token : T → Bool} {rule : R → Bool} {rank : R → Nat} {r : R}
  {k : Cursor}

/-- A rule that matches is refused nowhere but in its body. -/
theorem of_matched (hg : g.Total token rule rank) {k' : Cursor} {a : V r}
    (h : (Expression.rule r).answer g.scan (g.answer n) k = .matched a k')
    (hm : Marks (g.MissesIn (g.body r) k) (g.Stumbles (g.body r) k) o o') :
    Marks (g.Misses (r, k)) (g.Stumbles (.rule r) k) o o' := by
  refine hm.imp (fun l => ?_) fun z hz => .rule hz
  rw [Grammar.misses_iff]
  refine ⟨.inl, fun hl => ?_⟩
  rcases hl with hl | ⟨-, hy⟩
  · exact hl
  · cases (hg.yields_iff h (by simp)).1 hy

/-- A rule that is refused adds one refusal to those in its body. -/
theorem of_refused (hg : g.Total token rule rank)
    (h : (Expression.rule r).answer g.scan (g.answer n) k = .refused) {m : Nat}
    (hm : Marks (g.MissesIn (g.body r) k) (g.Stumbles (g.body r) k) o (some m)) :
    Marks (g.Misses (r, k)) (g.Stumbles (.rule r) k) o (some (max m k.offset)) := by
  have hyields : g.Yields (.rule r) k .refused := (hg.yields_iff h (by simp)).2 rfl
  refine (hm.miss k).imp (fun l => ?_) fun z hz => .rule hz
  simp only [Grammar.misses_iff, hyields, and_true]

end

end Marks

section Running

variable [DecidableEq R] {g : Grammar T R V} {base : Cursor}

/-- To evaluate a rule whose reply is kept would change nothing in the record. -/
def Session.Told (g : Grammar T R V) (base : Cursor) (σ : Session V) : Prop :=
  ∀ r k reply, base.Reaches k → σ.kept? r k = some reply →
    Marks (g.Misses (r, k)) (g.Stumbles (.rule r) k) σ.farthest σ.farthest

theorem Session.Told.record {σ : Session V} (h : σ.Told g base) {M : Cursor → Prop}
    {S : Option Cursor → Prop} {o : Option Nat} (hm : Marks M S σ.farthest o) :
    Session.Told g base { σ with farthest := o } :=
  fun r k reply hk hkept => (h r k reply hk hkept).settled hm

theorem Session.Told.keep {σ : Session V} (h : σ.Told g base) {r : R} {k : Cursor}
    {reply : Reply (V r)} (hk : base.Reaches k)
    (hm : Marks (g.Misses (r, k)) (g.Stumbles (.rule r) k) σ.farthest σ.farthest) :
    (σ.keep r k reply).Told g base := by
  intro r' k' reply' hk' hkept
  rcases Session.kept?_keep hkept with ⟨ho, rfl, rfl⟩ | hold
  · rw [← hk.eq_of_offset hk' ho]
    exact hm
  · exact h r' k' reply' hk' hold

/-- Wherever the plain grammar does not give up, a run answers as it does, and its record goes on as
`M` and `S` say. -/
structure Tracks (g : Grammar T R V) (base : Cursor) (x : Attempt V α) (y : Reply α)
    (M : Cursor → Prop) (S : Option Cursor → Prop) : Prop where
  follows : Follows g base x y
  run : y ≠ .exhausted → ∀ σ, σ.Sure g base → σ.Told g base →
    (x σ).2.Told g base ∧ Marks M S σ.farthest (x σ).2.farthest

namespace Tracks

variable {M N : Cursor → Prop} {S W : Option Cursor → Prop}

theorem matched (a : α) (k : Cursor) :
    Tracks g base (Attempt.matched a k) (.matched a k) (fun _ => False) (· = none) :=
  ⟨.matched a k, fun _ σ _ hσ => ⟨hσ, .nothing σ.farthest⟩⟩

theorem refused : Tracks g base (fun σ => ((.refused : Reply α), σ)) .refused (fun _ => False)
    (· = none) :=
  ⟨.refused, fun _ σ _ hσ => ⟨hσ, .nothing σ.farthest⟩⟩

theorem missed (k : Cursor) :
    Tracks g base (Attempt.missed k : Attempt V α) .refused (fun _ => False) (· = some k) :=
  ⟨.missed k, fun _ σ _ hσ => ⟨hσ.record (.part k σ.farthest), .part k σ.farthest⟩⟩

theorem imp {x : Attempt V α} {y : Reply α} (h : Tracks g base x y M S)
    (hM : y ≠ .exhausted → ∀ l, M l ↔ N l) (hS : y ≠ .exhausted → ∀ z, S z → W z) :
    Tracks g base x y N W := by
  refine ⟨h.follows, fun hne σ hsure htold => ?_⟩
  obtain ⟨htold', hm⟩ := h.run hne σ hsure htold
  exact ⟨htold', hm.imp (hM hne) (hS hne)⟩

/-- One attempt, and what comes behind it in either case. -/
theorem cases {x : Attempt V α} {y : Reply α} {f : α → Cursor → Attempt V β}
    {f' : α → Cursor → Reply β} {z : Attempt V β} {y' : Reply β} (hx : Tracks g base x y M S)
    (hf : ∀ a k, y = .matched a k → Tracks g base (f a k) (f' a k) N W)
    (hz : y = .refused → ¬S none ∧ ∃ U, Tracks g base z y' N U) :
    Tracks g base (Attempt.cases x f z) (y.cases f' y') (fun l => M l ∨ N l)
      (fun w => (∃ l, w = some l ∧ S w) ∨ S none ∧ W w) where
  follows := by
    refine hx.follows.cases (fun a k h => (hf a k h).follows) fun h => ?_
    obtain ⟨-, U, hz⟩ := hz h
    exact hz.follows
  run := by
    intro hne σ hsure htold
    have hy : y ≠ .exhausted := by
      rintro rfl
      exact hne rfl
    obtain ⟨heq, hsure'⟩ := hx.follows hy σ hsure
    obtain ⟨htold', hm⟩ := hx.run hy σ hsure htold
    unfold Attempt.cases
    cases hrun : x σ with
    | mk reply σ' =>
      rw [hrun] at heq hsure' htold' hm
      subst heq
      cases reply with
      | matched a k =>
        obtain ⟨htold'', hm'⟩ := (hf a k rfl).run hne σ' hsure' htold'
        exact ⟨htold'', hm.trans hm'⟩
      | refused =>
        obtain ⟨hnone, U, hz⟩ := hz rfl
        obtain ⟨htold'', hm'⟩ := hz.run hne σ' hsure' htold'
        refine ⟨htold'', (hm.trans hm').imp (fun _ => Iff.rfl) fun w hw => ?_⟩
        exact hw.imp id fun ⟨h, _⟩ => absurd h hnone
      | exhausted => exact absurd rfl hy

theorem bind {x : Attempt V α} {y : Reply α} {f : α → Cursor → Attempt V β}
    {f' : α → Cursor → Reply β} (hx : Tracks g base x y M S)
    (hf : ∀ a k, y = .matched a k → Tracks g base (f a k) (f' a k) N W)
    (hz : y = .refused → ¬S none ∧ ∀ l, ¬N l) :
    Tracks g base (Attempt.bind x f) (y.bind f') (fun l => M l ∨ N l)
      (fun w => (∃ l, w = some l ∧ S w) ∨ S none ∧ W w) := by
  have hcases := hx.cases (z := fun σ => (.refused, σ)) hf fun hy =>
    ⟨(hz hy).1, _, refused.imp (fun _ l => ⟨False.elim, (hz hy).2 l⟩) fun _ _ h => h⟩
  exact hcases

end Tracks

variable {token : T → Bool} {rule : R → Bool} {rank : R → Nat}

/-- The first refusal behind the first round of a repetition. -/
def Grammar.StumblesBehind (g : Grammar T R V) (p : Expression T R V α) (k : Cursor)
    (z : Option Cursor) : Prop :=
  ∃ a k', g.Yields p k (.matched a k') ∧
    (k'.offset = k.offset ∧ z = none ∨ k'.offset ≠ k.offset ∧ g.Stumbles (.many p) k' z)

/-- What comes behind the first round of a repetition: the rest of it, or nothing. -/
theorem Tracks.behind (hg : g.Total token rule rank) {n : Nat} {p : Expression T R V α}
    {k k' : Cursor} {a : α} (h : p.answer g.scan (g.answer n) k = .matched a k') (as : List α)
    {x : Attempt V (List α)} {y : Reply (List α)}
    (hrest : k'.offset ≠ k.offset →
      Tracks g base x y (g.MissesIn (.many p) k') (g.Stumbles (.many p) k')) :
    Tracks g base (if k'.offset = k.offset then Attempt.matched as k' else x)
      (if k'.offset = k.offset then .matched as k' else y)
      (fun l => ∃ a k', g.Yields p k (.matched a k') ∧
        (k'.offset ≠ k.offset ∧ g.MissesIn (.many p) k' l))
      (g.StumblesBehind p k) := by
  split
  · rename_i ho
    refine (Tracks.matched _ _).imp (fun _ l => ?_) fun _ z hz => ?_
    · rw [hg.exists_yields_iff h]
      exact ⟨False.elim, fun hl => hl.1 ho⟩
    · exact (hg.exists_yields_iff h).2 (.inl ⟨ho, hz⟩)
  · rename_i ho
    refine (hrest ho).imp (fun _ l => ?_) fun _ z hz => ?_
    · rw [hg.exists_yields_iff h]
      exact ⟨fun hl => ⟨ho, hl⟩, fun hl => hl.2⟩
    · exact (hg.exists_yields_iff h).2 (.inr ⟨ho, hz⟩)

/-- A repetition is tracked round by round. -/
theorem Tracks.repeated (hg : g.Total token rule rank) {n : Nat} {p : Expression T R V α}
    {x : Cursor → Attempt V α}
    (hx : ∀ k, base.Reaches k → Tracks g base (x k) (p.answer g.scan (g.answer n) k)
      (g.MissesIn p k) (g.Stumbles p k)) (m : Nat) (found : List α) {k : Cursor}
    (hk : base.Reaches k) (hm : k.rest.length ≤ m) :
    Tracks g base (Attempt.repeated x m found k)
      (Reply.repeated (p.answer g.scan (g.answer n)) m found k) (g.MissesIn (.many p) k)
      (g.Stumbles (.many p) k) := by
  have hreach : ∀ r k a k', g.answer n r k = .matched a k' → k.Reaches k' :=
    fun _ _ _ _ => g.answer_reaches
  have hend : ∀ {k : Cursor} (as : List α), k.atEnd = true → Tracks g base (Attempt.matched as k)
      (.matched as k) (g.MissesIn (.many p) k) (g.Stumbles (.many p) k) :=
    fun _ hk => (Tracks.matched _ _).imp
      (fun _ l => ⟨False.elim, Grammar.not_missesIn_many_of_end hk⟩)
      fun _ z hz => hz ▸ .many_end hk
  induction m generalizing found k with
  | zero => exact hend _ (Cursor.atEnd_of_length_le hm)
  | succ m ih =>
    unfold Attempt.repeated Reply.repeated
    split
    · rename_i hatEnd
      exact hend _ hatEnd
    · rename_i hatEnd
      have hopen := Bool.eq_false_iff.2 hatEnd
      refine ((hx k hk).cases (W := g.StumblesBehind p k) (fun a k' h => ?_) fun h =>
        ⟨hg.not_stumbles_of_answer h, _,
          (Tracks.matched _ _).imp (fun _ l => ⟨False.elim, hg.not_exists_yields h⟩)
            fun _ _ hz => hz⟩).imp (fun _ l => (Grammar.missesIn_many_iff hopen).symm) ?_
      · have hto := Expression.answer_reaches hreach h
        refine .behind hg h _ fun ho => ih _ (hk.trans hto) ?_
        have hlt := hto.lt_of_offset_ne ho
        omega
      · rintro - z (⟨l, rfl, hs⟩ | ⟨hs, a, k', hy, ⟨ho, rfl⟩ | ⟨ho, hrest⟩⟩)
        · exact .many hopen hs
        · exact .many_idle hopen hs hy ho
        · exact .many_more hopen hs hy ho hrest

/-- An expression is tracked by what is refused in it. -/
theorem Expression.run_tracks (hg : g.Total token rule rank) {n : Nat}
    {call : (r : R) → Cursor → Attempt V (V r)}
    (hc : ∀ r k, base.Reaches k → Tracks g base (call r k) (g.answer n r k) (g.Misses (r, k))
      (g.Stumbles (.rule r) k)) (p : Expression T R V α) {k : Cursor} (hk : base.Reaches k) :
    Tracks g base (p.run g.scan call k) (p.answer g.scan (g.answer n) k) (g.MissesIn p k)
      (g.Stumbles p k) := by
  have hreach : ∀ r k a k', g.answer n r k = .matched a k' → k.Reaches k' :=
    fun _ _ _ _ => g.answer_reaches
  induction p generalizing k with
  | text s =>
    unfold run answer
    split
    · rename_i hs
      exact (Tracks.matched _ _).imp (fun _ _ => Iff.rfl) fun _ z hz => hz ▸ .text hs
    · rename_i hs
      exact (Tracks.missed k).imp (fun _ _ => Iff.rfl)
        fun _ z hz => hz ▸ .text_missed (Bool.eq_false_iff.2 hs)
  | symbol table =>
    unfold run answer
    cases hs : firstSymbol table k.rest with
    | some x => exact (Tracks.matched _ _).imp (fun _ _ => Iff.rfl) fun _ z hz => hz ▸ .symbol hs
    | none => exact (Tracks.missed k).imp (fun _ _ => Iff.rfl) fun _ z hz => hz ▸ .symbol_missed hs
  | token t =>
    unfold run answer
    cases hs : g.scan t k.rest with
    | some m => exact (Tracks.matched _ _).imp (fun _ _ => Iff.rfl) fun _ z hz => hz ▸ .token hs
    | none => exact (Tracks.missed k).imp (fun _ _ => Iff.rfl) fun _ z hz => hz ▸ .token_missed hs
  | rule r => exact hc r k hk
  | both p q ihp ihq =>
    refine ((ihp hk).bind (N := fun l => ∃ a k', g.Yields p k (.matched a k') ∧ g.MissesIn q k' l)
      (W := fun z => ∃ a k', g.Yields p k (.matched a k') ∧ g.Stumbles q k' z)
      (fun a k' h => ?_) fun h =>
        ⟨hg.not_stumbles_of_answer h, fun l => hg.not_exists_yields h⟩).imp (fun _ l => Iff.rfl) ?_
    · have hq := ihq (hk.trans (answer_reaches hreach h))
      refine (hq.bind (fun b k'' _ => Tracks.matched (a, b) k'')
        fun h' => ⟨hg.not_stumbles_of_answer h', fun _ => id⟩).imp (fun _ l => ?_) ?_
      · rw [hg.exists_yields_iff h, or_false]
      · rintro - z (⟨l, rfl, hs⟩ | ⟨hs, rfl⟩)
        · exact (hg.exists_yields_iff h).2 hs
        · exact (hg.exists_yields_iff h).2 hs
    · rintro - z (⟨l, rfl, hs⟩ | ⟨hs, a, k', hy, hs'⟩)
      · exact .both hs
      · exact .both_right hs hy hs'
  | either p q ihp ihq =>
    refine ((ihp hk).cases (N := fun l => g.Yields p k .refused ∧ g.MissesIn q k l)
      (W := (· = none)) (fun a k' h => ?_) fun h => ⟨hg.not_stumbles_of_answer h,
        g.Stumbles q k, ?_⟩).imp (fun _ l => Iff.rfl) ?_
    · refine (Tracks.matched a k').imp (fun _ l => ⟨False.elim, fun hl => ?_⟩) fun _ _ hz => hz
      cases (hg.yields_iff h (by simp)).1 hl.1
    · have hy := (hg.yields_iff h (by simp)).2 rfl
      exact (ihq hk).imp (fun _ l => ⟨fun hl => ⟨hy, hl⟩, fun hl => hl.2⟩) fun _ _ hz => hz
    · rintro - z (⟨l, rfl, hs⟩ | ⟨hs, rfl⟩)
      · exact .either hs
      · exact .either hs
  | option p ih =>
    unfold run answer
    split
    · rename_i hend
      refine (Tracks.matched _ _).imp (fun _ l => ⟨False.elim, fun hl => ?_⟩)
        fun _ z hz => hz ▸ .option_end hend
      exact absurd (hend.symm.trans hl.1) (by simp)
    · rename_i hend
      have hopen := Bool.eq_false_iff.2 hend
      refine ((ih hk).cases (fun a k' h => Tracks.matched (some a) k')
        fun h => ⟨hg.not_stumbles_of_answer h, _, Tracks.matched none k⟩).imp (fun _ l => ?_) ?_
      · exact ⟨fun hl => ⟨hopen, hl.resolve_right id⟩, fun hl => .inl hl.2⟩
      · rintro - z (⟨l, rfl, hs⟩ | ⟨hs, rfl⟩)
        · exact .option hopen hs
        · exact .option hopen hs
  | many p ih => exact Tracks.repeated hg (fun k hk => ih hk) _ _ hk (Nat.le_refl _)
  | many1 p ih =>
    unfold run answer
    split
    · rename_i hend
      exact (Tracks.missed k).imp
        (fun _ l => ⟨False.elim, Grammar.not_missesIn_many_of_end (p := p) hend⟩)
        fun _ z hz => hz ▸ .many1_end hend
    · rename_i hend
      have hopen := Bool.eq_false_iff.2 hend
      refine ((ih hk).bind (W := g.StumblesBehind p k) (fun a k' h => ?_)
        fun h => ⟨hg.not_stumbles_of_answer h, fun l => hg.not_exists_yields h⟩).imp
        (fun _ l => (Grammar.missesIn_many_iff hopen).symm) ?_
      · have hto := answer_reaches hreach h
        exact .behind hg h _ fun _ => .repeated hg (fun k hk => ih hk) _ _ (hk.trans hto)
          (Nat.le_refl _)
      · rintro - z (⟨l, rfl, hs⟩ | ⟨hs, a, k', hy, ⟨ho, rfl⟩ | ⟨ho, hrest⟩⟩)
        · exact .many1 hopen hs
        · exact .many1_idle hopen hs hy ho
        · exact .many1_more hopen hs hy ho hrest
  | absent p ih =>
    refine ((ih hk).cases (fun a k' h => Tracks.missed k)
      fun h => ⟨hg.not_stumbles_of_answer h, _, Tracks.matched () k⟩).imp (fun _ l => ?_) ?_
    · exact ⟨fun hl => hl.resolve_right id, .inl⟩
    · rintro - z (⟨l, rfl, hs⟩ | ⟨hs, rfl⟩)
      · exact .absent hs
      · exact .absent_matched hs
  | ahead p ih =>
    refine ((ih hk).bind (fun a k' _ => Tracks.matched () k)
      fun h => ⟨hg.not_stumbles_of_answer h, fun _ => id⟩).imp (fun _ l => ?_) ?_
    · exact ⟨fun hl => hl.resolve_right id, .inl⟩
    · rintro - z (⟨l, rfl, hs⟩ | ⟨hs, rfl⟩)
      · exact .ahead hs
      · exact .ahead hs
  | act f p ih =>
    refine ((ih hk).bind (fun a k' _ => Tracks.matched _ k')
      fun h => ⟨hg.not_stumbles_of_answer h, fun _ => id⟩).imp (fun _ l => ?_) ?_
    · exact ⟨fun hl => hl.resolve_right id, .inl⟩
    · rintro - z (⟨l, rfl, hs⟩ | ⟨hs, rfl⟩)
      · exact .act hs
      · exact .act hs

theorem Grammar.attempt_tracks (hg : g.Total token rule rank) (depth : Nat) (r : R) {k : Cursor}
    (hk : base.Reaches k) : Tracks g base (g.attempt depth r k) (g.answer depth r k)
      (g.Misses (r, k)) (g.Stumbles (.rule r) k) := by
  refine ⟨g.attempt_follows depth r hk, ?_⟩
  induction depth generalizing r k with
  | zero => exact fun h => absurd rfl h
  | succ depth ih =>
    intro hne σ hsure htold
    have hbody := Expression.run_tracks hg (fun r k hk => ⟨g.attempt_follows depth r hk, ih r hk⟩)
      (g.body r) hk
    unfold Grammar.attempt
    dsimp only
    cases hkept : (if g.keeps r then σ.kept? r k else none) with
    | some reply =>
      have hsome : σ.kept? r k = some reply := by
        split at hkept
        · exact hkept
        · cases hkept
      exact ⟨htold, htold r k reply hk hsome⟩
    | none =>
      obtain ⟨heq, _⟩ := hbody.follows hne σ hsure
      obtain ⟨htold', hm⟩ := hbody.run hne σ hsure htold
      cases hrun : (g.body r).run g.scan (g.attempt depth) k σ with
      | mk reply σ' =>
        rw [hrun] at heq htold' hm
        dsimp only at htold' hm
        have hreply : (Expression.rule r).answer g.scan (g.answer (depth + 1)) k = reply := heq.symm
        cases reply with
        | matched a k' =>
          have hm' := Marks.of_matched hg hreply hm
          dsimp only
          split
          · exact ⟨htold'.keep hk hm'.after, hm'⟩
          · exact ⟨htold', hm'⟩
        | refused =>
          obtain ⟨n, hn⟩ := hm.exists_some (hg.not_stumbles_of_answer heq.symm)
          have hrecord : (σ'.missRule k).farthest = some (max n k.offset) := by
            simp [Session.missRule, hn]
          rw [hn] at hm
          have hm' := Marks.of_refused hg hreply hm
          rw [← hrecord] at hm'
          have hstep := (Marks.nothing (some n)).miss k
          rw [← hn, ← hrecord] at hstep
          have htold'' : (σ'.missRule k).Told g base := htold'.record hstep
          dsimp only
          split
          · exact ⟨htold''.keep hk hm'.after, hm'⟩
          · exact ⟨htold'', hm'⟩
        | exhausted => exact absurd heq.symm hne

/-- The record of a run that starts with `o` and remembers nothing. -/
def Grammar.recordFrom (g : Grammar T R V) (r : R) (k : Cursor) (o : Option Nat) : Option Nat :=
  (g.attempt ((k.rest.length + 1) * g.height) r k
    { Session.empty V (k.offset + k.rest.length) with farthest := o }).2.farthest

theorem Grammar.Total.recordFrom_marks (hg : g.Total token rule rank) (r : R) (k : Cursor)
    (o : Option Nat) :
    Marks (g.Misses (r, k)) (g.Stumbles (.rule r) k) o (g.recordFrom r k o) := by
  let σ : Session V := { Session.empty V (k.offset + k.rest.length) with farthest := o }
  have hempty : ∀ r k, σ.kept? r k = none := fun r k => Session.kept?_empty _ r k
  have htracks := attempt_tracks hg ((k.rest.length + 1) * g.height) r (Cursor.Reaches.refl k)
  refine (htracks.run (hg.reply_ne_exhausted r k) σ ?_ ?_).2
  · intro r k reply _ h
    rw [hempty] at h
    cases h
  · intro r k reply _ h
    rw [hempty] at h
    cases h

/-- How the record of applying a rule comes about. -/
theorem Grammar.Total.apply_marks (hg : g.Total token rule rank) (r : R) (k : Cursor) :
    Marks (g.Misses (r, k)) (g.Stumbles (.rule r) k) none (g.apply r k).2 :=
  hg.recordFrom_marks r k none

end Running

namespace Grammar.Total

variable {g : Grammar T R V} {token : T → Bool} {rule : R → Bool} {rank : R → Nat}

theorem reaches_of_misses (hg : g.Total token rule rank) {c : R × Cursor} {l : Cursor}
    (h : g.Misses c l) : c.2.Reaches l := by
  obtain ⟨r, hcalls, -⟩ := h
  rcases Relation.reflTransGen_iff_eq_or_transGen.1 hcalls with heq | hcalls
  · cases heq
    exact .refl _
  · exact (hg.reaches_of_calls hcalls).1

theorem reaches_of_stumbles (hg : g.Total token rule rank) {p : Expression T R V α} {k l : Cursor}
    (h : g.Stumbles p k (some l)) : k.Reaches l := by
  have hreach : ∀ {β : Type} {p : Expression T R V β} {k a k'},
      g.Yields p k (.matched a k') → k.Reaches k' :=
    fun hy => Expression.answer_reaches g.reply_reaches (hg.answer_of_yields hy)
  generalize hx : some l = x at h
  induction h with
  | text => cases hx
  | symbol => cases hx
  | token => cases hx
  | option_end => cases hx
  | many_end => cases hx
  | many_idle => cases hx
  | many1_idle => cases hx
  | text_missed => cases hx; exact .refl _
  | symbol_missed => cases hx; exact .refl _
  | token_missed => cases hx; exact .refl _
  | many1_end => cases hx; exact .refl _
  | absent_matched => cases hx; exact .refl _
  | rule _ ih => exact ih hx
  | both _ ih => exact ih hx
  | either _ ih => exact ih hx
  | option _ _ ih => exact ih hx
  | many _ _ ih => exact ih hx
  | many1 _ _ ih => exact ih hx
  | absent _ ih => exact ih hx
  | ahead _ ih => exact ih hx
  | act _ ih => exact ih hx
  | both_right _ hy _ _ ih => exact (hreach hy).trans (ih hx)
  | many_more _ _ hy _ _ _ ih => exact (hreach hy).trans (ih hx)
  | many1_more _ _ hy _ _ _ ih => exact (hreach hy).trans (ih hx)

/-- Where a repetition stops before the end of the text, what is repeated is refused. -/
theorem refused_behind_many (hg : g.Total token rule rank) {p : Expression T R V α}
    (hp : p.idles token rule = false) {k k' : Cursor} {as : List α}
    (h : p.many.answer g.scan g.reply k = .matched as k') (hk' : k'.atEnd = false) :
    p.answer g.scan g.reply k' = .refused := by
  have hreach : ∀ k a k', p.answer g.scan g.reply k = .matched a k' → k.Reaches k' :=
    fun _ _ _ => Expression.answer_reaches g.reply_reaches
  induction hn : k.rest.length using Nat.strongRecOn generalizing k as with
  | ind n ih =>
    cases hk : k.atEnd with
    | true =>
      rw [Expression.answer, Reply.repeated_of_end hk] at h
      cases h
      rw [hk] at hk'
      cases hk'
    | false =>
      rw [answer_many_eq p hk] at h
      rcases Reply.cases_eq_matched.1 h with ⟨a, k₁, hfirst, hrest⟩ | ⟨hfirst, hrest⟩
      · have hlt := Expression.answer_lt hg.moves g.reply_reaches
          (fun _ _ _ _ => hg.answer_lt) hp hfirst
        split at hrest
        · rename_i ho
          rw [(hreach _ _ _ hfirst).eq_of_offset (.refl k) ho] at hlt
          exact absurd hlt (Nat.lt_irrefl _)
        · obtain ⟨as', k₂, hmany, hk₂⟩ := Reply.bind_eq_matched.1 hrest
          cases hk₂
          exact ih _ (by omega) hmany rfl
      · cases hrest
        exact hfirst

end Grammar.Total

end InkGauge.Peg
