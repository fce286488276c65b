import InkGauge.Peg.Run

/-!
`Grammar.answer` tries a rule afresh every time. A run that keeps replies gives the same answers:
`attempt_answers` says that whatever it matches or refuses, the plain grammar does too.
-/

namespace InkGauge.Peg

variable {T R : Type} {V : R → Type} {α β : Type}

namespace Cursor

theorem advance_advance (n m : Nat) (k : Cursor) : advance m (advance n k) = advance (n + m) k := by
  induction n generalizing k with
  | zero => simp [advance]
  | succ n ih =>
    have h : n + 1 + m = n + m + 1 := by omega
    rw [h, advance, advance, ih]

theorem next_of_end {k : Cursor} (h : k.rest = []) : k.next = k := by
  simp [next, h]

theorem advance_of_end {k : Cursor} (h : k.rest = []) (n : Nat) : advance n k = k := by
  induction n with
  | zero => rfl
  | succ n ih => rw [advance, next_of_end h, ih]

/-- Going on from the end of the text leads nowhere. -/
theorem advance_min (n : Nat) (k : Cursor) : advance n k = advance (min n k.rest.length) k := by
  by_cases h : n ≤ k.rest.length
  · rw [Nat.min_eq_left h]
  · have hl : k.rest.length ≤ n := by omega
    have he : (advance k.rest.length k).rest = [] := by simp
    have hs : n = k.rest.length + (n - k.rest.length) := by omega
    rw [Nat.min_eq_right hl, hs, ← advance_advance, advance_of_end he]

/-- `k` is `base` or a place behind it. -/
def Reaches (base k : Cursor) : Prop := ∃ n, n ≤ base.rest.length ∧ k = advance n base

theorem Reaches.refl (k : Cursor) : k.Reaches k := ⟨0, Nat.zero_le _, rfl⟩

theorem Reaches.advance {base k : Cursor} (h : base.Reaches k) (n : Nat) :
    base.Reaches (advance n k) := by
  obtain ⟨m, hm, rfl⟩ := h
  refine ⟨m + min n (base.rest.length - m), by omega, ?_⟩
  rw [advance_min n, rest_advance, List.length_drop, advance_advance]

theorem Reaches.trans {k k' k'' : Cursor} (h : k.Reaches k') (h' : k'.Reaches k'') :
    k.Reaches k'' := by
  obtain ⟨n, _, rfl⟩ := h'
  exact h.advance n

theorem Reaches.offset_le {base k : Cursor} (h : base.Reaches k) : base.offset ≤ k.offset := by
  obtain ⟨n, hn, rfl⟩ := h
  rw [offset_advance hn]
  omega

/-- Places behind one cursor are told apart by their offsets. -/
theorem Reaches.eq_of_offset {base k k' : Cursor} (h : base.Reaches k) (h' : base.Reaches k')
    (ho : k.offset = k'.offset) : k = k' := by
  obtain ⟨n, hn, rfl⟩ := h
  obtain ⟨m, hm, rfl⟩ := h'
  rw [offset_advance hn, offset_advance hm] at ho
  have hnm : n = m := by omega
  rw [hnm]

end Cursor

namespace Reply

def bind (x : Reply α) (f : α → Cursor → Reply β) : Reply β :=
  match x with
  | .matched a k => f a k
  | .refused => .refused
  | .exhausted => .exhausted

def cases (x : Reply α) (f : α → Cursor → Reply β) (g : Reply β) : Reply β :=
  match x with
  | .matched a k => f a k
  | .refused => g
  | .exhausted => .exhausted

def repeated (x : Cursor → Reply α) : Nat → List α → Cursor → Reply (List α)
  | 0, found, k => .matched found.reverse k
  | n + 1, found, k =>
    if k.atEnd then .matched found.reverse k
    else (x k).cases
      (fun a k' =>
        if k'.offset = k.offset then .matched (a :: found).reverse k'
        else repeated x n (a :: found) k')
      (.matched found.reverse k)

theorem bind_eq_matched {x : Reply α} {f : α → Cursor → Reply β} {b : β} {k : Cursor} :
    x.bind f = .matched b k ↔ ∃ a k', x = .matched a k' ∧ f a k' = .matched b k := by
  cases x <;> simp [bind, and_assoc]

theorem cases_eq_matched {x : Reply α} {f : α → Cursor → Reply β} {y : Reply β} {b : β}
    {k : Cursor} : x.cases f y = .matched b k ↔
      (∃ a k', x = .matched a k' ∧ f a k' = .matched b k) ∨ x = .refused ∧ y = .matched b k := by
  cases x <;> simp [Reply.cases, and_assoc]

/-- One match after the other, and what they yield. -/
inductive Repeats (x : Cursor → Reply α) : Cursor → List α → Cursor → Prop where
  | stop (k : Cursor) : Repeats x k [] k
  | step {k k' k'' : Cursor} {a : α} {as : List α} (head : x k = .matched a k')
      (tail : Repeats x k' as k'') : Repeats x k (a :: as) k''

theorem repeats_of_repeated {x : Cursor → Reply α} {n : Nat} {found as : List α} {k k' : Cursor}
    (h : repeated x n found k = .matched as k') :
    ∃ new, as = found.reverse ++ new ∧ Repeats x k new k' := by
  induction n generalizing found k with
  | zero =>
    cases h
    exact ⟨[], by simp, .stop _⟩
  | succ n ih =>
    unfold repeated at h
    split at h
    · cases h
      exact ⟨[], by simp, .stop _⟩
    · rcases cases_eq_matched.1 h with ⟨a, k₁, hx, hk⟩ | ⟨_, hk⟩
      · split at hk
        · cases hk
          exact ⟨[a], by simp, .step hx (.stop _)⟩
        · obtain ⟨new, rfl, hr⟩ := ih hk
          exact ⟨a :: new, by simp, .step hx hr⟩
      · cases hk
        exact ⟨[], by simp, .stop _⟩

/-- `x` is `y`, unless `x` gave up. -/
def Below (x y : Reply α) : Prop := x = .exhausted ∨ x = y

theorem Below.refl (x : Reply α) : x.Below x := .inr rfl

theorem Below.trans {x y z : Reply α} (h : x.Below y) (h' : y.Below z) : x.Below z := by
  rcases h with h | rfl
  · exact .inl h
  · exact h'

theorem exhausted_below (y : Reply α) : (exhausted : Reply α).Below y := .inl rfl

theorem Below.eq_matched {x y : Reply α} {a : α} {k : Cursor} (h : x.Below y)
    (hx : x = .matched a k) : y = .matched a k := by
  rcases h with h | h
  · rw [hx] at h
    cases h
  · rw [← h, hx]

theorem Below.bind {x y : Reply α} {f g : α → Cursor → Reply β} (h : x.Below y)
    (hf : ∀ a k, y = .matched a k → (f a k).Below (g a k)) : (x.bind f).Below (y.bind g) := by
  rcases h with rfl | rfl
  · exact exhausted_below _
  · cases x with
    | matched a k => exact hf a k rfl
    | refused => exact .refl _
    | exhausted => exact .refl _

theorem Below.cases {x y : Reply α} {f g : α → Cursor → Reply β} {x' y' : Reply β}
    (h : x.Below y) (hf : ∀ a k, y = .matched a k → (f a k).Below (g a k)) (h' : x'.Below y') :
    (x.cases f x').Below (y.cases g y') := by
  rcases h with rfl | rfl
  · exact exhausted_below _
  · cases x with
    | matched a k => exact hf a k rfl
    | refused => exact h'
    | exhausted => exact .refl _

theorem Below.repeated {x y : Cursor → Reply α} (h : ∀ k, (x k).Below (y k)) (n : Nat)
    (found : List α) (k : Cursor) : (repeated x n found k).Below (repeated y n found k) := by
  induction n generalizing found k with
  | zero => exact .refl _
  | succ n ih =>
    unfold Reply.repeated
    split
    · exact .refl _
    · apply (h k).cases _ (.refl _)
      intro a k' _
      split
      · exact .refl _
      · exact ih _ _

end Reply

/-- The reply of an expression at a place, with `call` for the rules it refers to. -/
def Expression.answer (scan : T → List Char → Option Nat) (call : (r : R) → Cursor → Reply (V r)) :
    {α : Type} → Expression T R V α → Cursor → Reply α
  | _, .text s, k =>
    if Text.startsWith s k.rest then .matched () (k.advance s.length) else .refused
  | _, .symbol table, k =>
    match firstSymbol table k.rest with
    | some (n, a) => .matched a (k.advance n)
    | none => .refused
  | _, .token t, k =>
    match scan t k.rest with
    | some n => .matched () (k.advance n)
    | none => .refused
  | _, .rule r, k => call r k
  | _, .both p q, k =>
    (answer scan call p k).bind fun a k' => (answer scan call q k').bind fun b k'' =>
      .matched (a, b) k''
  | _, .either p q, k => (answer scan call p k).cases .matched (answer scan call q k)
  | _, .option p, k =>
    if k.atEnd then .matched none k
    else (answer scan call p k).cases (fun a => .matched (some a)) (.matched none k)
  | _, .many p, k => Reply.repeated (answer scan call p) k.rest.length [] k
  | _, .many1 p, k =>
    if k.atEnd then .refused
    else (answer scan call p k).bind fun a k' =>
      if k'.offset = k.offset then .matched [a] k'
      else Reply.repeated (answer scan call p) k'.rest.length [a] k'
  | _, .absent p, k => (answer scan call p k).cases (fun _ _ => .refused) (.matched () k)
  | _, .ahead p, k => (answer scan call p k).bind fun _ _ => .matched () k
  | _, .act f p, k =>
    (answer scan call p k).bind fun a k' => .matched (f ⟨k, k'.offset⟩ a) k'

/-- The reply of a rule at a place, with at most `depth` rules open at once. -/
def Grammar.answer (g : Grammar T R V) : Nat → (r : R) → Cursor → Reply (V r)
  | 0, _, _ => .exhausted
  | depth + 1, r, k => (g.body r).answer g.scan (g.answer depth) k

theorem firstSymbol_some {table : List (Symbol α)} {s : List Char} {n : Nat} {a : α}
    (h : firstSymbol table s = some (n, a)) :
    ∃ x ∈ table, n = x.spelling.length ∧ x.spelling <+: s := by
  induction table with
  | nil => cases h
  | cons x table ih =>
    unfold firstSymbol at h
    split at h
    · rename_i rest hx
      cases h
      refine ⟨x, by simp, rfl, ?_⟩
      have hd : ∃ r, Text.dropPrefix? x.spelling s = some r := by
        unfold Symbol.take? at hx
        split at hx
        · rename_i hd
          exact ⟨_, hd⟩
        · exact ⟨_, hx⟩
      obtain ⟨r, hr⟩ := hd
      exact ⟨r, (Text.dropPrefix?_eq_some hr).symm⟩
    · obtain ⟨y, hy, hn, hp⟩ := ih h
      exact ⟨y, by simp [hy], hn, hp⟩

section Matches

variable {scan : T → List Char → Option Nat} {call : (r : R) → Cursor → Reply (V r)}

-- The equations of `answer` are made here, once for all the lemmas below.
attribute [local simp] Expression.answer

theorem Expression.answer_text {s : List Char} {k k' : Cursor} {a : Unit} :
    (Expression.text s : Expression T R V Unit).answer scan call k = .matched a k' ↔
      Text.startsWith s k.rest = true ∧ k' = k.advance s.length := by
  unfold answer
  split <;> simp [*, eq_comm]

theorem Expression.answer_symbol {table : List (Symbol α)} {k k' : Cursor} {a : α} :
    (Expression.symbol table : Expression T R V α).answer scan call k = .matched a k' ↔
      ∃ n, firstSymbol table k.rest = some (n, a) ∧ k' = k.advance n := by
  unfold answer
  cases h : firstSymbol table k.rest with
  | none => simp
  | some x =>
    obtain ⟨n, b⟩ := x
    simp only [Reply.matched.injEq, Option.some.injEq, Prod.mk.injEq]
    grind

theorem Expression.answer_token {t : T} {k k' : Cursor} {a : Unit} :
    (Expression.token t : Expression T R V Unit).answer scan call k = .matched a k' ↔
      ∃ n, scan t k.rest = some n ∧ k' = k.advance n := by
  unfold answer
  cases h : scan t k.rest <;> simp [eq_comm]

theorem Expression.answer_both {p : Expression T R V α} {q : Expression T R V β} {k k'' : Cursor}
    {x : α × β} : (p.both q).answer scan call k = .matched x k'' ↔
      ∃ k', p.answer scan call k = .matched x.1 k' ∧ q.answer scan call k' = .matched x.2 k'' := by
  rw [answer]
  simp only [Reply.bind_eq_matched, Reply.matched.injEq]
  constructor
  · rintro ⟨a, k', hp, b, k'', hq, rfl, rfl⟩
    exact ⟨k', hp, hq⟩
  · rintro ⟨k', hp, hq⟩
    exact ⟨x.1, k', hp, x.2, k'', hq, rfl, rfl⟩

theorem Expression.answer_either {p q : Expression T R V α} {k k' : Cursor} {a : α} :
    (p.either q).answer scan call k = .matched a k' ↔
      p.answer scan call k = .matched a k' ∨
        p.answer scan call k = .refused ∧ q.answer scan call k = .matched a k' := by
  rw [answer, Reply.cases_eq_matched]
  simp

theorem Expression.answer_option {p : Expression T R V α} {k k' : Cursor} {x : Option α} :
    p.option.answer scan call k = .matched x k' →
      (∃ a, x = some a ∧ p.answer scan call k = .matched a k') ∨ x = none ∧ k' = k := by
  intro h
  unfold answer at h
  split at h
  · cases h
    exact .inr ⟨rfl, rfl⟩
  · rcases Reply.cases_eq_matched.1 h with ⟨a, k₁, hp, he⟩ | ⟨_, he⟩
    · cases he
      exact .inl ⟨a, rfl, hp⟩
    · cases he
      exact .inr ⟨rfl, rfl⟩

theorem Expression.answer_many {p : Expression T R V α} {k k' : Cursor} {as : List α}
    (h : p.many.answer scan call k = .matched as k') :
    Reply.Repeats (p.answer scan call) k as k' := by
  obtain ⟨new, rfl, hr⟩ := Reply.repeats_of_repeated h
  exact hr

theorem Expression.answer_many1 {p : Expression T R V α} {k k' : Cursor} {as : List α}
    (h : p.many1.answer scan call k = .matched as k') :
    as ≠ [] ∧ Reply.Repeats (p.answer scan call) k as k' := by
  unfold answer at h
  split at h
  · cases h
  · obtain ⟨a, k₁, hp, hk⟩ := Reply.bind_eq_matched.1 h
    split at hk
    · cases hk
      exact ⟨by simp, .step hp (.stop _)⟩
    · obtain ⟨new, rfl, hr⟩ := Reply.repeats_of_repeated hk
      exact ⟨by simp, .step hp hr⟩

theorem Expression.answer_absent {p : Expression T R V α} {k k' : Cursor} {a : Unit} :
    p.absent.answer scan call k = .matched a k' ↔
      p.answer scan call k = .refused ∧ k' = k := by
  rw [answer, Reply.cases_eq_matched]
  simp [eq_comm]

theorem Expression.answer_ahead {p : Expression T R V α} {k k' : Cursor} {a : Unit} :
    p.ahead.answer scan call k = .matched a k' ↔
      (∃ b k₁, p.answer scan call k = .matched b k₁) ∧ k' = k := by
  rw [answer, Reply.bind_eq_matched]
  simp [eq_comm]

theorem Expression.answer_act {f : Slice → α → β} {p : Expression T R V α} {k k' : Cursor} {b : β} :
    (Expression.act f p).answer scan call k = .matched b k' ↔
      ∃ a, p.answer scan call k = .matched a k' ∧ b = f ⟨k, k'.offset⟩ a := by
  rw [answer, Reply.bind_eq_matched]
  constructor
  · rintro ⟨a, k₁, hp, he⟩
    cases he
    exact ⟨a, hp, rfl⟩
  · rintro ⟨a, hp, rfl⟩
    exact ⟨a, k', hp, rfl⟩

theorem Reply.Repeats.reaches {x : Cursor → Reply α} {k k' : Cursor} {as : List α}
    (hx : ∀ k a k', x k = .matched a k' → k.Reaches k') (h : Repeats x k as k') :
    k.Reaches k' := by
  induction h with
  | stop k => exact .refl k
  | step head _ ih => exact (hx _ _ _ head).trans ih

/-- Matching never goes back. -/
theorem Expression.answer_reaches (hc : ∀ r k a k', call r k = .matched a k' → k.Reaches k')
    {p : Expression T R V α} {k k' : Cursor} {a : α} (h : p.answer scan call k = .matched a k') :
    k.Reaches k' := by
  induction p generalizing k k' with
  | text s =>
    obtain ⟨_, rfl⟩ := answer_text.1 h
    exact (Cursor.Reaches.refl k).advance _
  | symbol table =>
    obtain ⟨n, _, rfl⟩ := answer_symbol.1 h
    exact (Cursor.Reaches.refl k).advance n
  | token t =>
    obtain ⟨n, _, rfl⟩ := answer_token.1 h
    exact (Cursor.Reaches.refl k).advance n
  | rule r => exact hc r k a k' h
  | both p q ihp ihq =>
    obtain ⟨k₁, hp, hq⟩ := answer_both.1 h
    exact (ihp hp).trans (ihq hq)
  | either p q ihp ihq =>
    rcases answer_either.1 h with hp | ⟨_, hq⟩
    · exact ihp hp
    · exact ihq hq
  | option p ih =>
    rcases answer_option h with ⟨a, _, hp⟩ | ⟨_, rfl⟩
    · exact ih hp
    · exact .refl _
  | many p ih => exact (answer_many h).reaches fun _ _ _ => ih
  | many1 p ih => exact (answer_many1 h).2.reaches fun _ _ _ => ih
  | absent p ih =>
    obtain ⟨_, rfl⟩ := answer_absent.1 h
    exact .refl _
  | ahead p ih =>
    obtain ⟨_, rfl⟩ := answer_ahead.1 h
    exact .refl _
  | act f p ih =>
    obtain ⟨_, hp, _⟩ := answer_act.1 h
    exact ih hp

end Matches

theorem Grammar.answer_reaches (g : Grammar T R V) {n : Nat} {r : R} {k k' : Cursor} {a : V r}
    (h : g.answer n r k = .matched a k') : k.Reaches k' := by
  induction n generalizing r k k' with
  | zero => cases h
  | succ n ih =>
    have hc : ∀ r k a k', g.answer n r k = .matched a k' → k.Reaches k' := fun _ _ _ _ => ih
    exact Expression.answer_reaches hc h

theorem Expression.answer_below {scan : T → List Char → Option Nat}
    {call call' : (r : R) → Cursor → Reply (V r)} (h : ∀ r k, (call r k).Below (call' r k))
    (p : Expression T R V α) (k : Cursor) : (p.answer scan call k).Below
        (p.answer scan call' k) := by
  induction p generalizing k with
  | text s => exact .refl _
  | symbol table => exact .refl _
  | token t => exact .refl _
  | rule r => exact h r k
  | both p q ihp ihq =>
    exact (ihp k).bind fun a k' _ => (ihq k').bind fun b k'' _ => .refl _
  | either p q ihp ihq => exact (ihp k).cases (fun _ _ _ => .refl _) (ihq k)
  | option p ih =>
    unfold answer
    split
    · exact .refl _
    · exact (ih k).cases (fun _ _ _ => .refl _) (.refl _)
  | many p ih => exact Reply.Below.repeated ih _ _ _
  | many1 p ih =>
    unfold answer
    split
    · exact .refl _
    · apply (ih k).bind
      intro a k' _
      split
      · exact .refl _
      · exact Reply.Below.repeated ih _ _ _
  | absent p ih => exact (ih k).cases (fun _ _ _ => .refl _) (.refl _)
  | ahead p ih => exact (ih k).bind fun _ _ _ => .refl _
  | act f p ih => exact (ih k).bind fun _ _ _ => .refl _

/-- With more depth a grammar answers the same, or answers where it gave up before. -/
theorem Grammar.answer_below (g : Grammar T R V) {n m : Nat} (h : n ≤ m) (r : R) (k : Cursor) :
    (g.answer n r k).Below (g.answer m r k) := by
  induction n generalizing m r k with
  | zero => exact Reply.exhausted_below _
  | succ n ih =>
    cases m with
    | zero => omega
    | succ m => exact Expression.answer_below (fun r k => ih (Nat.le_of_succ_le_succ h) r k) _ _

section Remembering

variable [DecidableEq R] {g : Grammar T R V} {base : Cursor}

/-- Every reply that is kept is one that the plain grammar gives. -/
def Session.Sound (g : Grammar T R V) (base : Cursor) (σ : Session V) : Prop :=
  ∀ r k reply, base.Reaches k → σ.kept? r k = some reply → ∃ n, reply.Below (g.answer n r k)

theorem Session.kept?_empty (n : Nat) (r : R) (k : Cursor) :
    (Session.empty V n).kept? r k = none := by
  unfold Session.kept? Session.empty
  rw [Array.getElem?_replicate]
  split <;> rfl

/-- A reply that is found is the one just kept, or was there before. -/
theorem Session.kept?_keep {σ : Session V} {r r' : R} {k k' : Cursor} {reply : Reply (V r)}
    {reply' : Reply (V r')} (h : (σ.keep r k reply).kept? r' k' = some reply') :
    (k.offset = k'.offset ∧ ∃ hr : r = r', hr ▸ reply = reply') ∨ σ.kept? r' k' = some reply' := by
  unfold Session.kept? Session.keep at h
  rw [Array.getElem?_modify] at h
  by_cases ho : k.offset = k'.offset
  · rw [if_pos ho] at h
    obtain ⟨es, hes, hf⟩ := Option.bind_eq_some_iff.1 h
    obtain ⟨old, hold, rfl⟩ := Option.map_eq_some_iff.1 hes
    unfold Session.find at hf
    split at hf
    · rename_i he
      exact .inl ⟨ho, he, Option.some.inj hf⟩
    · exact .inr (Option.bind_eq_some_iff.2 ⟨old, hold, hf⟩)
  · rw [if_neg ho] at h
    exact .inr h

theorem Session.sound_empty (n : Nat) : (Session.empty V n).Sound g base := by
  intro r k reply _ h
  exact absurd h (by simp [kept?_empty])

theorem Session.Sound.keep {σ : Session V} (h : σ.Sound g base) {r : R} {k : Cursor}
    {reply : Reply (V r)} (hk : base.Reaches k) (hr : ∃ n, reply.Below (g.answer n r k)) :
    (σ.keep r k reply).Sound g base := by
  intro r' k' reply' hk' h'
  rcases Session.kept?_keep h' with ⟨ho, rfl, rfl⟩ | hold
  · rw [← hk.eq_of_offset hk' ho]
    exact hr
  · exact h r' k' reply' hk' hold

/-- What a run tries, and what it comes to without a memory at each depth. -/
structure Agrees (g : Grammar T R V) (base : Cursor) (x : Attempt V α) (y : Nat → Reply α) :
    Prop where
  rises : ∀ {n m}, n ≤ m → (y n).Below (y m)
  reaches : ∀ {n a k}, y n = .matched a k → base.Reaches k
  run : ∀ {σ}, σ.Sound g base → (x σ).2.Sound g base ∧ ∃ n, (x σ).1.Below (y n)

namespace Agrees

theorem matched {a : α} {k : Cursor} (hk : base.Reaches k) :
    Agrees g base (Attempt.matched a k) fun _ => .matched a k where
  rises _ := .refl _
  reaches h := by
    cases h
    exact hk
  run hσ := ⟨hσ, 0, .refl _⟩

theorem missed (k : Cursor) : Agrees g base (Attempt.missed k : Attempt V α) fun _ => .refused where
  rises _ := .refl _
  reaches h := by cases h
  run hσ := ⟨hσ, 0, .refl _⟩

theorem refused : Agrees g base (fun σ => ((.refused : Reply α), σ)) fun _ => .refused where
  rises _ := .refl _
  reaches h := by cases h
  run hσ := ⟨hσ, 0, .refl _⟩

theorem cases {x : Attempt V α} {y : Nat → Reply α} {f : α → Cursor → Attempt V β}
    {f' : Nat → α → Cursor → Reply β} {z : Attempt V β} {z' : Nat → Reply β}
    (hx : Agrees g base x y)
    (hf : ∀ a k, base.Reaches k → Agrees g base (f a k) fun n => f' n a k)
    (hz : Agrees g base z z') :
    Agrees g base (Attempt.cases x f z) fun n => (y n).cases (f' n) (z' n) where
  rises hnm := (hx.rises hnm).cases (fun a k h => (hf a k (hx.reaches h)).rises hnm) (hz.rises hnm)
  reaches {n b k} h := by
    cases hy : y n with
    | matched a k' =>
      rw [hy] at h
      exact (hf a k' (hx.reaches hy)).reaches h
    | refused =>
      rw [hy] at h
      exact hz.reaches h
    | exhausted => rw [hy] at h; cases h
  run {σ} hσ := by
    obtain ⟨hs, n, hn⟩ := hx.run hσ
    unfold Attempt.cases
    cases hxs : x σ with
    | mk reply σ' =>
      rw [hxs] at hs hn
      cases reply with
      | matched a k =>
        have hy := hn.eq_matched rfl
        obtain ⟨hs', m, hm⟩ := (hf a k (hx.reaches hy)).run hs
        refine ⟨hs', max n m, ?_⟩
        rw [(hx.rises (Nat.le_max_left n m)).eq_matched hy]
        exact hm.trans ((hf a k (hx.reaches hy)).rises (Nat.le_max_right n m))
      | refused =>
        obtain ⟨hs', m, hm⟩ := hz.run hs
        have hy : Reply.refused.Below (y (max n m)) := hn.trans (hx.rises (Nat.le_max_left n m))
        refine ⟨hs', max n m, ?_⟩
        rcases hy with hy | hy
        · cases hy
        · rw [← hy]
          exact hm.trans (hz.rises (Nat.le_max_right n m))
      | exhausted => exact ⟨hs, n, Reply.exhausted_below _⟩

theorem bind {x : Attempt V α} {y : Nat → Reply α} {f : α → Cursor → Attempt V β}
    {f' : Nat → α → Cursor → Reply β} (hx : Agrees g base x y)
    (hf : ∀ a k, base.Reaches k → Agrees g base (f a k) fun n => f' n a k) :
    Agrees g base (Attempt.bind x f) fun n => (y n).bind (f' n) :=
  hx.cases hf refused

theorem repeated {x : Cursor → Attempt V α} {y : Nat → Cursor → Reply α}
    (hx : ∀ k, base.Reaches k → Agrees g base (x k) fun n => y n k) (n : Nat) (found : List α)
    {k : Cursor} (hk : base.Reaches k) :
    Agrees g base (Attempt.repeated x n found k) fun m => Reply.repeated (y m) n found k := by
  induction n generalizing found k with
  | zero => exact .matched hk
  | succ n ih =>
    unfold Attempt.repeated Reply.repeated
    split
    · exact .matched hk
    · refine (hx k hk).cases (fun a k' hk' => ?_) (.matched hk)
      split
      · exact .matched hk'
      · exact ih _ hk'

end Agrees

theorem Expression.run_agrees {call : (r : R) → Cursor → Attempt V (V r)}
    (hc : ∀ r k, base.Reaches k → Agrees g base (call r k) fun n => g.answer n r k)
    (p : Expression T R V α) {k : Cursor} (hk : base.Reaches k) :
    Agrees g base (p.run g.scan call k) fun n => p.answer g.scan (g.answer n) k := by
  induction p generalizing k with
  | text s =>
    unfold run answer
    split
    · exact .matched (hk.advance _)
    · exact .missed k
  | symbol table =>
    unfold run answer
    cases firstSymbol table k.rest with
    | some x => exact .matched (hk.advance _)
    | none => exact .missed k
  | token t =>
    unfold run answer
    cases g.scan t k.rest with
    | some n => exact .matched (hk.advance _)
    | none => exact .missed k
  | rule r => exact hc r k hk
  | both p q ihp ihq =>
    exact (ihp hk).bind fun a k' hk' => (ihq hk').bind fun b k'' hk'' => .matched hk''
  | either p q ihp ihq => exact (ihp hk).cases (fun a k' hk' => .matched hk') (ihq hk)
  | option p ih =>
    unfold run answer
    split
    · exact .matched hk
    · exact (ih hk).cases (fun a k' hk' => .matched hk') (.matched hk)
  | many p ih => exact Agrees.repeated (fun k hk => ih hk) _ _ hk
  | many1 p ih =>
    unfold run answer
    split
    · exact .missed k
    · refine (ih hk).bind fun a k' hk' => ?_
      split
      · exact .matched hk'
      · exact Agrees.repeated (fun k hk => ih hk) _ _ hk'
  | absent p ih => exact (ih hk).cases (fun a k' hk' => .missed k) (.matched hk)
  | ahead p ih => exact (ih hk).bind fun a k' hk' => .matched hk
  | act f p ih => exact (ih hk).bind fun a k' hk' => .matched hk'

theorem Grammar.attempt_agrees (g : Grammar T R V) (depth : Nat) (r : R) {k : Cursor}
    (hk : base.Reaches k) :
    Agrees g base (g.attempt depth r k) fun n => g.answer n r k := by
  refine ⟨fun h => g.answer_below h r k, fun h => hk.trans (g.answer_reaches h), ?_⟩
  induction depth generalizing r k with
  | zero => exact fun hσ => ⟨hσ, 0, Reply.exhausted_below _⟩
  | succ depth ih =>
    intro σ hσ
    have hb := Expression.run_agrees (fun r k hk =>
      ⟨fun h => g.answer_below h r k, fun h => hk.trans (g.answer_reaches h), ih r hk⟩) (g.body r) hk
    obtain ⟨hs, n, hn⟩ := hb.run hσ
    have hn : ∃ m, ((g.body r).run g.scan (g.attempt depth) k σ).1.Below (g.answer m r k) :=
      ⟨n + 1, hn⟩
    unfold Grammar.attempt
    dsimp only
    cases hkept : (if g.keeps r then σ.kept? r k else none) with
    | some reply =>
      have hsome : σ.kept? r k = some reply := by
        split at hkept
        · exact hkept
        · cases hkept
      exact ⟨hσ, hσ r k reply hk hsome⟩
    | none =>
      cases hrun : (g.body r).run g.scan (g.attempt depth) k σ with
      | mk reply σ' =>
        rw [hrun] at hs hn
        cases reply with
        | matched a k' =>
          refine ⟨?_, hn⟩
          dsimp only
          split
          · exact hs.keep hk hn
          · exact hs
        | refused =>
          refine ⟨?_, hn⟩
          dsimp only
          split
          · exact Session.Sound.keep hs hk hn
          · exact hs
        | exhausted => exact ⟨hs, hn⟩

/-- What a rule matches at a place, the plain grammar matches there. -/
theorem Grammar.apply_matched (g : Grammar T R V) {r : R} {k k' : Cursor} {a : V r}
    (h : (g.apply r k).1 = .matched a k') : ∃ n, g.answer n r k = .matched a k' := by
  have ha := g.attempt_agrees ((k.rest.length + 1) * g.height) r (Cursor.Reaches.refl k)
  obtain ⟨_, n, hn⟩ := ha.run (Session.sound_empty (k.offset + k.rest.length))
  exact ⟨n, hn.eq_matched h⟩

end Remembering

end InkGauge.Peg
