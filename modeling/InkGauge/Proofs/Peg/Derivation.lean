import InkGauge.Proofs.Peg.Parallel
import InkGauge.Proofs.Peg.Total
import Mathlib.Logic.Relation

/-!
`Grammar.Yields` derives what an expression comes to from what its parts come to. Nothing in it
counts rounds or open rules, and a derivation is finite, so an expression that has one is evaluated
in finitely many steps. `Grammar.Tries` says which rules are tried on the way, and `Grammar.Calls`
which rule another one opens, and where.

In a grammar that is total every expression has exactly one derivation, and the answers of a run are
what is derived. Each call leads on in the text, or stays at its place and goes down in rank: no
chain of calls goes on for ever, and none comes back to a rule at its place.
-/

namespace InkGauge.Peg

variable {T R : Type} {V : R → Type} {α β : Type}

/-- What an expression comes to at a place. -/
inductive Grammar.Yields (g : Grammar T R V) :
    {α : Type} → Expression T R V α → Cursor → Reply α → Prop where
  | text {s : List Char} {k : Cursor} (h : Text.startsWith s k.rest = true) :
    g.Yields (.text s) k (.matched () (k.advance s.length))
  | text_missed {s : List Char} {k : Cursor} (h : Text.startsWith s k.rest = false) :
    g.Yields (.text s) k .refused
  | symbol {α : Type} {table : List (Symbol α)} {k : Cursor} {n : Nat} {a : α}
    (h : firstSymbol table k.rest = some (n, a)) :
    g.Yields (.symbol table) k (.matched a (k.advance n))
  | symbol_missed {α : Type} {table : List (Symbol α)} {k : Cursor}
    (h : firstSymbol table k.rest = none) : g.Yields (.symbol table) k .refused
  | token {t : T} {k : Cursor} {n : Nat} (h : g.scan t k.rest = some n) :
    g.Yields (.token t) k (.matched () (k.advance n))
  | token_missed {t : T} {k : Cursor} (h : g.scan t k.rest = none) :
    g.Yields (.token t) k .refused
  | rule {r : R} {k : Cursor} {x : Reply (V r)} (h : g.Yields (g.body r) k x) :
    g.Yields (.rule r) k x
  | both {α β : Type} {p : Expression T R V α} {q : Expression T R V β} {k k' k'' : Cursor} {a : α}
    {b : β} (hp : g.Yields p k (.matched a k')) (hq : g.Yields q k' (.matched b k'')) :
    g.Yields (.both p q) k (.matched (a, b) k'')
  | both_left {α β : Type} {p : Expression T R V α} {q : Expression T R V β} {k : Cursor}
    (hp : g.Yields p k .refused) : g.Yields (.both p q) k .refused
  | both_right {α β : Type} {p : Expression T R V α} {q : Expression T R V β} {k k' : Cursor}
    {a : α} (hp : g.Yields p k (.matched a k')) (hq : g.Yields q k' .refused) :
    g.Yields (.both p q) k .refused
  | either {α : Type} {p q : Expression T R V α} {k k' : Cursor} {a : α}
    (hp : g.Yields p k (.matched a k')) : g.Yields (.either p q) k (.matched a k')
  | either_right {α : Type} {p q : Expression T R V α} {k : Cursor} {x : Reply α}
    (hp : g.Yields p k .refused) (hq : g.Yields q k x) : g.Yields (.either p q) k x
  | option_end {α : Type} {p : Expression T R V α} {k : Cursor} (hk : k.atEnd = true) :
    g.Yields (.option p) k (.matched none k)
  | option {α : Type} {p : Expression T R V α} {k k' : Cursor} {a : α} (hk : k.atEnd = false)
    (hp : g.Yields p k (.matched a k')) : g.Yields (.option p) k (.matched (some a) k')
  | option_missed {α : Type} {p : Expression T R V α} {k : Cursor} (hk : k.atEnd = false)
    (hp : g.Yields p k .refused) : g.Yields (.option p) k (.matched none k)
  | many_end {α : Type} {p : Expression T R V α} {k : Cursor} (hk : k.atEnd = true) :
    g.Yields (.many p) k (.matched [] k)
  | many_missed {α : Type} {p : Expression T R V α} {k : Cursor} (hk : k.atEnd = false)
    (hp : g.Yields p k .refused) : g.Yields (.many p) k (.matched [] k)
  /-- A round that reads nothing is the last. -/
  | many_idle {α : Type} {p : Expression T R V α} {k k' : Cursor} {a : α} (hk : k.atEnd = false)
    (hp : g.Yields p k (.matched a k')) (ho : k'.offset = k.offset) :
    g.Yields (.many p) k (.matched [a] k')
  | many_more {α : Type} {p : Expression T R V α} {k k' k'' : Cursor} {a : α} {as : List α}
    (hk : k.atEnd = false) (hp : g.Yields p k (.matched a k')) (ho : k'.offset ≠ k.offset)
    (hrest : g.Yields (.many p) k' (.matched as k'')) :
    g.Yields (.many p) k (.matched (a :: as) k'')
  | many1_end {α : Type} {p : Expression T R V α} {k : Cursor} (hk : k.atEnd = true) :
    g.Yields (.many1 p) k .refused
  | many1_missed {α : Type} {p : Expression T R V α} {k : Cursor} (hk : k.atEnd = false)
    (hp : g.Yields p k .refused) : g.Yields (.many1 p) k .refused
  | many1_idle {α : Type} {p : Expression T R V α} {k k' : Cursor} {a : α} (hk : k.atEnd = false)
    (hp : g.Yields p k (.matched a k')) (ho : k'.offset = k.offset) :
    g.Yields (.many1 p) k (.matched [a] k')
  | many1_more {α : Type} {p : Expression T R V α} {k k' k'' : Cursor} {a : α} {as : List α}
    (hk : k.atEnd = false) (hp : g.Yields p k (.matched a k')) (ho : k'.offset ≠ k.offset)
    (hrest : g.Yields (.many p) k' (.matched as k'')) :
    g.Yields (.many1 p) k (.matched (a :: as) k'')
  | absent {α : Type} {p : Expression T R V α} {k k' : Cursor} {a : α}
    (hp : g.Yields p k (.matched a k')) : g.Yields (.absent p) k .refused
  | absent_missed {α : Type} {p : Expression T R V α} {k : Cursor} (hp : g.Yields p k .refused) :
    g.Yields (.absent p) k (.matched () k)
  | ahead {α : Type} {p : Expression T R V α} {k k' : Cursor} {a : α}
    (hp : g.Yields p k (.matched a k')) : g.Yields (.ahead p) k (.matched () k)
  | ahead_missed {α : Type} {p : Expression T R V α} {k : Cursor} (hp : g.Yields p k .refused) :
    g.Yields (.ahead p) k .refused
  | act {α β : Type} {f : Slice → α → β} {p : Expression T R V α} {k k' : Cursor} {a : α}
    (hp : g.Yields p k (.matched a k')) :
    g.Yields (.act f p) k (.matched (f ⟨k, k'.offset⟩ a) k')
  | act_missed {α β : Type} {f : Slice → α → β} {p : Expression T R V α} {k : Cursor}
    (hp : g.Yields p k .refused) : g.Yields (.act f p) k .refused

/-- Evaluating the expression at the first place comes to try the rule at the second. -/
inductive Grammar.Tries (g : Grammar T R V) :
    {α : Type} → Expression T R V α → Cursor → R → Cursor → Prop where
  | rule (r : R) (k : Cursor) : g.Tries (.rule r) k r k
  | both {α β : Type} {p : Expression T R V α} {q : Expression T R V β} {k l : Cursor} {r : R}
    (h : g.Tries p k r l) : g.Tries (.both p q) k r l
  | both_right {α β : Type} {p : Expression T R V α} {q : Expression T R V β} {k k' l : Cursor}
      {r : R} {a : α}
    (hp : g.Yields p k (.matched a k')) (h : g.Tries q k' r l) : g.Tries (.both p q) k r l
  | either {α : Type} {p q : Expression T R V α} {k l : Cursor} {r : R} (h : g.Tries p k r l) :
    g.Tries (.either p q) k r l
  | either_right {α : Type} {p q : Expression T R V α} {k l : Cursor} {r : R}
    (hp : g.Yields p k .refused) (h : g.Tries q k r l) : g.Tries (.either p q) k r l
  | option {α : Type} {p : Expression T R V α} {k l : Cursor} {r : R} (hk : k.atEnd = false)
    (h : g.Tries p k r l) : g.Tries (.option p) k r l
  | many {α : Type} {p : Expression T R V α} {k l : Cursor} {r : R} (hk : k.atEnd = false)
    (h : g.Tries p k r l) : g.Tries (.many p) k r l
  | many_more {α : Type} {p : Expression T R V α} {k k' l : Cursor} {r : R} {a : α}
    (hk : k.atEnd = false) (hp : g.Yields p k (.matched a k')) (ho : k'.offset ≠ k.offset)
    (h : g.Tries (.many p) k' r l) : g.Tries (.many p) k r l
  | many1 {α : Type} {p : Expression T R V α} {k l : Cursor} {r : R} (hk : k.atEnd = false)
    (h : g.Tries p k r l) : g.Tries (.many1 p) k r l
  | many1_more {α : Type} {p : Expression T R V α} {k k' l : Cursor} {r : R} {a : α}
    (hk : k.atEnd = false) (hp : g.Yields p k (.matched a k')) (ho : k'.offset ≠ k.offset)
    (h : g.Tries (.many p) k' r l) : g.Tries (.many1 p) k r l
  | absent {α : Type} {p : Expression T R V α} {k l : Cursor} {r : R} (h : g.Tries p k r l) :
    g.Tries (.absent p) k r l
  | ahead {α : Type} {p : Expression T R V α} {k l : Cursor} {r : R} (h : g.Tries p k r l) :
    g.Tries (.ahead p) k r l
  | act {α β : Type} {f : Slice → α → β} {p : Expression T R V α} {k l : Cursor} {r : R}
    (h : g.Tries p k r l) : g.Tries (.act f p) k r l

/-- A rule that is evaluated at a place tries another rule at another place. The rules that are open
at once in an evaluation form a chain of such calls. -/
def Grammar.Calls (g : Grammar T R V) (c c' : R × Cursor) : Prop :=
  g.Tries (g.body c.1) c.2 c'.1 c'.2

/-- The first expression is what is repeated in some part of the second. -/
inductive Expression.Repeated (p : Expression T R V α) :
    {β : Type} → Expression T R V β → Prop where
  | many : p.Repeated (.many p)
  | many1 : p.Repeated (.many1 p)
  | inMany {β : Type} {q : Expression T R V β} (h : p.Repeated q) : p.Repeated (.many q)
  | inMany1 {β : Type} {q : Expression T R V β} (h : p.Repeated q) : p.Repeated (.many1 q)
  | left {β γ : Type} {q : Expression T R V β} {q' : Expression T R V γ} (h : p.Repeated q) :
    p.Repeated (.both q q')
  | right {β γ : Type} {q : Expression T R V β} {q' : Expression T R V γ} (h : p.Repeated q') :
    p.Repeated (.both q q')
  | first {β : Type} {q q' : Expression T R V β} (h : p.Repeated q) : p.Repeated (.either q q')
  | second {β : Type} {q q' : Expression T R V β} (h : p.Repeated q') : p.Repeated (.either q q')
  | option {β : Type} {q : Expression T R V β} (h : p.Repeated q) : p.Repeated (.option q)
  | absent {β : Type} {q : Expression T R V β} (h : p.Repeated q) : p.Repeated (.absent q)
  | ahead {β : Type} {q : Expression T R V β} (h : p.Repeated q) : p.Repeated (.ahead q)
  | act {β γ : Type} {f : Slice → β → γ} {q : Expression T R V β} (h : p.Repeated q) :
    p.Repeated (.act f q)

theorem Cursor.atEnd_of_length_le {k : Cursor} (h : k.rest.length ≤ 0) : k.atEnd = true := by
  have hrest : k.rest = [] := List.length_eq_zero_iff.1 (Nat.le_zero.1 h)
  simp [atEnd, hrest]

namespace Reply

/-- The values found before go in front. -/
theorem repeated_found (x : Cursor → Reply α) (n : Nat) (found : List α) (k : Cursor) :
    repeated x n found k =
      (repeated x n [] k).bind fun as k' => .matched (found.reverse ++ as) k' := by
  induction n generalizing found k with
  | zero => simp [repeated, Reply.bind]
  | succ n ih =>
    unfold repeated
    split
    · simp [Reply.bind]
    · cases x k with
      | matched a k' =>
        dsimp only [Reply.cases]
        split
        · simp [Reply.bind]
        · rw [ih (a :: found), ih [a]]
          cases repeated x n [] k' <;> simp [Reply.bind]
      | refused => simp [Reply.cases, Reply.bind]
      | exhausted => rfl

theorem repeated_ne_refused (x : Cursor → Reply α) (n : Nat) (found : List α) (k : Cursor) :
    repeated x n found k ≠ .refused := by
  induction n generalizing found k with
  | zero => simp [repeated]
  | succ n ih =>
    unfold repeated
    split
    · simp
    · cases x k with
      | matched a k' =>
        dsimp only [Reply.cases]
        split
        · simp
        · exact ih _ _
      | refused => simp [Reply.cases]
      | exhausted => simp [Reply.cases]

/-- Every round but the last reads something, so there is no use for more rounds than characters. -/
theorem repeated_enough {x : Cursor → Reply α}
    (hreach : ∀ k a k', x k = .matched a k' → k.Reaches k') {n m : Nat} {k : Cursor}
    (hn : k.rest.length ≤ n) (hm : k.rest.length ≤ m) (found : List α) :
    repeated x n found k = repeated x m found k := by
  induction n generalizing m k found with
  | zero =>
    have hend := Cursor.atEnd_of_length_le hn
    rw [repeated_of_end hend, repeated_of_end hend]
  | succ n ih =>
    cases m with
    | zero =>
      have hend := Cursor.atEnd_of_length_le hm
      rw [repeated_of_end hend, repeated_of_end hend]
    | succ m =>
      unfold repeated
      split
      · rfl
      · cases hx : x k with
        | matched a k' =>
          dsimp only [Reply.cases]
          split
          · rfl
          · rename_i ho
            have hlt := (hreach k a k' hx).lt_of_offset_ne ho
            exact ih (by omega) (by omega) _
        | refused => rfl
        | exhausted => rfl

theorem bind_ne_refused {x : Reply α} {f : α → Cursor → Reply β} (hx : x ≠ .refused)
    (hf : ∀ a k, f a k ≠ .refused) : x.bind f ≠ .refused := by
  cases x with
  | matched a k => exact hf a k
  | refused => exact absurd rfl hx
  | exhausted => simp [Reply.bind]

/-- A bind that was not given up went on behind a match, or was refused. -/
theorem of_bind {x : Reply α} {f : α → Cursor → Reply β} {y : Reply β} (h : x.bind f = y)
    (hne : y ≠ .exhausted) :
    (∃ a k, x = .matched a k ∧ f a k = y) ∨ x = .refused ∧ y = .refused := by
  cases x with
  | matched a k => exact .inl ⟨a, k, rfl, h⟩
  | refused => exact .inr ⟨rfl, h.symm⟩
  | exhausted => exact absurd h.symm hne

theorem of_cases {x : Reply α} {f : α → Cursor → Reply β} {z y : Reply β} (h : x.cases f z = y)
    (hne : y ≠ .exhausted) :
    (∃ a k, x = .matched a k ∧ f a k = y) ∨ x = .refused ∧ z = y := by
  cases x with
  | matched a k => exact .inl ⟨a, k, rfl, h⟩
  | refused => exact .inr ⟨rfl, h⟩
  | exhausted => exact absurd h.symm hne

/-- A repetition that was not given up found something more. -/
theorem of_repeated {x : Cursor → Reply α} {n : Nat} {found : List α} {k : Cursor}
    {y : Reply (List α)} (h : repeated x n found k = y) (hne : y ≠ .exhausted) :
    ∃ as k', repeated x n [] k = .matched as k' ∧ y = .matched (found.reverse ++ as) k' := by
  rw [repeated_found] at h
  rcases of_bind h hne with ⟨as, k', hrest, hy⟩ | ⟨hrest, _⟩
  · exact ⟨as, k', hrest, hy.symm⟩
  · exact absurd hrest (repeated_ne_refused x n [] k)

end Reply

/-! ### What is answered is derived -/

section Deriving

variable {g : Grammar T R V} {call : (r : R) → Cursor → Reply (V r)}

theorem Grammar.yields_repeated {p : Expression T R V α} {x : Cursor → Reply α}
    (hx : ∀ {k y}, x k = y → y ≠ .exhausted → g.Yields p k y)
    (hreach : ∀ k a k', x k = .matched a k' → k.Reaches k') {n : Nat} {k : Cursor}
    {y : Reply (List α)} (hn : k.rest.length ≤ n) (h : Reply.repeated x n [] k = y)
    (hne : y ≠ .exhausted) : g.Yields (.many p) k y := by
  induction n generalizing k y with
  | zero =>
    subst h
    exact .many_end (Cursor.atEnd_of_length_le hn)
  | succ n ih =>
    unfold Reply.repeated at h
    split at h
    · rename_i hk
      subst h
      exact .many_end hk
    · rename_i hk
      have hk := Bool.eq_false_iff.2 hk
      rcases Reply.of_cases h hne with ⟨a, k', hp, h⟩ | ⟨hp, rfl⟩
      · split at h
        · rename_i ho
          subst h
          exact .many_idle hk (hx hp (by simp)) ho
        · rename_i ho
          have hlt := (hreach k a k' hp).lt_of_offset_ne ho
          obtain ⟨as, k'', hrest, rfl⟩ := Reply.of_repeated h hne
          exact .many_more hk (hx hp (by simp)) ho (ih (by omega) hrest (by simp))
      · exact .many_missed hk (hx hp (by simp))

theorem Grammar.yields_of_answer
    (hcall : ∀ {r k x}, call r k = x → x ≠ .exhausted → g.Yields (.rule r) k x)
    (hc : ∀ r k a k', call r k = .matched a k' → k.Reaches k') {p : Expression T R V α} {k : Cursor}
    {x : Reply α} (h : p.answer g.scan call k = x) (hne : x ≠ .exhausted) : g.Yields p k x := by
  induction p generalizing k with
  | text s =>
    unfold Expression.answer at h
    subst h
    split
    · rename_i hs
      exact .text hs
    · rename_i hs
      exact .text_missed (Bool.eq_false_iff.2 hs)
  | symbol table =>
    unfold Expression.answer at h
    subst h
    split
    · rename_i hs
      exact .symbol hs
    · rename_i hs
      exact .symbol_missed hs
  | token t =>
    unfold Expression.answer at h
    subst h
    split
    · rename_i hs
      exact .token hs
    · rename_i hs
      exact .token_missed hs
  | rule r => exact hcall h hne
  | both p q ihp ihq =>
    rcases Reply.of_bind h hne with ⟨a, k', hp, h⟩ | ⟨hp, rfl⟩
    · rcases Reply.of_bind h hne with ⟨b, k'', hq, rfl⟩ | ⟨hq, rfl⟩
      · exact .both (ihp hp (by simp)) (ihq hq (by simp))
      · exact .both_right (ihp hp (by simp)) (ihq hq (by simp))
    · exact .both_left (ihp hp (by simp))
  | either p q ihp ihq =>
    rcases Reply.of_cases h hne with ⟨a, k', hp, rfl⟩ | ⟨hp, h⟩
    · exact .either (ihp hp (by simp))
    · exact .either_right (ihp hp (by simp)) (ihq h hne)
  | option p ih =>
    unfold Expression.answer at h
    split at h
    · rename_i hk
      subst h
      exact .option_end hk
    · rename_i hk
      rcases Reply.of_cases h hne with ⟨a, k', hp, rfl⟩ | ⟨hp, rfl⟩
      · exact .option (Bool.eq_false_iff.2 hk) (ih hp (by simp))
      · exact .option_missed (Bool.eq_false_iff.2 hk) (ih hp (by simp))
  | many p ih =>
    exact yields_repeated ih (fun _ _ _ => Expression.answer_reaches hc) (Nat.le_refl _) h hne
  | many1 p ih =>
    unfold Expression.answer at h
    split at h
    · rename_i hk
      subst h
      exact .many1_end hk
    · rename_i hk
      have hk := Bool.eq_false_iff.2 hk
      rcases Reply.of_bind h hne with ⟨a, k', hp, h⟩ | ⟨hp, rfl⟩
      · split at h
        · rename_i ho
          subst h
          exact .many1_idle hk (ih hp (by simp)) ho
        · rename_i ho
          obtain ⟨as, k'', hrest, rfl⟩ := Reply.of_repeated h hne
          have htail := yields_repeated ih (fun _ _ _ => Expression.answer_reaches hc)
            (Nat.le_refl _) hrest (by simp)
          exact .many1_more hk (ih hp (by simp)) ho htail
      · exact .many1_missed hk (ih hp (by simp))
  | absent p ih =>
    rcases Reply.of_cases h hne with ⟨a, k', hp, rfl⟩ | ⟨hp, rfl⟩
    · exact .absent (ih hp (by simp))
    · exact .absent_missed (ih hp (by simp))
  | ahead p ih =>
    rcases Reply.of_bind h hne with ⟨a, k', hp, rfl⟩ | ⟨hp, rfl⟩
    · exact .ahead (ih hp (by simp))
    · exact .ahead_missed (ih hp (by simp))
  | act f p ih =>
    rcases Reply.of_bind h hne with ⟨a, k', hp, rfl⟩ | ⟨hp, rfl⟩
    · exact .act (ih hp (by simp))
    · exact .act_missed (ih hp (by simp))

theorem Grammar.yields_of_depth {n : Nat} {r : R} {k : Cursor} {x : Reply (V r)}
    (h : g.answer n r k = x) (hne : x ≠ .exhausted) : g.Yields (.rule r) k x := by
  induction n generalizing r k with
  | zero => exact absurd h.symm hne
  | succ n ih =>
    have hreach : ∀ r k a k', g.answer n r k = .matched a k' → k.Reaches k' :=
      fun _ _ _ _ => g.answer_reaches
    exact .rule (yields_of_answer ih hreach h hne)

end Deriving

/-! ### What is derived is answered -/

namespace Grammar.Total

variable {g : Grammar T R V} {token : T → Bool} {rule : R → Bool} {rank : R → Nat}

/-- A repetition is one round, and perhaps the repetition behind it. -/
theorem answer_many_eq (p : Expression T R V α) {k : Cursor} (hk : k.atEnd = false) :
    p.many.answer g.scan g.reply k = (p.answer g.scan g.reply k).cases
      (fun a k' =>
        if k'.offset = k.offset then .matched [a] k'
        else (p.many.answer g.scan g.reply k').bind fun as k'' => .matched (a :: as) k'')
      (.matched [] k) := by
  have hreach : ∀ k a k', p.answer g.scan g.reply k = .matched a k' → k.Reaches k' :=
    fun _ _ _ => Expression.answer_reaches g.reply_reaches
  obtain ⟨n, hn⟩ : ∃ n, k.rest.length = n + 1 := by
    refine Nat.exists_eq_succ_of_ne_zero fun hzero => ?_
    rw [Cursor.atEnd_of_length_le (Nat.le_of_eq hzero)] at hk
    cases hk
  rw [Expression.answer, hn, Reply.repeated, hk]
  cases hp : p.answer g.scan g.reply k with
  | matched a k' =>
    dsimp only [Reply.cases]
    by_cases ho : k'.offset = k.offset
    · simp [ho]
    · have hlt := (hreach _ _ _ hp).lt_of_offset_ne ho
      have hn' : k'.rest.length ≤ n := by omega
      simp only [Bool.false_eq_true, if_false, ho, Expression.answer]
      rw [Reply.repeated_enough hreach hn' (Nat.le_refl _), Reply.repeated_found]
      rfl
  | refused => rfl
  | exhausted => rfl

/-- An expression comes to one thing at a place: what it answers. -/
theorem answer_of_yields (hg : g.Total token rule rank) {p : Expression T R V α} {k : Cursor}
    {x : Reply α} (h : g.Yields p k x) : p.answer g.scan g.reply k = x := by
  induction h with
  | text h => simp [Expression.answer, h]
  | text_missed h => simp [Expression.answer, h]
  | symbol h => simp [Expression.answer, h]
  | symbol_missed h => simp [Expression.answer, h]
  | token h => simp [Expression.answer, h]
  | token_missed h => simp [Expression.answer, h]
  | rule _ ih =>
    rw [Expression.answer, hg.reply_eq]
    exact ih
  | both _ _ ihp ihq => simp [Expression.answer, Reply.bind, ihp, ihq]
  | both_left _ ihp => simp [Expression.answer, Reply.bind, ihp]
  | both_right _ _ ihp ihq => simp [Expression.answer, Reply.bind, ihp, ihq]
  | either _ ihp => simp [Expression.answer, Reply.cases, ihp]
  | either_right _ _ ihp ihq => simp [Expression.answer, Reply.cases, ihp, ihq]
  | option_end hk => simp [Expression.answer, hk]
  | option hk _ ih => simp [Expression.answer, Reply.cases, hk, ih]
  | option_missed hk _ ih => simp [Expression.answer, Reply.cases, hk, ih]
  | many_end hk => simp [Expression.answer, Reply.repeated_of_end hk]
  | many_missed hk _ ih => simp [answer_many_eq _ hk, Reply.cases, ih]
  | many_idle hk _ ho ih => simp [answer_many_eq _ hk, Reply.cases, ih, ho]
  | many_more hk _ ho _ ihp ihrest =>
    simp [answer_many_eq _ hk, Reply.cases, Reply.bind, ihp, ihrest, ho]
  | many1_end hk => simp [Expression.answer, hk]
  | many1_missed hk _ ih => simp [Expression.answer, Reply.bind, hk, ih]
  | many1_idle hk _ ho ih => simp [Expression.answer, Reply.bind, hk, ih, ho]
  | many1_more hk _ ho _ ihp ihrest =>
    rw [Expression.answer] at ihrest
    simp [Expression.answer, Reply.bind, hk, ihp, ho, Reply.repeated_found _ _ [_], ihrest]
  | absent _ ih => simp [Expression.answer, Reply.cases, ih]
  | absent_missed _ ih => simp [Expression.answer, Reply.cases, ih]
  | ahead _ ih => simp [Expression.answer, Reply.bind, ih]
  | ahead_missed _ ih => simp [Expression.answer, Reply.bind, ih]
  | act _ ih => simp [Expression.answer, Reply.bind, ih]
  | act_missed _ ih => simp [Expression.answer, Reply.bind, ih]

theorem yields_reply (hg : g.Total token rule rank) (r : R) (k : Cursor) :
    g.Yields (.rule r) k (g.reply r k) :=
  yields_of_depth rfl (hg.reply_ne_exhausted r k)

/-! ### Calls lead on or down -/

/-- What stands behind a later place leaves less of the text. -/
theorem reaches_lower {P : Prop} {k k' l : Cursor} (hto : k.Reaches k')
    (hless : k'.rest.length < k.rest.length) (hon : k'.Reaches l) :
    k.Reaches l ∧ (P ∨ l.rest.length < k.rest.length) := by
  have hle := hon.length_le
  exact ⟨hto.trans hon, .inr (by omega)⟩

/-- A rule that is tried is tried behind the place, or at it and then it is a near one. -/
theorem tries_lower (hg : g.Total token rule rank) {near : R → Bool} {p : Expression T R V α}
    {k l : Cursor} {r : R} (h : g.Tries p k r l) (hp : p.guarded token rule near = true) :
    k.Reaches l ∧ (l = k ∧ near r = true ∨ l.rest.length < k.rest.length) := by
  have hreach := g.reply_reaches
  have hlt : ∀ r k a k', rule r = false → g.reply r k = .matched a k' →
      k'.rest.length < k.rest.length := fun _ _ _ _ => hg.answer_lt
  induction h generalizing near with
  | rule r k => exact ⟨.refl k, .inl ⟨rfl, hp⟩⟩
  | both _ ih =>
    simp only [Expression.guarded, Bool.and_eq_true] at hp
    exact ih hp.1
  | @both_right α β p q k k' l r a hyields _ ih =>
    have hanswer := hg.answer_of_yields hyields
    have hto := Expression.answer_reaches hreach hanswer
    simp only [Expression.guarded, Bool.and_eq_true, Bool.or_eq_true, Bool.not_eq_true'] at hp
    rcases hto.eq_or_lt with rfl | hless
    · rcases hp.2 with hidle | hq
      · exact absurd (Expression.answer_lt hg.moves hreach hlt hidle hanswer) (Nat.lt_irrefl _)
      · exact ih hq
    · exact reaches_lower hto hless (ih (Expression.guarded_all q)).1
  | either _ ih =>
    simp only [Expression.guarded, Bool.and_eq_true] at hp
    exact ih hp.1
  | either_right _ _ ih =>
    simp only [Expression.guarded, Bool.and_eq_true] at hp
    exact ih hp.2
  | option _ _ ih => exact ih hp
  | many _ _ ih => exact ih hp
  | @many_more α p k k' l r a _ hyields ho _ ih =>
    have hto := Expression.answer_reaches hreach (hg.answer_of_yields hyields)
    exact reaches_lower hto (hto.lt_of_offset_ne ho) (ih (Expression.guarded_all p.many)).1
  | many1 _ _ ih => exact ih hp
  | @many1_more α p k k' l r a _ hyields ho _ ih =>
    have hto := Expression.answer_reaches hreach (hg.answer_of_yields hyields)
    exact reaches_lower hto (hto.lt_of_offset_ne ho) (ih (Expression.guarded_all p.many)).1
  | absent _ ih => exact ih hp
  | ahead _ ih => exact ih hp
  | act _ ih => exact ih hp

/-- What is left of the text counts first, the rank second. -/
def weight (g : Grammar T R V) (rank : R → Nat) (c : R × Cursor) : Nat :=
  c.2.rest.length * g.height + rank c.1

theorem weight_lt (hg : g.Total token rule rank) {c c' : R × Cursor} (h : g.Calls c c') :
    weight g rank c' < weight g rank c := by
  obtain ⟨r, k⟩ := c
  obtain ⟨r', k'⟩ := c'
  obtain ⟨-, ⟨rfl, hnear⟩ | hless⟩ := hg.tries_lower h (hg.guarded r)
  · have hrank : rank r' < rank r := by simpa using hnear
    simp only [weight]
    omega
  · have hround : (k'.rest.length + 1) * g.height ≤ k.rest.length * g.height :=
      Nat.mul_le_mul_right _ hless
    have hlow := hg.low r'
    rw [Nat.succ_mul] at hround
    simp only [weight]
    omega

/-- No chain of calls goes on for ever. -/
theorem wellFounded_calls (hg : g.Total token rule rank) :
    WellFounded fun c c' => g.Calls c' c :=
  Subrelation.wf (fun h => hg.weight_lt h) (measure (weight g rank)).wf

theorem reaches_of_calls (hg : g.Total token rule rank) {c c' : R × Cursor}
    (h : Relation.TransGen g.Calls c c') :
    c.2.Reaches c'.2 ∧ weight g rank c' < weight g rank c := by
  induction h with
  | single h => exact ⟨(hg.tries_lower h (hg.guarded _)).1, hg.weight_lt h⟩
  | tail _ h ih =>
    exact ⟨ih.1.trans (hg.tries_lower h (hg.guarded _)).1, Nat.lt_trans (hg.weight_lt h) ih.2⟩

/-- A rule that is entered again while it is open is entered farther on. -/
theorem offset_lt_of_calls (hg : g.Total token rule rank) {r : R} {k k' : Cursor}
    (h : Relation.TransGen g.Calls (r, k) (r, k')) : k.offset < k'.offset := by
  obtain ⟨hreach, hweight⟩ := hg.reaches_of_calls h
  refine Nat.lt_of_le_of_ne hreach.offset_le fun ho => ?_
  have heq : k' = k := hreach.eq_of_offset (.refl k) ho.symm
  subst heq
  exact absurd hweight (Nat.lt_irrefl _)

end Grammar.Total

/-- Does everything that the expression repeats read something? -/
def Expression.steady (token : T → Bool) (rule : R → Bool) : {α : Type} → Expression T R V α → Bool
  | _, .text _ | _, .symbol _ | _, .token _ | _, .rule _ => true
  | _, .both p q => steady token rule p && steady token rule q
  | _, .either p q => steady token rule p && steady token rule q
  | _, .many p | _, .many1 p => !p.idles token rule && steady token rule p
  | _, .option p | _, .absent p | _, .ahead p => steady token rule p
  | _, .act _ p => steady token rule p

theorem Expression.idles_of_repeated {token : T → Bool} {rule : R → Bool} {p : Expression T R V α}
    {q : Expression T R V β} (h : p.Repeated q) (hq : q.steady token rule = true) :
    p.idles token rule = false := by
  induction h with
  | many =>
    simp only [steady, Bool.and_eq_true, Bool.not_eq_true'] at hq
    exact hq.1
  | many1 =>
    simp only [steady, Bool.and_eq_true, Bool.not_eq_true'] at hq
    exact hq.1
  | inMany _ ih =>
    simp only [steady, Bool.and_eq_true] at hq
    exact ih hq.2
  | inMany1 _ ih =>
    simp only [steady, Bool.and_eq_true] at hq
    exact ih hq.2
  | left _ ih =>
    simp only [steady, Bool.and_eq_true] at hq
    exact ih hq.1
  | right _ ih =>
    simp only [steady, Bool.and_eq_true] at hq
    exact ih hq.2
  | first _ ih =>
    simp only [steady, Bool.and_eq_true] at hq
    exact ih hq.1
  | second _ ih =>
    simp only [steady, Bool.and_eq_true] at hq
    exact ih hq.2
  | option _ ih => exact ih hq
  | absent _ ih => exact ih hq
  | ahead _ ih => exact ih hq
  | act _ ih => exact ih hq

namespace Grammar.Total

variable {g : Grammar T R V} {token : T → Bool} {rule : R → Bool} {rank : R → Nat}

/-- An expression that cannot stand still leads on. -/
theorem offset_lt_of_yields (hg : g.Total token rule rank) {p : Expression T R V α} {k k' : Cursor}
    {a : α} (hp : p.idles token rule = false) (h : g.Yields p k (.matched a k')) :
    k.offset < k'.offset := by
  have hanswer := hg.answer_of_yields h
  have hreach := Expression.answer_reaches g.reply_reaches hanswer
  have hlt := Expression.answer_lt hg.moves g.reply_reaches (fun _ _ _ _ => hg.answer_lt) hp hanswer
  refine Nat.lt_of_le_of_ne hreach.offset_le fun ho => ?_
  rw [hreach.eq_of_offset (.refl k) ho.symm] at hlt
  exact absurd hlt (Nat.lt_irrefl _)

end Grammar.Total

/-- The evaluation of a grammar always comes to an end. -/
structure Grammar.Ends [DecidableEq R] (g : Grammar T R V) : Prop where
  /-- A rule comes to one thing at a place, a match or a refusal, and a run finds it. -/
  evaluated : ∀ r k, (g.apply r k).1 ≠ .exhausted ∧ g.Yields (.rule r) k (g.apply r k).1
    ∧ ∀ x, g.Yields (.rule r) k x → x = (g.apply r k).1
  /-- No chain of calls goes on for ever. -/
  calls : WellFounded fun c c' => g.Calls c' c
  /-- A rule that is entered again while it is open is entered farther on. -/
  onward : ∀ r k k', Relation.TransGen g.Calls (r, k) (r, k') → k.offset < k'.offset
  /-- Every round of a repetition reads something. -/
  rounds : ∀ (r : R) {α : Type} (p : Expression T R V α), p.Repeated (g.body r) →
    ∀ k a k', g.Yields p k (.matched a k') → k.offset < k'.offset

theorem Grammar.Total.ends [DecidableEq R] {g : Grammar T R V} {token : T → Bool} {rule : R → Bool}
    {rank : R → Nat} (hg : g.Total token rule rank)
    (hsteady : ∀ r, (g.body r).steady token rule = true) : g.Ends where
  evaluated r k := by
    rw [hg.apply_eq]
    exact ⟨hg.reply_ne_exhausted r k, hg.yields_reply r k, fun x h => (hg.answer_of_yields h).symm⟩
  calls := hg.wellFounded_calls
  onward _ _ _ h := hg.offset_lt_of_calls h
  rounds r _ _ hp _ _ _ h := hg.offset_lt_of_yields (Expression.idles_of_repeated hp (hsteady r)) h

end InkGauge.Peg
