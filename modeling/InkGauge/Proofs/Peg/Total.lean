import InkGauge.Proofs.Peg.Answer

/-!
An expression is guarded if the rules that it can try at its own place, before it has read anything,
are all of a lower rank. If the rules of a grammar can be ranked so, below its height, a run never
gives up: every rule is matched or refused. `Grammar.reply` is that answer, and it satisfies the
equation of the grammar without a bound on the depth.
-/

namespace InkGauge.Peg

variable {T R : Type} {V : R → Type} {α β : Type}

/-- Can the expression match and read nothing? -/
def Expression.idles (token : T → Bool) (rule : R → Bool) : {α : Type} → Expression T R V α → Bool
  | _, .text s => s.isEmpty
  | _, .symbol table => table.any (·.spelling.isEmpty)
  | _, .token t => token t
  | _, .rule r => rule r
  | _, .both p q => idles token rule p && idles token rule q
  | _, .either p q => idles token rule p || idles token rule q
  | _, .option _ | _, .many _ | _, .absent _ | _, .ahead _ => true
  | _, .many1 p => idles token rule p
  | _, .act _ p => idles token rule p

/-- Tokens that are not idle read something. -/
def Moves (scan : T → List Char → Option Nat) (token : T → Bool) : Prop :=
  ∀ t s n, token t = false → scan t s = some n → n ≠ 0 ∧ s ≠ []

namespace Cursor

theorem Reaches.length_le {k k' : Cursor} (h : k.Reaches k') : k'.rest.length ≤ k.rest.length := by
  obtain ⟨n, _, rfl⟩ := h
  rw [rest_advance, List.length_drop]
  omega

/-- Where a match stands still it stays at its place. -/
theorem Reaches.eq_or_lt {k k' : Cursor} (h : k.Reaches k') :
    k' = k ∨ k'.rest.length < k.rest.length := by
  obtain ⟨n, hn, rfl⟩ := h
  cases n with
  | zero => exact .inl rfl
  | succ n =>
    right
    rw [rest_advance, List.length_drop]
    omega

theorem Reaches.lt_of_offset_ne {k k' : Cursor} (h : k.Reaches k') (ho : k'.offset ≠ k.offset) :
    k'.rest.length < k.rest.length := by
  rcases h.eq_or_lt with rfl | h
  · exact absurd rfl ho
  · exact h

theorem length_advance_lt {k : Cursor} {n : Nat} (hn : n ≠ 0) (hk : k.rest ≠ []) :
    (k.advance n).rest.length < k.rest.length := by
  have h := List.length_pos_iff.2 hk
  rw [rest_advance, List.length_drop]
  omega

end Cursor

section Moving

variable {scan : T → List Char → Option Nat} {call : (r : R) → Cursor → Reply (V r)}
  {token : T → Bool} {rule : R → Bool}

/-- An expression that cannot stand still reads something. -/
theorem Expression.answer_lt (ht : Moves scan token)
    (hc : ∀ r k a k', call r k = .matched a k' → k.Reaches k')
    (hr : ∀ r k a k', rule r = false → call r k = .matched a k' → k'.rest.length < k.rest.length)
    {p : Expression T R V α} {k k' : Cursor} {a : α} (hp : p.idles token rule = false)
    (h : p.answer scan call k = .matched a k') : k'.rest.length < k.rest.length := by
  induction p generalizing k k' with
  | text s =>
    obtain ⟨hs, rfl⟩ := answer_text.1 h
    have hne : s ≠ [] := by simpa [idles] using hp
    exact Cursor.length_advance_lt (by simpa using hne) (((Text.startsWith_iff _ _).1 hs).ne_nil hne)
  | symbol table =>
    obtain ⟨n, hs, rfl⟩ := answer_symbol.1 h
    obtain ⟨x, hx, rfl, hstart⟩ := firstSymbol_some hs
    have hne : x.spelling ≠ [] := by
      simp only [idles, List.any_eq_false, List.isEmpty_iff] at hp
      exact hp x hx
    exact Cursor.length_advance_lt (by simpa using hne) (hstart.ne_nil hne)
  | token t =>
    obtain ⟨n, hs, rfl⟩ := answer_token.1 h
    obtain ⟨hn, hk⟩ := ht t _ n hp hs
    exact Cursor.length_advance_lt hn hk
  | rule r => exact hr r k a k' hp h
  | both p q ihp ihq =>
    obtain ⟨k₁, hkp, hkq⟩ := answer_both.1 h
    have hp₁ := (answer_reaches hc hkp).length_le
    have hq₁ := (answer_reaches hc hkq).length_le
    simp only [idles, Bool.and_eq_false_iff] at hp
    rcases hp with hp | hp
    · have := ihp hp hkp
      omega
    · have := ihq hp hkq
      omega
  | either p q ihp ihq =>
    simp only [idles, Bool.or_eq_false_iff] at hp
    rcases answer_either.1 h with h | ⟨_, h⟩
    · exact ihp hp.1 h
    · exact ihq hp.2 h
  | option p ih => cases hp
  | many p ih => cases hp
  | many1 p ih =>
    obtain ⟨hne, hrep⟩ := answer_many1 h
    cases hrep with
    | stop => exact absurd rfl hne
    | step head tail =>
      have hlt := ih hp head
      have hle := (tail.reaches fun _ _ _ => answer_reaches hc).length_le
      omega
  | absent p ih => cases hp
  | ahead p ih => cases hp
  | act f p ih =>
    obtain ⟨b, hb, _⟩ := answer_act.1 h
    exact ih hp hb

end Moving

/-- Are the rules that the expression can try at its own place all among those of `near`? -/
def Expression.guarded (token : T → Bool) (rule near : R → Bool) :
    {α : Type} → Expression T R V α → Bool
  | _, .text _ | _, .symbol _ | _, .token _ => true
  | _, .rule r => near r
  | _, .both p q =>
    guarded token rule near p && (!p.idles token rule || guarded token rule near q)
  | _, .either p q => guarded token rule near p && guarded token rule near q
  | _, .option p | _, .many p | _, .many1 p | _, .absent p | _, .ahead p =>
    guarded token rule near p
  | _, .act _ p => guarded token rule near p

/-- Where all rules are near, every expression is guarded. -/
theorem Expression.guarded_all {token : T → Bool} {rule : R → Bool} (p : Expression T R V α) :
    p.guarded token rule (fun _ => true) = true := by
  induction p <;> simp_all [guarded]

namespace Reply

theorem matched_ne_exhausted {a : α} {k : Cursor} : (matched a k : Reply α) ≠ .exhausted := nofun

theorem refused_ne_exhausted : (refused : Reply α) ≠ .exhausted := nofun

theorem bind_ne_exhausted {x : Reply α} {f : α → Cursor → Reply β} (hx : x ≠ .exhausted)
    (hf : ∀ a k, x = .matched a k → f a k ≠ .exhausted) : x.bind f ≠ .exhausted := by
  cases x with
  | matched a k => exact hf a k rfl
  | refused => exact refused_ne_exhausted
  | exhausted => exact absurd rfl hx

theorem cases_ne_exhausted {x : Reply α} {f : α → Cursor → Reply β} {y : Reply β}
    (hx : x ≠ .exhausted) (hf : ∀ a k, x = .matched a k → f a k ≠ .exhausted)
    (hy : x = .refused → y ≠ .exhausted) : x.cases f y ≠ .exhausted := by
  cases x with
  | matched a k => exact hf a k rfl
  | refused => exact hy rfl
  | exhausted => exact absurd rfl hx

theorem repeated_ne_exhausted {x : Cursor → Reply α} {k : Cursor}
    (hreach : ∀ k a k', x k = .matched a k' → k.Reaches k') (hk : x k ≠ .exhausted)
    (hless : ∀ k', k'.rest.length < k.rest.length → x k' ≠ .exhausted) (n : Nat)
    (found : List α) : repeated x n found k ≠ .exhausted := by
  induction n generalizing found k with
  | zero => exact matched_ne_exhausted
  | succ n ih =>
    unfold repeated
    split
    · exact matched_ne_exhausted
    · refine cases_ne_exhausted hk (fun a k' h => ?_) (fun _ => matched_ne_exhausted)
      split
      · exact matched_ne_exhausted
      · rename_i ho
        have hlt := (hreach _ _ _ h).lt_of_offset_ne ho
        exact ih (hless k' hlt) (fun k'' h'' => hless k'' (Nat.lt_trans h'' hlt)) _

end Reply

section Guarded

variable {scan : T → List Char → Option Nat} {call : (r : R) → Cursor → Reply (V r)}
  {token : T → Bool} {rule near : R → Bool}

theorem Expression.answer_ne_exhausted (ht : Moves scan token)
    (hc : ∀ r k a k', call r k = .matched a k' → k.Reaches k')
    (hr : ∀ r k a k', rule r = false → call r k = .matched a k' → k'.rest.length < k.rest.length)
    {p : Expression T R V α} {k : Cursor} (hnear : ∀ r, near r = true → call r k ≠ .exhausted)
    (hless : ∀ r k', k'.rest.length < k.rest.length → call r k' ≠ .exhausted)
    (hp : p.guarded token rule near = true) : p.answer scan call k ≠ .exhausted := by
  -- Behind the place every rule answers, so there any expression counts as guarded.
  induction p generalizing k near with
  | text s =>
    unfold answer
    split
    · exact Reply.matched_ne_exhausted
    · exact Reply.refused_ne_exhausted
  | symbol table =>
    unfold answer
    split
    · exact Reply.matched_ne_exhausted
    · exact Reply.refused_ne_exhausted
  | token t =>
    unfold answer
    split
    · exact Reply.matched_ne_exhausted
    · exact Reply.refused_ne_exhausted
  | rule r => exact hnear r hp
  | both p q ihp ihq =>
    simp only [guarded, Bool.and_eq_true, Bool.or_eq_true, Bool.not_eq_true'] at hp
    refine Reply.bind_ne_exhausted (ihp hnear hless hp.1) fun a k' h => ?_
    refine Reply.bind_ne_exhausted ?_ fun _ _ _ => Reply.matched_ne_exhausted
    rcases (answer_reaches hc h).eq_or_lt with rfl | hlt
    · rcases hp.2 with hi | hq
      · exact absurd (answer_lt ht hc hr hi h) (Nat.lt_irrefl _)
      · exact ihq hnear hless hq
    · exact ihq (fun r _ => hless r k' hlt) (fun r k'' h'' => hless r k'' (Nat.lt_trans h'' hlt)) (guarded_all q)
  | either p q ihp ihq =>
    simp only [guarded, Bool.and_eq_true] at hp
    exact Reply.cases_ne_exhausted (ihp hnear hless hp.1) (fun _ _ _ => Reply.matched_ne_exhausted)
      fun _ => ihq hnear hless hp.2
  | option p ih =>
    unfold answer
    split
    · exact Reply.matched_ne_exhausted
    · exact Reply.cases_ne_exhausted (ih hnear hless hp) (fun _ _ _ => Reply.matched_ne_exhausted)
        fun _ => Reply.matched_ne_exhausted
  | many p ih =>
    exact Reply.repeated_ne_exhausted (fun _ _ _ => answer_reaches hc) (ih hnear hless hp)
      (fun k' hlt => ih (fun r _ => hless r k' hlt) (fun r k'' h'' => hless r k'' (Nat.lt_trans h'' hlt))
        (guarded_all p)) _ _
  | many1 p ih =>
    unfold answer
    split
    · exact Reply.refused_ne_exhausted
    · refine Reply.bind_ne_exhausted (ih hnear hless hp) fun a k' h => ?_
      split
      · exact Reply.matched_ne_exhausted
      · rename_i ho
        have hlt := (answer_reaches hc h).lt_of_offset_ne ho
        have hall : ∀ k'', k''.rest.length < k.rest.length → p.answer scan call k'' ≠ .exhausted :=
          fun k'' h'' => ih (fun r _ => hless r k'' h'')
            (fun r k₃ h₃ => hless r k₃ (Nat.lt_trans h₃ h'')) (guarded_all p)
        exact Reply.repeated_ne_exhausted (fun _ _ _ => answer_reaches hc) (hall k' hlt)
          (fun k'' h'' => hall k'' (Nat.lt_trans h'' hlt)) _ _
  | absent p ih =>
    exact Reply.cases_ne_exhausted (ih hnear hless hp) (fun _ _ _ => Reply.refused_ne_exhausted)
      fun _ => Reply.matched_ne_exhausted
  | ahead p ih =>
    exact Reply.bind_ne_exhausted (ih hnear hless hp) fun _ _ _ => Reply.matched_ne_exhausted
  | act f p ih =>
    exact Reply.bind_ne_exhausted (ih hnear hless hp) fun _ _ _ => Reply.matched_ne_exhausted

end Guarded

/-- A grammar whose rules can be ranked below its height so that every rule that is tried at the
place of another ranks below it. `token` and `rule` say which tokens and rules can read nothing. -/
structure Grammar.Total (g : Grammar T R V) (token : T → Bool) (rule : R → Bool)
    (rank : R → Nat) : Prop where
  moves : Moves g.scan token
  idle : ∀ r, rule r = false → (g.body r).idles token rule = false
  guarded : ∀ r, (g.body r).guarded token rule (fun r' => rank r' < rank r) = true
  low : ∀ r, rank r < g.height

namespace Grammar.Total

variable {g : Grammar T R V} {token : T → Bool} {rule : R → Bool} {rank : R → Nat}

theorem answer_lt (hg : g.Total token rule rank) {n : Nat} {r : R} {k k' : Cursor} {a : V r}
    (hr : rule r = false) (h : g.answer n r k = .matched a k') :
    k'.rest.length < k.rest.length := by
  induction n generalizing r k k' with
  | zero => cases h
  | succ n ih =>
    have hc : ∀ r k a k', g.answer n r k = .matched a k' → k.Reaches k' :=
      fun _ _ _ _ => g.answer_reaches
    have hlt : ∀ r k a k', rule r = false → g.answer n r k = .matched a k' →
        k'.rest.length < k.rest.length := fun _ _ _ _ => ih
    exact Expression.answer_lt hg.moves hc hlt (hg.idle r hr) h

/-- Each character that is left buys one more round of nested rules. -/
theorem answer_ne_exhausted (hg : g.Total token rule rank) {depth : Nat} {r : R} {k : Cursor}
    (hd : k.rest.length * g.height + rank r < depth) : g.answer depth r k ≠ .exhausted := by
  induction depth generalizing r k with
  | zero => omega
  | succ depth ih =>
    have hc : ∀ r k a k', g.answer depth r k = .matched a k' → k.Reaches k' :=
      fun _ _ _ _ => g.answer_reaches
    have hlt : ∀ r k a k', rule r = false → g.answer depth r k = .matched a k' →
        k'.rest.length < k.rest.length := fun _ _ _ _ => hg.answer_lt
    refine Expression.answer_ne_exhausted hg.moves hc hlt (fun r' hr' => ih ?_)
      (fun r' k' hk' => ih ?_) (hg.guarded r)
    · have hrank : rank r' < rank r := by simpa using hr'
      omega
    · have hround : (k'.rest.length + 1) * g.height ≤ k.rest.length * g.height :=
        Nat.mul_le_mul_right _ hk'
      have hlow := hg.low r'
      rw [Nat.succ_mul] at hround
      omega

end Grammar.Total

/-- What a rule answers at a place, with as much depth as its grammar may need. -/
def Grammar.reply (g : Grammar T R V) (r : R) (k : Cursor) : Reply (V r) :=
  g.answer ((k.rest.length + 1) * g.height) r k

theorem Grammar.reply_reaches (g : Grammar T R V) (r : R) (k : Cursor) (a : V r) (k' : Cursor)
    (h : g.reply r k = .matched a k') : k.Reaches k' :=
  g.answer_reaches h

namespace Grammar.Total

variable {g : Grammar T R V} {token : T → Bool} {rule : R → Bool} {rank : R → Nat}

theorem reply_ne_exhausted (hg : g.Total token rule rank) (r : R) (k : Cursor) :
    g.reply r k ≠ .exhausted := by
  refine hg.answer_ne_exhausted ?_
  rw [Nat.succ_mul]
  exact Nat.add_lt_add_left (hg.low r) _

/-- At any depth a rule gives its reply or gives up. -/
theorem answer_below_reply (hg : g.Total token rule rank) (n : Nat) (r : R) (k : Cursor) :
    (g.answer n r k).Below (g.reply r k) := by
  rcases Nat.le_total n ((k.rest.length + 1) * g.height) with h | h
  · exact g.answer_below h r k
  · rcases g.answer_below h r k with hex | heq
    · exact absurd hex (hg.reply_ne_exhausted r k)
    · rw [← heq]
      exact .refl _

/-- The reply of a rule is the answer of its body, with the replies of the rules in it. -/
theorem reply_eq (hg : g.Total token rule rank) (r : R) (k : Cursor) :
    g.reply r k = (g.body r).answer g.scan g.reply k := by
  have hdeep : g.answer ((k.rest.length + 1) * g.height + 1) r k = g.reply r k := by
    rcases g.answer_below (Nat.le_succ ((k.rest.length + 1) * g.height)) r k with hex | heq
    · exact absurd hex (hg.reply_ne_exhausted r k)
    · exact heq.symm
  have hbody : (g.answer ((k.rest.length + 1) * g.height + 1) r k).Below
      ((g.body r).answer g.scan g.reply k) := Expression.answer_below (hg.answer_below_reply _) _ _
  rcases hbody with hex | heq
  · exact absurd (hdeep.symm.trans hex) (hg.reply_ne_exhausted r k)
  · exact hdeep.symm.trans heq

end Grammar.Total

section Running

variable [DecidableEq R] {g : Grammar T R V} {base : Cursor}

/-- Every reply that is kept is an answer of the grammar, and no run was given up. -/
def Session.Sure (g : Grammar T R V) (base : Cursor) (σ : Session V) : Prop :=
  ∀ r k reply, base.Reaches k → σ.kept? r k = some reply →
    reply ≠ .exhausted ∧ ∃ n, reply = g.answer n r k

theorem Session.sure_empty (n : Nat) : (Session.empty V n).Sure g base := by
  intro r k reply _ h
  exact absurd h (by simp [kept?_empty])

theorem Session.Sure.keep {σ : Session V} (h : σ.Sure g base) {r : R} {k : Cursor}
    {reply : Reply (V r)} (hk : base.Reaches k) (hne : reply ≠ .exhausted)
    (hr : ∃ n, reply = g.answer n r k) : (σ.keep r k reply).Sure g base := by
  intro r' k' reply' hk' h'
  rcases Session.kept?_keep h' with ⟨ho, rfl, rfl⟩ | hold
  · rw [← hk.eq_of_offset hk' ho]
    exact ⟨hne, hr⟩
  · exact h r' k' reply' hk' hold

/-- Wherever the plain grammar does not give up, a run answers as it does. -/
def Follows (g : Grammar T R V) (base : Cursor) (x : Attempt V α) (y : Reply α) : Prop :=
  y ≠ .exhausted → ∀ σ, σ.Sure g base → (x σ).1 = y ∧ (x σ).2.Sure g base

namespace Follows

theorem matched (a : α) (k : Cursor) : Follows g base (Attempt.matched a k) (.matched a k) :=
  fun _ _ hσ => ⟨rfl, hσ⟩

theorem missed (k : Cursor) : Follows g base (Attempt.missed k : Attempt V α) .refused :=
  fun _ _ hσ => ⟨rfl, hσ⟩

theorem refused : Follows g base (fun σ => ((.refused : Reply α), σ)) .refused :=
  fun _ _ hσ => ⟨rfl, hσ⟩

theorem cases {x : Attempt V α} {y : Reply α} {f : α → Cursor → Attempt V β}
    {f' : α → Cursor → Reply β} {z : Attempt V β} {z' : Reply β} (hx : Follows g base x y)
    (hf : ∀ a k, y = .matched a k → Follows g base (f a k) (f' a k))
    (hz : y = .refused → Follows g base z z') :
    Follows g base (Attempt.cases x f z) (y.cases f' z') := by
  intro hne σ hσ
  have hy : y ≠ .exhausted := by
    rintro rfl
    exact hne rfl
  obtain ⟨heq, hσ'⟩ := hx hy σ hσ
  unfold Attempt.cases
  cases hrun : x σ with
  | mk reply σ' =>
    rw [hrun] at heq hσ'
    subst heq
    cases reply with
    | matched a k => exact hf a k rfl hne σ' hσ'
    | refused => exact hz rfl hne σ' hσ'
    | exhausted => exact absurd rfl hy

theorem bind {x : Attempt V α} {y : Reply α} {f : α → Cursor → Attempt V β}
    {f' : α → Cursor → Reply β} (hx : Follows g base x y)
    (hf : ∀ a k, y = .matched a k → Follows g base (f a k) (f' a k)) :
    Follows g base (Attempt.bind x f) (y.bind f') :=
  hx.cases hf fun _ => refused

theorem repeated {x : Cursor → Attempt V α} {y : Cursor → Reply α}
    (hreach : ∀ k a k', y k = .matched a k' → k.Reaches k')
    (hx : ∀ k, base.Reaches k → Follows g base (x k) (y k)) (n : Nat) (found : List α)
    {k : Cursor} (hk : base.Reaches k) :
    Follows g base (Attempt.repeated x n found k) (Reply.repeated y n found k) := by
  induction n generalizing found k with
  | zero => exact .matched _ _
  | succ n ih =>
    unfold Attempt.repeated Reply.repeated
    split
    · exact .matched _ _
    · refine (hx k hk).cases (fun a k' h => ?_) fun _ => .matched _ _
      split
      · exact .matched _ _
      · exact ih _ (hk.trans (hreach _ _ _ h))

end Follows

theorem Expression.run_follows {call : (r : R) → Cursor → Attempt V (V r)}
    {call' : (r : R) → Cursor → Reply (V r)}
    (hreach : ∀ r k a k', call' r k = .matched a k' → k.Reaches k')
    (hc : ∀ r k, base.Reaches k → Follows g base (call r k) (call' r k)) (p : Expression T R V α)
    {k : Cursor} (hk : base.Reaches k) :
    Follows g base (p.run g.scan call k) (p.answer g.scan call' k) := by
  induction p generalizing k with
  | text s =>
    unfold run answer
    split
    · exact .matched _ _
    · exact .missed k
  | symbol table =>
    unfold run answer
    cases firstSymbol table k.rest with
    | some x => exact .matched _ _
    | none => exact .missed k
  | token t =>
    unfold run answer
    cases g.scan t k.rest with
    | some n => exact .matched _ _
    | none => exact .missed k
  | rule r => exact hc r k hk
  | both p q ihp ihq =>
    exact (ihp hk).bind fun a k' h => (ihq (hk.trans (answer_reaches hreach h))).bind
      fun b k'' _ => .matched _ _
  | either p q ihp ihq => exact (ihp hk).cases (fun a k' _ => .matched _ _) fun _ => ihq hk
  | option p ih =>
    unfold run answer
    split
    · exact .matched _ _
    · exact (ih hk).cases (fun a k' _ => .matched _ _) fun _ => .matched _ _
  | many p ih =>
    exact Follows.repeated (fun _ _ _ => answer_reaches hreach) (fun k hk => ih hk) _ _ hk
  | many1 p ih =>
    unfold run answer
    split
    · exact .missed k
    · refine (ih hk).bind fun a k' h => ?_
      split
      · exact .matched _ _
      · exact Follows.repeated (fun _ _ _ => answer_reaches hreach) (fun k hk => ih hk) _ _
          (hk.trans (answer_reaches hreach h))
  | absent p ih => exact (ih hk).cases (fun a k' _ => .missed k) fun _ => .matched _ _
  | ahead p ih => exact (ih hk).bind fun a k' _ => .matched _ _
  | act f p ih => exact (ih hk).bind fun a k' _ => .matched _ _

theorem Grammar.attempt_follows (g : Grammar T R V) (depth : Nat) (r : R) {k : Cursor}
    (hk : base.Reaches k) : Follows g base (g.attempt depth r k) (g.answer depth r k) := by
  induction depth generalizing r k with
  | zero => exact fun h => absurd rfl h
  | succ depth ih =>
    intro hne σ hσ
    have hreach : ∀ r k a k', g.answer depth r k = .matched a k' → k.Reaches k' :=
      fun _ _ _ _ => g.answer_reaches
    have hbody := Expression.run_follows hreach (fun r k hk => ih r hk) (g.body r) hk
    unfold Grammar.attempt
    dsimp only
    cases hkept : (if g.keeps r then σ.kept? r k else none) with
    | some reply =>
      have hsome : σ.kept? r k = some reply := by
        split at hkept
        · exact hkept
        · cases hkept
      obtain ⟨hreply, n, rfl⟩ := hσ r k reply hk hsome
      refine ⟨?_, hσ⟩
      -- Two answers that were not given up agree.
      rcases Nat.le_total n (depth + 1) with h | h
      · exact (g.answer_below h r k).resolve_left hreply
      · exact ((g.answer_below h r k).resolve_left hne).symm
    | none =>
      obtain ⟨heq, hσ'⟩ := hbody hne σ hσ
      cases hrun : (g.body r).run g.scan (g.attempt depth) k σ with
      | mk reply σ' =>
        rw [hrun] at heq hσ'
        have hanswer : reply = g.answer (depth + 1) r k := heq
        cases reply with
        | matched a k' =>
          refine ⟨hanswer, ?_⟩
          dsimp only
          split
          · exact Session.Sure.keep hσ' hk Reply.matched_ne_exhausted ⟨_, hanswer⟩
          · exact hσ'
        | refused =>
          refine ⟨hanswer, ?_⟩
          dsimp only
          split
          · exact Session.Sure.keep hσ' hk Reply.refused_ne_exhausted ⟨_, hanswer⟩
          · exact hσ'
        | exhausted => exact absurd hanswer.symm hne

/-- Applying a rule gives its reply: remembering changes nothing, and no run is given up. -/
theorem Grammar.Total.apply_eq {token : T → Bool} {rule : R → Bool} {rank : R → Nat}
    (hg : g.Total token rule rank) (r : R) (k : Cursor) : (g.apply r k).1 = g.reply r k :=
  (g.attempt_follows _ r (Cursor.Reaches.refl k) (hg.reply_ne_exhausted r k) _
    (Session.sure_empty _)).1

end Running

end InkGauge.Peg
