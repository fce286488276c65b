import InkGauge.Proofs.Peg.Answer

/-!
`Expression.Made I p a` says that `p` can make the value `a` from values of rules of which `I`
holds. A property that the body of every rule hands on from the rules in it holds of all values of
the grammar, so that to prove one the texts that are read need not be looked at.
-/

namespace InkGauge.Peg

variable {T R : Type} {V : R → Type} {α β : Type}

/-- The expression can make the value, if it is given values of rules of which `I` holds. -/
def Expression.Made (I : (r : R) → V r → Prop) : {α : Type} → Expression T R V α → α → Prop
  | _, .text _, _ | _, .symbol _, _ | _, .token _, _ | _, .absent _, _ | _, .ahead _, _ => True
  | _, .rule r, a => I r a
  | _, .both p q, x => p.Made I x.1 ∧ q.Made I x.2
  | _, .either p q, a => p.Made I a ∨ q.Made I a
  | _, .option p, o => ∀ a ∈ o, p.Made I a
  | _, .many p, as | _, .many1 p, as => ∀ a ∈ as, p.Made I a
  | _, .act f p, b => ∃ s a, p.Made I a ∧ b = f s a

section

variable {I : (r : R) → V r → Prop} {p : Expression T R V α} {q : Expression T R V β}

theorem Expression.Made.left {a : α} (h : (p <* q).Made I a) : p.Made I a := by
  obtain ⟨s, x, hx, rfl⟩ := h
  exact hx.1

theorem Expression.Made.right {b : β} (h : (p *> q).Made I b) : q.Made I b := by
  obtain ⟨s, x, hx, rfl⟩ := h
  exact hx.2

theorem Expression.Made.map {f : α → β} {b : β} (h : (f <$> p).Made I b) :
    ∃ a, p.Made I a ∧ b = f a := by
  obtain ⟨s, a, ha, rfl⟩ := h
  exact ⟨a, ha, rfl⟩

theorem Expression.Made.seq {p : Expression T R V (α → β)} {q : Expression T R V α} {b : β}
    (h : (p <*> q).Made I b) : ∃ f a, p.Made I f ∧ q.Made I a ∧ b = f a := by
  obtain ⟨s, x, hx, rfl⟩ := h
  exact ⟨x.1, x.2, hx.1, hx.2, rfl⟩

end

section

variable {scan : T → List Char → Option Nat} {call : (r : R) → Cursor → Reply (V r)}
  {I : (r : R) → V r → Prop}

theorem Expression.made_of_repeats {p : Expression T R V α} {k k' : Cursor} {as : List α}
    (hp : ∀ k a k', p.answer scan call k = .matched a k' → p.Made I a)
    (h : Reply.Repeats (p.answer scan call) k as k') : ∀ a ∈ as, p.Made I a := by
  induction h with
  | stop => simp
  | step head _ ih => exact List.forall_mem_cons.2 ⟨hp _ _ _ head, ih⟩

theorem Expression.made_of_answer (hcall : ∀ r k a k', call r k = .matched a k' → I r a)
    {p : Expression T R V α} {k k' : Cursor} {a : α} (h : p.answer scan call k = .matched a k') :
    p.Made I a := by
  induction p generalizing k k' with
  | text | symbol | token | absent | ahead => trivial
  | rule r => exact hcall r k a k' h
  | both p q ihp ihq =>
    obtain ⟨k₁, hp, hq⟩ := answer_both.1 h
    exact ⟨ihp hp, ihq hq⟩
  | either p q ihp ihq =>
    rcases answer_either.1 h with hp | ⟨-, hq⟩
    · exact .inl (ihp hp)
    · exact .inr (ihq hq)
  | option p ih =>
    rcases answer_option h with ⟨b, rfl, hb⟩ | ⟨rfl, -⟩
    · rintro _ ⟨⟩
      exact ih hb
    · simp [Made]
  | many p ih => exact made_of_repeats (fun _ _ _ => ih) (answer_many h)
  | many1 p ih => exact made_of_repeats (fun _ _ _ => ih) (answer_many1 h).2
  | act f p ih =>
    obtain ⟨b, hb, rfl⟩ := answer_act.1 h
    exact ⟨_, b, ih hb, rfl⟩

end

/-- What every body hands on holds of every value. -/
theorem Grammar.value_of_answer {g : Grammar T R V} {I : (r : R) → V r → Prop}
    (hbody : ∀ r a, (g.body r).Made I a → I r a) {n : Nat} {r : R} {k k' : Cursor} {a : V r}
    (h : g.answer n r k = .matched a k') : I r a := by
  induction n generalizing r k k' with
  | zero => cases h
  | succ n ih =>
    have hcall : ∀ r k a k', g.answer n r k = .matched a k' → I r a := fun _ _ _ _ => ih
    exact hbody r a (Expression.made_of_answer hcall h)

end InkGauge.Peg
