import InkGauge.Proofs.Peg.Total

/-!
What is matched, and how far, depends on the text ahead alone. Where the text starts matters only
for the spans in the values.
-/

namespace InkGauge.Peg

variable {T R : Type} {V : R → Type} {α β : Type}

/-- Replies at `k` and `k'` that read equally much. -/
inductive Reply.Parallel (k k' : Cursor) : Reply α → Reply α → Prop where
  | matched (a a' : α) (n : Nat) :
      Parallel k k' (.matched a (k.advance n)) (.matched a' (k'.advance n))
  | refused : Parallel k k' .refused .refused
  | exhausted : Parallel k k' .exhausted .exhausted

namespace Cursor

variable {k k' : Cursor}

theorem rest_advance_eq (h : k.rest = k'.rest) (n : Nat) :
    (k.advance n).rest = (k'.advance n).rest := by
  rw [rest_advance, rest_advance, h]

theorem atEnd_eq (h : k.rest = k'.rest) : k.atEnd = k'.atEnd := by
  rw [atEnd, atEnd, h]

theorem offset_advance_min (k : Cursor) (n : Nat) :
    (k.advance n).offset = k.offset + min n k.rest.length := by
  rw [advance_min, offset_advance (Nat.min_le_right _ _)]

/-- Going on leads nowhere from one place exactly if it does not from the other. -/
theorem offset_advance_iff (h : k.rest = k'.rest) (n : Nat) :
    (k.advance n).offset = k.offset ↔ (k'.advance n).offset = k'.offset := by
  rw [offset_advance_min, offset_advance_min, h]
  omega

end Cursor

theorem Reply.repeated_of_end {x : Cursor → Reply α} {n : Nat} {found : List α} {k : Cursor}
    (h : k.atEnd = true) : Reply.repeated x n found k = .matched found.reverse k := by
  cases n with
  | zero => rfl
  | succ n => rw [Reply.repeated, if_pos h]

namespace Reply.Parallel

variable {k k' : Cursor} {x y : Reply α}

theorem here (k k' : Cursor) (a a' : α) : Parallel k k' (.matched a k) (.matched a' k') :=
  .matched a a' 0

theorem shift {n : Nat} {x y : Reply α} (h : Parallel (k.advance n) (k'.advance n) x y) :
    Parallel k k' x y := by
  cases h with
  | matched a a' m =>
    rw [Cursor.advance_advance, Cursor.advance_advance]
    exact .matched a a' (n + m)
  | refused => exact .refused
  | exhausted => exact .exhausted

theorem bind {f g : α → Cursor → Reply β} (h : Parallel k k' x y)
    (hf : ∀ a a' n, Parallel (k.advance n) (k'.advance n) (f a (k.advance n)) (g a' (k'.advance n))) :
    Parallel k k' (x.bind f) (y.bind g) := by
  cases h with
  | matched a a' n => exact (hf a a' n).shift
  | refused => exact .refused
  | exhausted => exact .exhausted

theorem cases {f g : α → Cursor → Reply β} {z w : Reply β} (h : Parallel k k' x y)
    (hf : ∀ a a' n, Parallel k k' (f a (k.advance n)) (g a' (k'.advance n)))
    (hz : Parallel k k' z w) : Parallel k k' (x.cases f z) (y.cases g w) := by
  cases h with
  | matched a a' n => exact hf a a' n
  | refused => exact hz
  | exhausted => exact .exhausted

/-- A repetition that has rounds enough. -/
theorem repeated {x : Cursor → Reply α}
    (hx : ∀ k k', k.rest = k'.rest → Parallel k k' (x k) (x k')) {n n' : Nat}
    {found found' : List α} (hrest : k.rest = k'.rest) (hn : k.rest.length ≤ n)
    (hn' : k.rest.length ≤ n') :
    Parallel k k' (Reply.repeated x n found k) (Reply.repeated x n' found' k') := by
  induction n generalizing k k' n' found found' with
  | zero =>
    have hend : k.atEnd = true := by
      rw [Cursor.atEnd, List.isEmpty_iff]
      exact List.eq_nil_of_length_eq_zero (Nat.le_zero.1 hn)
    rw [repeated_of_end hend, repeated_of_end ((Cursor.atEnd_eq hrest).symm.trans hend)]
    exact here k k' _ _
  | succ n ih =>
    by_cases hend : k.atEnd = true
    · rw [repeated_of_end hend, repeated_of_end ((Cursor.atEnd_eq hrest).symm.trans hend)]
      exact here k k' _ _
    · have hpos : 0 < k.rest.length := by
        rw [List.length_pos_iff]
        simpa [Cursor.atEnd] using hend
      obtain ⟨m, rfl⟩ : ∃ m, n' = m + 1 := ⟨n' - 1, by omega⟩
      rw [Reply.repeated, Reply.repeated, ← Cursor.atEnd_eq hrest, if_neg hend, if_neg hend]
      refine (hx k k' hrest).cases (fun a a' j => ?_) (here k k' _ _)
      have hsame := Cursor.offset_advance_iff hrest j
      by_cases ho : (k.advance j).offset = k.offset
      · rw [if_pos ho, if_pos (hsame.1 ho)]
        exact .matched _ _ j
      · rw [if_neg ho, if_neg (fun h => ho (hsame.2 h))]
        have hlt := ((Cursor.Reaches.refl k).advance j).lt_of_offset_ne ho
        exact (ih (Cursor.rest_advance_eq hrest j) (by omega) (by omega)).shift

end Reply.Parallel

section

variable {scan : T → List Char → Option Nat} {call : (r : R) → Cursor → Reply (V r)}

theorem Expression.answer_parallel
    (hcall : ∀ r k k', k.rest = k'.rest → Reply.Parallel k k' (call r k) (call r k'))
    (p : Expression T R V α) {k k' : Cursor} (h : k.rest = k'.rest) :
    Reply.Parallel k k' (p.answer scan call k) (p.answer scan call k') := by
  induction p generalizing k k' with
  | text s =>
    unfold answer
    rw [h]
    split
    · exact .matched _ _ _
    · exact .refused
  | symbol table =>
    unfold answer
    rw [h]
    split
    · exact .matched _ _ _
    · exact .refused
  | token t =>
    unfold answer
    rw [h]
    split
    · exact .matched _ _ _
    · exact .refused
  | rule r => exact hcall r k k' h
  | both p q ihp ihq =>
    exact (ihp h).bind fun a a' n => (ihq (Cursor.rest_advance_eq h n)).bind fun b b' m =>
      .here _ _ _ _
  | either p q ihp ihq => exact (ihp h).cases (fun a a' n => .matched a a' n) (ihq h)
  | option p ih =>
    unfold answer
    rw [← Cursor.atEnd_eq h]
    split
    · exact .here k k' _ _
    · exact (ih h).cases (fun a a' n => .matched _ _ n) (.here k k' _ _)
  | many p ih => exact .repeated (fun _ _ => ih) h (Nat.le_refl _) (Nat.le_of_eq (by rw [h]))
  | many1 p ih =>
    unfold answer
    rw [← Cursor.atEnd_eq h]
    split
    · exact .refused
    · refine (ih h).bind fun a a' n => ?_
      have hsame := Cursor.offset_advance_iff h n
      have hrest := Cursor.rest_advance_eq h n
      by_cases ho : (k.advance n).offset = k.offset
      · rw [if_pos ho, if_pos (hsame.1 ho)]
        exact .here _ _ _ _
      · rw [if_neg ho, if_neg (fun h => ho (hsame.2 h))]
        exact .repeated (fun _ _ => ih) hrest (Nat.le_refl _) (Nat.le_of_eq (by rw [hrest]))
  | absent p ih => exact (ih h).cases (fun _ _ _ => .refused) (.here k k' _ _)
  | ahead p ih => exact (ih h).cases (fun _ _ _ => .here k k' _ _) .refused
  | act f p ih => exact (ih h).bind fun _ _ _ => .here _ _ _ _

/-- What a rule replies depends on the text ahead alone, up to its value. -/
theorem Grammar.answer_parallel (g : Grammar T R V) (depth : Nat) (r : R) {k k' : Cursor}
    (h : k.rest = k'.rest) : Reply.Parallel k k' (g.answer depth r k) (g.answer depth r k') := by
  induction depth generalizing r k k' with
  | zero => exact .exhausted
  | succ depth ih => exact Expression.answer_parallel (fun r _ _ => ih r) (g.body r) h

theorem Grammar.reply_parallel (g : Grammar T R V) (r : R) {k k' : Cursor}
    (h : k.rest = k'.rest) : Reply.Parallel k k' (g.reply r k) (g.reply r k') := by
  unfold Grammar.reply
  rw [← h]
  exact g.answer_parallel _ r h

end

end InkGauge.Peg
