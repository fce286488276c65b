import InkGauge.Number.Binary64

/-!
The greatest double is `2 ^ 1024 - 2 ^ 971`. An integer is rounded to the nearest double and a half
goes to the even neighbour, so that from halfway between the greatest double and `2 ^ 1024` on an
integer is rounded to infinity. A quotient of at most one never is, however large its two numbers.
-/

namespace InkGauge.Number

/-- The number that lies one power of two below another. It is never worked out. -/
@[irreducible] def below (w k : Nat) : Nat := Nat.pow 2 w - Nat.pow 2 k

/-- The least natural number that is rounded to infinity. -/
def doubleLimit : Nat := below 1024 970

/-- What lies below an even multiple is rounded up to it from the half on. -/
theorem roundDiv_eq_iff {n half m : Nat} (hhalf : 0 < half) (heven : m % 2 = 0)
    (hn : n < m * (2 * half)) : roundDiv n (2 * half) = m ↔ m * (2 * half) ≤ n + half := by
  have hq : n / (2 * half) < m := (Nat.div_lt_iff_lt_mul (by omega)).2 hn
  have hr : n % (2 * half) < 2 * half := Nat.mod_lt _ (by omega)
  have hdiv := Nat.div_add_mod n (2 * half)
  unfold roundDiv
  dsimp only
  generalize n / (2 * half) = q at hq hdiv ⊢
  generalize n % (2 * half) = r at hr hdiv ⊢
  by_cases hlast : q + 1 = m
  · have hm : m * (2 * half) = 2 * half * q + 2 * half := by
      rw [← hlast, Nat.add_mul, Nat.one_mul, Nat.mul_comm q]
    rw [hm]
    split
    · omega
    · split <;> omega
  · have hm : 2 * half * q + 2 * (2 * half) ≤ m * (2 * half) := by
      rw [Nat.mul_comm (2 * half) q, ← Nat.add_mul]
      exact Nat.mul_le_mul_right _ (by omega)
    split
    · omega
    · split <;> omega

namespace Binary64

/-- A mantissa has 53 digits. -/
theorem fittingExponent_one {n : Nat} (hn : n ≠ 0) :
    fittingExponent n 1 = (n.log2 : Int) - 52 := by
  have hlog : Nat.pow 2 n.log2 ≤ n := Nat.log2_self_le hn
  have hone : Nat.log2 1 = 0 := by decide
  simp only [fittingExponent, hone, minExponent]
  generalize he : (n.log2 : Int) - (0 : Nat) - 53 = e
  have hfull : if 0 ≤ e then 1 * Nat.pow 2 e.toNat * Nat.pow 2 53 ≤ n
      else 1 * Nat.pow 2 53 ≤ n * Nat.pow 2 (-e).toNat := by
    split
    · have hexp : e.toNat + 53 = n.log2 := by omega
      calc 1 * Nat.pow 2 e.toNat * Nat.pow 2 53
          = Nat.pow 2 e.toNat * Nat.pow 2 53 := by rw [Nat.one_mul]
        _ = Nat.pow 2 (e.toNat + 53) := (Nat.pow_add 2 _ _).symm
        _ ≤ n := by rwa [hexp]
    · have hexp : n.log2 + (-e).toNat = 53 := by omega
      calc 1 * Nat.pow 2 53
          = Nat.pow 2 (n.log2 + (-e).toNat) := by rw [Nat.one_mul, hexp]
        _ = Nat.pow 2 n.log2 * Nat.pow 2 (-e).toNat := Nat.pow_add 2 _ _
        _ ≤ n * Nat.pow 2 (-e).toNat := Nat.mul_le_mul_right _ hlog
  rw [if_pos hfull]
  omega

/-- Only the greatest exponent leaves it to the mantissa. -/
theorem isInfinite_ofRatio_one {n : Nat} (negative : Bool) (hn : n ≠ 0) :
    (ofRatio negative n 1).isInfinite = true ↔
      1023 < n.log2 ∨ n.log2 = 1023 ∧ scaled n 1 (971 : Nat) = Nat.pow 2 53 := by
  have he := fittingExponent_one hn
  simp only [ofRatio, hn, if_false]
  by_cases hlast : n.log2 = 1023
  · have hexp : fittingExponent n 1 = (971 : Nat) := by omega
    rw [hexp]
    by_cases hround : scaled n 1 (971 : Nat) = Nat.pow 2 53
    · have hlt : maxExponent < ((971 : Nat) : Int) + 1 := by decide
      simp only [hround, if_true, hlt, isInfinite, hlast, and_self, or_true]
    · have hge : ¬maxExponent < ((971 : Nat) : Int) := by decide
      simp only [hround, if_false, hge, isInfinite, hlast, and_false, or_false]
      decide
  · have hmax : maxExponent = 971 := rfl
    split
    · by_cases hlt : maxExponent < fittingExponent n 1 + 1
      · simp only [hlt, if_true, isInfinite, true_iff]
        omega
      · simp only [hlt, if_false, isInfinite, Bool.false_eq_true, false_iff]
        omega
    · by_cases hlt : maxExponent < fittingExponent n 1
      · simp only [hlt, if_true, isInfinite, true_iff]
        omega
      · simp only [hlt, if_false, isInfinite, Bool.false_eq_true, false_iff]
        omega

-- The exponents are variables up to the last step, so that no step works the powers out.

theorem pow_eq_mul {m k l : Nat} (h : l = m + k) : Nat.pow 2 l = Nat.pow 2 m * Nat.pow 2 k := by
  rw [h]
  exact Nat.pow_add 2 m k

theorem scaled_one (n : Nat) {k l : Nat} (h : l = k + 1) :
    scaled n 1 l = roundDiv n (2 * Nat.pow 2 k) := by
  have hpow : Nat.pow 2 l = 2 * Nat.pow 2 k := by
    rw [h]
    exact Nat.pow_succ'
  rw [scaled, if_pos (Int.natCast_nonneg l), Int.toNat_natCast, hpow, Nat.one_mul]

/-- The numbers with the most binary digits that are rounded up to one digit more. -/
theorem below_le_iff {n k s l w : Nat} (hn : n ≠ 0) (hs : s = k + 1) (hl : l = 53 + k)
    (hw : w = 54 + k) :
    (l < n.log2 ∨ n.log2 = l ∧ scaled n 1 s = Nat.pow 2 53) ↔ below w k ≤ n := by
  have hhalf : 0 < Nat.pow 2 k := Nat.two_pow_pos k
  have hlow : n.log2 < l ↔ n < Nat.pow 2 l := Nat.log2_lt hn
  have hhigh : n.log2 < w ↔ n < Nat.pow 2 w := Nat.log2_lt hn
  have hmantissa : Nat.pow 2 53 = 9007199254740992 := rfl
  have hdouble : Nat.pow 2 54 = 18014398509481984 := rfl
  rw [pow_eq_mul hl, hmantissa] at hlow
  rw [pow_eq_mul hw, hdouble] at hhigh
  rw [below, pow_eq_mul hw, hdouble, scaled_one n hs]
  generalize Nat.pow 2 k = half at *
  by_cases hlt : n.log2 < w
  · have hbound : n < Nat.pow 2 53 * (2 * half) := by
      rw [hmantissa]
      omega
    rw [roundDiv_eq_iff hhalf (by decide) hbound, hmantissa]
    omega
  · omega

theorem below_pos {k w : Nat} (hw : w = 54 + k) : 0 < below w k := by
  rw [below]
  exact Nat.sub_pos_of_lt (Nat.pow_lt_pow_right (by decide) (by omega))

/-- Exactly the integers from the limit on are rounded to infinity. -/
theorem ofRatio_one_infinite (negative : Bool) (n : Nat) :
    (ofRatio negative n 1).isInfinite = true ↔ doubleLimit ≤ n := by
  by_cases hn : n = 0
  · have hfinite : (ofRatio negative n 1).isInfinite = false := by
      simp [ofRatio, hn, zero, isInfinite]
    have hlimit : 0 < doubleLimit := below_pos rfl
    rw [hfinite, hn]
    simp only [Bool.false_eq_true, false_iff]
    omega
  · rw [isInfinite_ofRatio_one negative hn]
    exact below_le_iff hn rfl rfl rfl

/-- There is a double nearest to an integer exactly if the integer is below the limit. -/
theorem ofInt_eq (n : Int) : (∃ x, ofInt n = .ok x) ∧ n.natAbs < doubleLimit ∨
    ofInt n = .error .integerTooLarge ∧ doubleLimit ≤ n.natAbs := by
  have hinfinite := ofRatio_one_infinite (n < 0) n.natAbs
  unfold ofInt
  cases hx : ofRatio (n < 0) n.natAbs 1 with
  | infinite s =>
    rw [hx] at hinfinite
    exact .inr ⟨rfl, hinfinite.1 rfl⟩
  | finite s m e =>
    rw [hx] at hinfinite
    refine .inl ⟨⟨_, rfl⟩, Nat.lt_of_not_le fun hle => ?_⟩
    cases hinfinite.2 hle
  | nan =>
    rw [hx] at hinfinite
    refine .inl ⟨⟨_, rfl⟩, Nat.lt_of_not_le fun hle => ?_⟩
    cases hinfinite.2 hle

/-- No quotient of at most one lies beyond the doubles. -/
theorem ofRatio_not_infinite {n d : Nat} (negative : Bool) (h : n ≤ d) :
    (ofRatio negative n d).isInfinite = false := by
  unfold ofRatio
  split
  · rfl
  case isFalse hn =>
    have hlog : n.log2 ≤ d.log2 :=
      (Nat.le_log2 (by omega)).2 (Nat.le_trans (Nat.log2_self_le hn) h)
    have he : fittingExponent n d ≤ -52 := by
      simp only [fittingExponent, minExponent]
      split <;> omega
    have hmax : maxExponent = 971 := rfl
    dsimp only
    split
    · rw [if_neg (by omega)]
      rfl
    · rw [if_neg (by omega)]
      rfl

/-- A share of at most the whole has a percentage. -/
theorem exists_percentage {a b : Int} (hb : b ≠ 0) (h : a.natAbs ≤ b.natAbs) :
    ∃ x, percentage a b = .ok x := by
  have hfinite := ofRatio_not_infinite ((a < 0) != (b < 0)) h
  unfold percentage ofQuotient
  rw [if_neg hb]
  cases hx : ofRatio ((a < 0) != (b < 0)) a.natAbs b.natAbs with
  | infinite s =>
    rw [hx] at hfinite
    cases hfinite
  | finite s m e => exact ⟨_, rfl⟩
  | nan => exact ⟨_, rfl⟩

end Binary64

end InkGauge.Number
