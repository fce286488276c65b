import InkGauge.Proofs.Analysis.Groups
import InkGauge.Proofs.Analysis.Reported

/-!
The analysis does not divide by zero.

A share is taken of a total that is positive, an average over a category that has an operation, and
the gas by a price that is not zero. Numbers may still turn out too large.
-/

namespace InkGauge.Number

/-- The computation does not divide by zero; it may fail in another way. -/
def DividesSafely {α : Type} (x : Except ArithError α) : Prop := x ≠ .error .divisionByZero

namespace DividesSafely

variable {α β : Type}

theorem ok (a : α) : DividesSafely (.ok a) := nofun

theorem bind {x : Except ArithError α} {f : α → Except ArithError β} (hx : DividesSafely x)
    (hf : ∀ a, DividesSafely (f a)) : DividesSafely (x >>= f) := by
  cases x with
  | error e =>
    intro h
    cases h
    exact hx rfl
  | ok a => exact hf a

theorem map {x : Except ArithError α} (f : α → β) (hx : DividesSafely x) :
    DividesSafely (x.map f) :=
  hx.bind fun a => ok (f a)

theorem mapM {f : α → Except ArithError β} (hf : ∀ a, DividesSafely (f a)) (xs : List α) :
    DividesSafely (xs.mapM f) := by
  induction xs with
  | nil => exact ok []
  | cons x xs ih =>
    rw [List.mapM_cons]
    exact (hf x).bind fun y => ih.bind fun ys => ok (y :: ys)

theorem ofInt (n : Int) : DividesSafely (Binary64.ofInt n) := by
  unfold Binary64.ofInt
  split <;> exact nofun

theorem ofQuotient (a : Int) {b : Int} (hb : b ≠ 0) : DividesSafely (Binary64.ofQuotient a b) := by
  unfold Binary64.ofQuotient
  rw [if_neg hb]
  split <;> exact nofun

theorem percentage (a : Int) {b : Int} (hb : b ≠ 0) : DividesSafely (Binary64.percentage a b) :=
  (ofQuotient a hb).map _

end DividesSafely

end InkGauge.Number

namespace InkGauge.Analysis

open Contract Cost Number Settings

theorem dividesSafely_shareOf (ink total : Int) : DividesSafely (shareOf ink total) := by
  unfold shareOf
  split
  case isTrue htotal => exact .percentage ink htotal.ne'
  case isFalse => exact .ok _

theorem dividesSafely_withShares (ops : List Operation) : DividesSafely (withShares ops) := by
  refine .mapM (fun op => ?_) ops
  exact (dividesSafely_shareOf _ _).bind fun _ => .ok _

/-- No average is taken over nothing. -/
theorem ne_nil_of_mem_inksByCategory {ops : List Operation} {category : Category} {inks : List Int}
    (h : (category, inks) ∈ inksByCategory ops) : inks ≠ [] := by
  rw [inksByCategory_eq] at h
  obtain ⟨op, -, hhead⟩ := head_of_mem_groups h
  intro hnil
  rw [hnil] at hhead
  cases hhead

theorem dividesSafely_categoryStats (ops : List Operation) : DividesSafely (categoryStats ops) := by
  refine .mapM (fun (_, inks) => ?_) _
  have hstats : DividesSafely (statsOf (totalInk ops) inks) :=
    (dividesSafely_shareOf _ _).bind fun _ => .ok _
  exact hstats.bind fun _ => .ok _

theorem dividesSafely_redundantRead? (cfg : SuggestionConfig) (index : Nat) (op : Operation) :
    DividesSafely (redundantRead? cfg index op) := by
  unfold redundantRead?
  split
  · exact .ok none
  · have hsaved : DividesSafely (millions cfg.redundantReadSavings) := (DividesSafely.ofInt _).map _
    exact hsaved.bind fun _ => .ok _

theorem dividesSafely_cacheableRead? (cfg : SuggestionConfig) (entity : String) (lines : List Int) :
    DividesSafely (cacheableRead? cfg entity lines) := by
  unfold cacheableRead?
  dsimp only
  split
  case isTrue => exact .ok none
  case isFalse hcount =>
    have hlength : (lines.length : Int) ≠ 0 := by omega
    have hsaved : DividesSafely (millions (cfg.cachedReadSavings * ((lines.length : Int) - 1))) :=
      (DividesSafely.ofInt _).map _
    exact hsaved.bind fun _ => (DividesSafely.percentage _ hlength).bind fun _ => .ok _

theorem dividesSafely_suggestions (cfg : SuggestionConfig) (ops : List Operation) :
    DividesSafely (suggestions cfg ops) := by
  have hredundant : DividesSafely (redundantReads cfg ops) :=
    (DividesSafely.mapM (fun (op, index) => dividesSafely_redundantRead? cfg index op) _).bind
      fun _ => .ok _
  have hcacheable : DividesSafely (cacheableReads cfg ops) :=
    (DividesSafely.mapM (fun (entity, lines) => dividesSafely_cacheableRead? cfg entity lines) _).bind
      fun _ => .ok _
  exact hredundant.bind fun _ => hcacheable.bind fun _ => .ok _

theorem dividesSafely_analyzeFunction {config : Config} (h : config.inkPerGas ≠ 0)
    (e : EntryPoint) : DividesSafely (analyzeFunction config e) := by
  refine (dividesSafely_withShares _).bind fun ops => ?_
  simp only [if_neg h]
  exact (dividesSafely_categoryStats ops).bind fun _ =>
    (dividesSafely_suggestions config.optimizations ops).bind fun _ => .ok _

theorem error_of_bind_eq_error {ε α β : Type} {x : Except ε α} {f : α → Except ε β} {e : ε}
    (h : x >>= f = .error e) : x = .error e ∨ ∃ a, x = .ok a ∧ f a = .error e := by
  cases x with
  | error e' =>
    cases h
    exact .inl rfl
  | ok a => exact .inr ⟨a, rfl, h⟩

theorem error_of_mapError_eq_error {ε ε' α : Type} {x : Except ε α} {g : ε → ε'} {e' : ε'}
    (h : x.mapError g = .error e') : ∃ e, x = .error e ∧ g e = e' := by
  cases x with
  | error e =>
    cases h
    exact ⟨e, rfl, rfl⟩
  | ok a => cases h

theorem select_ne_arith (file : String) (discovery : Discovery) (target : Option String)
    (e : ArithError) : select file discovery target ≠ .error (.arith e) := by
  unfold select
  dsimp only
  split
  · exact nofun
  split
  · exact nofun
  split <;> exact nofun

/-- With a price of gas, the analysis of a contract does not divide by zero. -/
theorem analyze_ne_divisionByZero {config : Config} (h : config.inkPerGas ≠ 0)
    (source : List Char) (file : String) (target : Option String) :
    analyze config source file target ≠ .error (.arith .divisionByZero) := by
  intro herror
  rcases error_of_bind_eq_error herror with hparse | ⟨tree, -, htree⟩
  · obtain ⟨fault, -, hfault⟩ := error_of_mapError_eq_error hparse
    cases hfault
  rcases error_of_bind_eq_error htree with hselect | ⟨chosen, -, hchosen⟩
  · exact select_ne_arith _ _ _ _ hselect
  rcases error_of_bind_eq_error hchosen with hfunctions | ⟨functions, -, hreport⟩
  · obtain ⟨e, he, harith⟩ := error_of_mapError_eq_error hfunctions
    cases harith
    exact DividesSafely.mapM (dividesSafely_analyzeFunction h) chosen he
  · cases hreport

end InkGauge.Analysis
