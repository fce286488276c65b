import InkGauge.Probe.Dump

/-!
Which numbers a text makes known does not depend on their values, so all that its lines say can be
listed without working out a number. Reading ends at the first number of too many digits in that
list, and if there is none it takes in everything that is said.
-/

namespace InkGauge.Probe.Dump

open Number Text

/-- The numbers of a line, in the order in which they are made out. -/
def Said.numerals : Said → List Numeral
  | .total n => [n]
  | .measurement m => m.probeId :: m.inkBefore :: m.inkAfter :: m.returnSize.toList
  | .entry _ n => [n]
  | .head id _ => [id]
  | .header => []
  | .nothing => []

/-- The number of digits, if there are too many. -/
def Numeral.excess? (n : Numeral) : Option Nat :=
  if maxDigits < n.digits.length then some n.digits.length else none

/-- The value, unless one of the numbers before it has too many digits. -/
def behind {α : Type} (ns : List Numeral) (a : α) : Except ArithError α :=
  (ns.findSome? Numeral.excess?).elim (.ok a) fun count => .error (.tooManyDigits count)

/-- Numbers that are made out one after the other end a reading as a list of them does. -/
theorem behind_bind {α β : Type} {ns ms : List Numeral} {a : α} {b : β}
    {f : α → Except ArithError β} (h : f a = behind ms b) :
    behind ns a >>= f = behind (ns ++ ms) b := by
  unfold behind at h ⊢
  rw [List.findSome?_append]
  cases ns.findSome? Numeral.excess? with
  | none => exact h
  | some count => rfl

theorem behind_map {α β : Type} (ns : List Numeral) (a : α) (f : α → β) :
    (do return f (← behind ns a)) = behind ns (f a) := by
  have hbind : (do return f (← behind ns a)) = behind (ns ++ []) (f a) := behind_bind rfl
  rwa [List.append_nil] at hbind

theorem findSome?_excess? {ns : List Numeral} (h : ∀ n ∈ ns, n.digits.length ≤ maxDigits) :
    ns.findSome? Numeral.excess? = none := by
  rw [List.findSome?_eq_none_iff]
  intro n hn
  exact if_neg (Nat.not_lt.2 (h n hn))

theorem behind_of_short {α : Type} {ns : List Numeral} (h : ∀ n ∈ ns, n.digits.length ≤ maxDigits)
    (a : α) : behind ns a = .ok a := by
  rw [behind, findSome?_excess? h]
  rfl

theorem behind_of_long {α : Type} {ns ms : List Numeral} {n : Numeral}
    (h : ∀ n ∈ ns, n.digits.length ≤ maxDigits) (hn : maxDigits < n.digits.length) (a : α) :
    behind (ns ++ n :: ms) a = .error (.tooManyDigits n.digits.length) := by
  have hexcess : n.excess? = some n.digits.length := if_pos hn
  rw [behind, List.findSome?_append, findSome?_excess? h, List.findSome?_cons, hexcess]
  rfl

theorem toInt_eq_behind (n : Numeral) : n.toInt = behind [n] n.value := by
  unfold behind Numeral.toInt
  by_cases h : maxDigits < n.digits.length
  · simp [Numeral.excess?, h]
  · simp [Numeral.excess?, h]

/-- The measurement that a text stands for. -/
def MeasurementText.measurement (m : MeasurementText) : Measurement :=
  ⟨m.probeId.value, m.inkBefore.value, m.inkAfter.value, 1, m.returnSize.map Numeral.value,
    m.operation⟩

theorem mapM_toInt_eq_behind (size : Option Numeral) :
    size.mapM Numeral.toInt = behind size.toList (size.map Numeral.value) := by
  cases size with
  | none => rfl
  | some n =>
    change some <$> n.toInt = _
    rw [toInt_eq_behind]
    unfold behind
    simp only [Option.toList_some, Option.map_some]
    cases [n].findSome? Numeral.excess? <;> rfl

theorem toMeasurement_eq_behind (m : MeasurementText) :
    m.toMeasurement = behind (Said.measurement m).numerals m.measurement := by
  have hsize := mapM_toInt_eq_behind m.returnSize
  have hnumerals : (Said.measurement m).numerals =
      [m.probeId] ++ ([m.inkBefore] ++ ([m.inkAfter] ++ (m.returnSize.toList ++ []))) := by
    simp [Said.numerals]
  rw [MeasurementText.toMeasurement, toInt_eq_behind, toInt_eq_behind, toInt_eq_behind, hsize,
    hnumerals]
  exact behind_bind (behind_bind (behind_bind (behind_bind rfl)))

/-- The reading with what a line says, whatever the length of its numbers. -/
def Reading.note (r : Reading) : Said → Reading
  | .total n => { r with dump.total := n.value }
  | .measurement m => { r with dump.measurements := r.dump.measurements ++ [m.measurement] }
  | .header => { r with inOvercharges := true }
  | .entry e n => { r with current := r.current.map (e.set n.value) }
  | .head id operation => { r.flush with current := some ⟨id.value, operation, 0, 0, 0, 0⟩ }
  | .nothing => r

theorem take_eq_behind (r : Reading) (s : Said) : r.take s = behind s.numerals (r.note s) := by
  cases s with
  | total n =>
    rw [Reading.take, toInt_eq_behind]
    exact behind_map _ _ fun n => _
  | measurement m =>
    rw [Reading.take, toMeasurement_eq_behind]
    exact behind_map _ _ fun m => _
  | header => rfl
  | entry e n =>
    rw [Reading.take, toInt_eq_behind]
    exact behind_map _ _ fun n => _
  | head id operation =>
    rw [Reading.take, toInt_eq_behind]
    exact behind_map _ _ fun n => _
  | nothing => rfl

/-- What lines say, one after the other. -/
def saidFrom (r : Reading) : List (List Char) → List Said
  | [] => []
  | l :: ls => r.said l :: saidFrom (r.note (r.said l)) ls

/-- All that the lines of a text say. -/
def saidBy (text : List Char) : List Said := saidFrom .start (lines text)

theorem foldlM_line_eq_behind (r : Reading) (ls : List (List Char)) :
    ls.foldlM Reading.line r =
      behind ((saidFrom r ls).flatMap Said.numerals) ((saidFrom r ls).foldl Reading.note r) := by
  induction ls generalizing r with
  | nil => rfl
  | cons l ls ih =>
    rw [List.foldlM_cons, saidFrom, List.flatMap_cons, List.foldl_cons, Reading.line, take_eq_behind]
    exact behind_bind (ih _)

/-- A reading takes in all that is said, up to a number of too many digits. -/
theorem read_eq_behind (text : List Char) : read text =
    behind ((saidBy text).flatMap Said.numerals)
      ((saidBy text).foldl Reading.note .start).flush.dump := by
  rw [read, foldlM_line_eq_behind]
  exact behind_map _ _ fun r : Reading => r.flush.dump

end InkGauge.Probe.Dump
