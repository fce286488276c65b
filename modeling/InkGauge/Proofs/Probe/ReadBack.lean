import InkGauge.Probe.Dump
import InkGauge.Proofs.Contract.Token
import Mathlib.Algebra.Ring.Int.Defs
import Mathlib.Algebra.Ring.Nat
import Mathlib.Data.List.Basic
import Mathlib.Tactic.Common

/-!
A report reads back as what was written.

A number is followed by a character that is no digit, and no line has a line boundary of its own.
So reading meets the lines one by one: a measurement is read whole from its line, and an overcharge
is collected from the five lines after its head and put away by what comes next.
-/

namespace InkGauge.Probe

open Number Text

theorem toNat_of_isDigit {c : Char} (h : c.isDigit = true) : 48 ≤ c.toNat ∧ c.toNat ≤ 57 := by
  simpa [Char.isDigit, UInt32.le_iff_toNat_le] using h

theorem digit?_of_isDigit {c : Char} (h : c.isDigit = true) :
    digit? c = some (c.toNat - '0'.toNat) := by
  have hrange := toNat_of_isDigit h
  have hfind : zeros.find? (fun z => z ≤ c.toNat && c.toNat < z + 10) = some 48 := by
    rw [zeros, List.find?_cons_of_pos]
    simp only [Bool.and_eq_true, decide_eq_true_eq]
    omega
  simp [digit?, hfind]

theorem isDigit_of_mem_natText {n : Nat} {c : Char} (h : c ∈ (natText n).toList) :
    c.isDigit = true := by
  rw [natText, String.toList_ofList] at h
  exact Nat.isDigit_of_mem_toDigits (by decide) (by decide) h

theorem natOfDigits_natText (n : Nat) : natOfDigits (natText n).toList = n := by
  have hfold : natOfDigits (natText n).toList = Nat.ofDigitChars 10 (natText n).toList 0 := by
    rw [natOfDigits, Nat.ofDigitChars]
    refine List.foldl_ext _ _ _ fun sum c hc => ?_
    rw [digit?_of_isDigit (isDigit_of_mem_natText hc), Option.getD_some]
  rw [hfold, natText, String.toList_ofList]
  exact Nat.ofDigitChars_toDigits (by decide) (by decide)

/-- The number as it is written. -/
def Dump.Numeral.of (n : Int) : Dump.Numeral := ⟨(intText n).toList⟩

theorem intText_of_nonneg {n : Int} (hn : 0 ≤ n) : intText n = natText n.natAbs := by
  rw [intText, if_neg (by omega)]

theorem number?_intText {n : Int} (hn : 0 ≤ n) {s : List Char}
    (hs : s.head?.any isDecimal = false) :
    Dump.number? ((intText n).toList ++ s) = some (.of n, s) := by
  have hdigits : ∀ c ∈ (natText n.natAbs).toList, isDecimal c = true := fun c hc => by
    rw [isDecimal, digit?_of_isDigit (isDigit_of_mem_natText hc), Option.isSome_some]
  have hne : (natText n.natAbs).toList ≠ [] := by
    rw [natText, String.toList_ofList]
    exact Nat.toDigits_ne_nil
  have htake : s.takeWhile isDecimal = [] := by cases s <;> simp_all
  have hdrop : s.dropWhile isDecimal = s := by cases s <;> simp_all
  rw [Dump.Numeral.of, intText_of_nonneg hn, Dump.number?, List.takeWhile_append_of_pos hdigits,
    List.dropWhile_append_of_pos hdigits, htake, hdrop, List.append_nil]
  split
  case h_1 heq => exact absurd heq hne
  case h_2 ds hds => rfl

/-- A text without line boundaries. -/
def oneLine (s : List Char) : Bool := s.all fun c => !isLineBoundary c

@[simp]
theorem oneLine_append (s t : List Char) : oneLine (s ++ t) = (oneLine s && oneLine t) :=
  List.all_append

theorem oneLine_of_isDigit {s : List Char} (h : ∀ c ∈ s, c.isDigit = true) :
    oneLine s = true := by
  rw [oneLine, List.all_eq_true]
  intro c hc
  have hrange := toNat_of_isDigit (h c hc)
  simp only [isLineBoundary, Bool.not_eq_true', Bool.or_eq_false_iff, Bool.and_eq_false_iff,
    decide_eq_false_iff_not, beq_eq_false_iff_ne]
  omega

theorem oneLine_intText {n : Int} : oneLine (intText n).toList = true := by
  rw [intText]
  split
  · rw [String.toList_append, oneLine_append,
      oneLine_of_isDigit fun c hc => isDigit_of_mem_natText hc]
    rfl
  · exact oneLine_of_isDigit fun c hc => isDigit_of_mem_natText hc

theorem linesFrom_append {l : List Char} (hl : oneLine l = true) (done s : List Char) :
    linesFrom done (l ++ '\n' :: s) = (done.reverse ++ l) :: linesFrom [] s := by
  induction l generalizing done with
  | nil => simp [linesFrom, isLineBoundary]
  | cons c l ih =>
    simp only [oneLine, List.all_cons, Bool.and_eq_true, Bool.not_eq_true'] at hl
    have hcr : c ≠ '\r' := by
      rintro rfl
      exact absurd hl.1 (by decide)
    rw [List.cons_append, linesFrom]
    · rw [if_neg (by simp [hl.1]), ih hl.2]
      simp
    · exact fun _ h _ => hcr h

/-- Lines that are ended by line feeds are read one by one. -/
theorem lines_flatMap {ls : List (List Char)} (h : ∀ l ∈ ls, oneLine l = true) :
    lines (ls.flatMap (· ++ ['\n'])) = ls := by
  induction ls with
  | nil => rfl
  | cons l ls ih =>
    have hrest := ih fun l' hl' => h l' (List.mem_cons_of_mem _ hl')
    rw [lines] at hrest ⊢
    rw [List.flatMap_cons, List.append_assoc, List.singleton_append,
      linesFrom_append (h l List.mem_cons_self), hrest]
    rfl

theorem toList_intercalate_newline {ls : List String} (h : ls ≠ []) :
    ("\n".intercalate ls ++ "\n").toList = (ls.map String.toList).flatMap (· ++ ['\n']) := by
  induction ls with
  | nil => exact absurd rfl h
  | cons l ls ih =>
    cases ls with
    | nil => simp
    | cons l' ls =>
      rw [String.intercalate_cons_cons, String.append_assoc, String.toList_append, ih (by simp)]
      simp

/-- A text whose last character is not blank has no blanks to trim at its end. -/
theorem trimRight_append {s t : List Char} (ht : t.getLast?.any (!isBlank ·) = true) :
    trimRight (s ++ t) = s ++ t := by
  obtain rfl | ⟨t, c, rfl⟩ := List.eq_nil_or_concat t
  · simp at ht
  have hc : isBlank c = false := by simpa using ht
  simp [trimRight, hc]

namespace Dump

/-- A number that fits a word of the machine. -/
def IsWord (n : Int) : Prop := 0 ≤ n ∧ n < 2 ^ 64

instance (n : Int) : Decidable (IsWord n) := inferInstanceAs (Decidable (_ ∧ _))

theorem word_le_pow {k : Nat} (hk : 20 ≤ k) : 2 ^ 64 ≤ 10 ^ k :=
  calc 2 ^ 64 ≤ 10 ^ 20 := by decide
    _ ≤ 10 ^ k := Nat.pow_le_pow_right (by decide) hk

/-- A word is written with few digits, and they stand for it. -/
theorem Numeral.toInt_of {n : Int} (h : IsWord n) : (Numeral.of n).toInt = .ok n := by
  have hlt : n.natAbs < 2 ^ 64 := by
    rw [IsWord] at h
    omega
  have hlength : ∀ k, 20 ≤ k → (natText n.natAbs).toList.length ≤ k := by
    intro k hk
    rw [natText, String.toList_ofList]
    exact (Nat.length_toDigits_le_iff (by decide) (by omega)).2 (hlt.trans_le (word_le_pow hk))
  have hshort : (natText n.natAbs).toList.length ≤ maxDigits := hlength _ (by decide)
  rw [toInt, of, intText_of_nonneg h.1, if_neg (by simpa using hshort), value, natOfDigits_natText,
    Int.natAbs_of_nonneg h.1]

/-- A label that stands between round brackets and is not taken for an unknown one. -/
structure IsLabel (name : String) : Prop where
  ne_empty : name ≠ ""
  known : name ≠ unknownOperation
  unbracketed : ')' ∉ name.toList
  oneLine : oneLine name.toList = true

structure LegibleMeasurement (m : Measurement) : Prop where
  probeId : IsWord m.probeId
  inkBefore : IsWord m.inkBefore
  inkAfter : IsWord m.inkAfter
  returnSize : ∀ size ∈ m.returnSize, IsWord size
  operation : ∀ name ∈ m.operation, IsLabel name

/-- The name of an overcharge ends its line, so it has a last character and that is not blank. -/
structure LegibleOvercharge (o : Overcharge) : Prop where
  probeId : IsWord o.probeId
  inkCharged : IsWord o.inkCharged
  returnSize : IsWord o.returnSize
  expected : IsWord o.expected
  amount : IsWord o.amount
  oneLine : oneLine o.operation.toList = true
  unblank : o.operation.toList.getLast?.any (!isBlank ·) = true

/-- A report whose text says all that is in it, the counts of the measurements apart. -/
structure Legible (d : Dump) : Prop where
  total : IsWord d.total
  measurements : ∀ m ∈ d.measurements, LegibleMeasurement m
  overcharges : ∀ o ∈ d.overcharges, LegibleOvercharge o

/-- A measurement as a report tells it: how often the probe was met is not in it. -/
def once (m : Measurement) : Measurement := { m with count := 1 }

theorem after?_append (t : String) (s : List Char) : after? t (t.toList ++ s) = some s :=
  dropPrefix?_append t.toList s

/-- A number ends where a text starts that does not go on with a digit. -/
theorem number?_before (t : String) (ht : t.toList.head?.any (!isDecimal ·) = true) {n : Int}
    (hn : 0 ≤ n) (s : List Char) :
    number? ((intText n).toList ++ (t.toList ++ s)) = some (.of n, t.toList ++ s) := by
  refine number?_intText hn ?_
  cases h : t.toList with
  | nil => simp [h] at ht
  | cons c cs => simpa [h] using ht

/-- The end of the line of a measurement. -/
def sizeText : Option Int → String
  | some size => " [return size=" ++ intText size ++ " bytes]"
  | none => ""

theorem measurementLine_eq (m : Measurement) : measurementLine m =
    "Probe #" ++ intText m.probeId ++ " (" ++ operationText m.operation ++ "): "
      ++ intText m.consumed ++ " ink consumed (before=" ++ intText m.inkBefore ++ ", after="
      ++ intText m.inkAfter ++ ")" ++ sizeText m.returnSize := rfl

theorem sizeText_some (n : Int) :
    sizeText (some n) = " [return size=" ++ intText n ++ " bytes]" := rfl

theorem size?_sizeText {size : Option Int} (h : ∀ n ∈ size, 0 ≤ n) :
    size? (sizeText size).toList = size.map .of := by
  cases size with
  | none => rfl
  | some n =>
    have hnumber := number?_before " bytes]" (by rfl) (h n rfl) []
    have hbytes := after?_append " bytes]" []
    rw [List.append_nil] at hnumber hbytes
    simp only [sizeText_some, size?, String.toList_append, List.append_assoc, after?_append,
      Option.bind_eq_bind, Option.bind_some]
    -- Left as a literal, the text would be evaluated wherever it is compared.
    generalize " bytes]".toList = t at hnumber hbytes ⊢
    simp only [hnumber, Option.bind_some, hbytes, Option.pure_def, Option.map_some]

/-- The label as it is written has no bracket, and reading takes back what stands for none. -/
theorem operationText_spec {operation : Option String}
    (h : ∀ name ∈ operation, IsLabel name) :
    ')' ∉ (operationText operation).toList ∧ oneLine (operationText operation).toList = true
      ∧ (if operationText operation = unknownOperation then none
          else some (operationText operation)) = operation := by
  cases operation with
  | none => exact ⟨by decide, by decide, rfl⟩
  | some name =>
    have hname := h name rfl
    have htext : operationText (some name) = name := by
      rw [operationText]
      exact hname.ne_empty
    rw [htext, if_neg hname.known]
    exact ⟨hname.unbracketed, hname.oneLine, rfl⟩

/-- The measurement as it is written. -/
def MeasurementText.of (m : Measurement) : MeasurementText :=
  ⟨.of m.probeId, .of m.inkBefore, .of m.inkAfter, m.returnSize.map .of, m.operation⟩

theorem MeasurementText.toMeasurement_of {m : Measurement} (hm : LegibleMeasurement m) :
    (MeasurementText.of m).toMeasurement = .ok (once m) := by
  have hsize : (m.returnSize.map Numeral.of).mapM Numeral.toInt = .ok m.returnSize := by
    cases hreturn : m.returnSize with
    | none => rfl
    | some size =>
      have hword := hm.returnSize size hreturn
      simp [Numeral.toInt_of hword, Functor.map, Except.map]
  simp only [toMeasurement, of, Numeral.toInt_of hm.probeId, Numeral.toInt_of hm.inkBefore,
    Numeral.toInt_of hm.inkAfter, hsize]
  rfl

theorem measurement?_measurementLine {m : Measurement} (hm : LegibleMeasurement m) :
    measurement? (measurementLine m).toList = some (.of m) := by
  obtain ⟨hbracket, -, hname⟩ := operationText_spec hm.operation
  have hinside : ∀ c ∈ (operationText m.operation).toList, (c != ')') = true := fun c hc => by
    simp only [bne_iff_ne]
    rintro rfl
    exact hbracket hc
  have hconsumed : 0 ≤ m.consumed := by
    rw [Measurement.consumed, inkBetween]
    omega
  have htake : ∀ s, ("): ".toList ++ s).takeWhile (· != ')') = [] := fun _ => rfl
  have hdrop : ∀ s, ("): ".toList ++ s).dropWhile (· != ')') = "): ".toList ++ s := fun _ => rfl
  rw [measurement?, measurementLine_eq]
  simp only [String.toList_append, List.append_assoc, after?_append, Option.bind_eq_bind,
    Option.bind_some, number?_before " (" (by rfl) hm.probeId.1, List.takeWhile_append_of_pos hinside,
    List.dropWhile_append_of_pos hinside, htake, hdrop, List.append_nil, String.ofList_toList,
    number?_before " ink consumed (before=" (by rfl) hconsumed,
    number?_before ", after=" (by rfl) hm.inkBefore.1,
    number?_before ")" (by rfl) hm.inkAfter.1,
    size?_sizeText fun size hsize => (hm.returnSize size hsize).1, hname, Option.pure_def]
  rfl

theorem head?_text {id : Int} (h : 0 ≤ id) {operation : String}
    (hne : operation.toList.isEmpty = false) :
    head? ("🐛 Probe ".toList ++ ((intText id).toList ++ (": ".toList ++ operation.toList)))
      = some (.of id, operation) := by
  have hat : headAt? ("Probe ".toList ++ ((intText id).toList ++ (": ".toList
      ++ operation.toList))) = some (.of id, operation) := by
    simp only [headAt?, after?_append, Option.bind_eq_bind, Option.bind_some,
      number?_before ": " (by rfl) h, hne, Bool.false_eq_true, if_false, String.ofList_toList,
      Option.pure_def]
  -- The mark is not blank and the blank behind it is passed over.
  have hblank : ∀ s, head? ("🐛 Probe ".toList ++ s)
      = (headAt? ("Probe ".toList ++ s)).or (headAt? ("🐛 Probe ".toList ++ s)) := fun _ => rfl
  rw [hblank, hat, Option.some_or]

theorem skipBlanks?_intText {gap : List Char} (hne : gap ≠ []) (hgap : gap.all isBlank = true)
    {n : Int} (hn : 0 ≤ n) (s : List Char) :
    skipBlanks? (gap ++ ((intText n).toList ++ s)) = some ((intText n).toList ++ s) := by
  obtain ⟨c, ds, hds⟩ : ∃ c ds, (intText n).toList = c :: ds := by
    cases h : (intText n).toList with
    | nil =>
      rw [intText, if_neg (by omega), natText, String.toList_ofList] at h
      exact absurd h Nat.toDigits_ne_nil
    | cons c ds => exact ⟨c, ds, rfl⟩
  have hc : isBlank c = false := by
    refine isBlank_of_isIdentPart (isIdentPart_of_isDigit (isDigit_of_mem_natText (n := n.natAbs) ?_))
    rw [← intText_of_nonneg hn, hds]
    exact List.mem_cons_self
  have htrim : trimLeft (gap ++ ((intText n).toList ++ s)) = (intText n).toList ++ s := by
    rw [trimLeft, List.dropWhile_append_of_pos (by simpa using hgap), hds, List.cons_append,
      List.dropWhile_cons_of_neg (by simp [hc])]
  have hhead : (gap ++ ((intText n).toList ++ s)).head?.any isBlank = true := by
    cases gap with
    | nil => exact absurd rfl hne
    | cons g gap => simp_all
  rw [skipBlanks?, if_pos hhead, htrim]

theorem findSome?_entryAt? {s : List Char} {e : Entry} {n : Numeral}
    (h : entryAt? s e = some (e, n)) (hother : ∀ e', e' ≠ e → entryAt? s e' = none) :
    [Entry.charged, .expected, .amount, .returnSize].findSome? (entryAt? s) = some (e, n) := by
  cases e <;> simp [h, hother]

/-- A line with a number of an overcharge. -/
def entryText (e : Entry) (gap : String) (n : Int) (tail : String) : String :=
  "   " ++ (e.label ++ ":") ++ gap ++ intText n ++ tail

theorem entry?_entryText (e : Entry) {gap : String} (hne : gap.toList ≠ [])
    (hgap : gap.toList.all isBlank = true) {n : Int} (hn : 0 ≤ n) {tail : String}
    (htail : tail.toList.head?.any isDecimal = false) :
    entry? (entryText e gap n tail).toList = some (e, .of n) := by
  have hat : entryAt? ((e.label ++ ":").toList ++ (gap.toList ++ ((intText n).toList
      ++ tail.toList))) e = some (e, .of n) := by
    simp only [entryAt?, after?_append, Option.bind_eq_bind, Option.bind_some,
      skipBlanks?_intText hne hgap hn, number?_intText hn htail, Option.pure_def]
  have hskip : ∀ s, skipBlanks? ("   ".toList ++ ((e.label ++ ":").toList ++ s))
      = some ((e.label ++ ":").toList ++ s) := by
    cases e <;> exact fun _ => rfl
  -- No label starts as another does.
  have hother : ∀ e', e' ≠ e → ∀ s, entryAt? ((e.label ++ ":").toList ++ s) e' = none := by
    intro e' h
    cases e <;> cases e' <;> first | exact absurd rfl h | exact fun _ => rfl
  have hline : (entryText e gap n tail).toList = "   ".toList ++ ((e.label ++ ":").toList
      ++ (gap.toList ++ ((intText n).toList ++ tail.toList))) := by
    simp only [entryText, String.toList_append, List.append_assoc]
  rw [hline, entry?, hskip, Option.bind_eq_bind, Option.bind_some]
  exact findSome?_entryAt? hat fun e' h => hother e' h _

theorem isDigit_of_mem_padded {k n : Nat} {c : Char}
    (h : c ∈ List.replicate k '0' ++ Nat.toDigits 10 n) : c.isDigit = true := by
  rcases List.mem_append.1 h with h | h
  · rw [List.eq_of_mem_replicate h]
    rfl
  · exact Nat.isDigit_of_mem_toDigits (by decide) (by decide) h

theorem oneLine_fixed (places : Nat) (x : Binary64) : oneLine (x.fixed places).toList = true := by
  cases x with
  | nan => exact (by decide : oneLine "nan".toList = true)
  | infinite negative =>
    cases negative
    · exact (by decide : oneLine "inf".toList = true)
    · exact (by decide : oneLine "-inf".toList = true)
  | finite negative m e =>
    have hsign : oneLine (if negative then "-" else "").toList = true := by
      cases negative <;> rfl
    have htake : ∀ i k n, oneLine ((List.replicate k '0' ++ Nat.toDigits 10 n).take i) = true :=
      fun i k n => oneLine_of_isDigit fun c hc => isDigit_of_mem_padded (List.mem_of_mem_take hc)
    have hdrop : ∀ i k n, oneLine ((List.replicate k '0' ++ Nat.toDigits 10 n).drop i) = true :=
      fun i k n => oneLine_of_isDigit fun c hc => isDigit_of_mem_padded (List.mem_of_mem_drop hc)
    rw [Binary64.fixed]
    generalize Binary64.fraction m e = x
    dsimp only
    by_cases hplaces : places = 0
    · simp only [hplaces, if_true, String.toList_append, String.toList_ofList, oneLine_append, hsign,
        htake, Bool.and_self]
    · simp only [hplaces, if_false, String.toList_append, String.toList_ofList, oneLine_append,
        hsign, htake, hdrop]
      rfl

theorem fittingExponent_le {n d : Nat} (hn : n < 2 ^ 64) : Binary64.fittingExponent n d ≤ 11 := by
  have hlog : n.log2 < 64 := by
    by_cases h : n = 0
    · simp [h]
    · exact (Nat.log2_lt h).2 hn
  simp only [Binary64.fittingExponent, Binary64.minExponent]
  omega

theorem ofRatio_ne_infinite {n d : Nat} (hn : n < 2 ^ 64) (negative sign : Bool) :
    Binary64.ofRatio negative n d ≠ .infinite sign := by
  have he := fittingExponent_le (d := d) hn
  rw [Binary64.ofRatio]
  generalize Binary64.fittingExponent n d = e at he
  by_cases hzero : n = 0
  · simp [hzero, Binary64.zero]
  · simp only [hzero, if_false]
    -- A mantissa that was rounded up to the next power of two takes one off the reserve.
    have hmax : ¬Binary64.maxExponent < (if Binary64.scaled n d e = Nat.pow 2 53
        then (Nat.pow 2 52, e + 1) else (Binary64.scaled n d e, e)).2 := by
      rw [Binary64.maxExponent]
      split <;> dsimp only <;> omega
    rw [if_neg hmax]
    exact Binary64.noConfusion

theorem percentage_eq_ok {o : Overcharge} (hamount : IsWord o.amount) :
    ∃ share, o.percentage = .ok share := by
  by_cases hexpected : o.expected ≤ 0
  · rw [Overcharge.percentage, if_pos hexpected]
    exact ⟨_, rfl⟩
  · have hne : o.expected ≠ 0 := by omega
    have hsmall : o.amount.natAbs < 2 ^ 64 := by
      rw [IsWord] at hamount
      omega
    rw [Overcharge.percentage, if_neg hexpected, Binary64.percentage, Binary64.ofQuotient,
      if_neg hne]
    split
    case h_1 sign heq => exact absurd heq (ofRatio_ne_infinite hsmall _ sign)
    case h_2 => exact ⟨_, rfl⟩

theorem oneLine_measurementLine {m : Measurement} (hm : LegibleMeasurement m) :
    oneLine (measurementLine m).toList = true := by
  have hsize : oneLine (sizeText m.returnSize).toList = true := by
    cases m.returnSize with
    | none => rfl
    | some n =>
      simp only [sizeText_some, String.toList_append, oneLine_append, oneLine_intText]
      rfl
  simp only [measurementLine_eq, String.toList_append, oneLine_append, oneLine_intText,
    (operationText_spec hm.operation).2.1, hsize]
  rfl

theorem trimRight_measurementLine (m : Measurement) :
    trimRight (measurementLine m).toList = (measurementLine m).toList := by
  rw [measurementLine_eq]
  cases m.returnSize with
  | none =>
    rw [show sizeText none = "" from rfl, String.append_empty, String.toList_append]
    exact trimRight_append (by rfl)
  | some n =>
    rw [sizeText_some, ← String.append_assoc, String.toList_append]
    exact trimRight_append (by rfl)

theorem line_measurementLine {m : Measurement} (hm : LegibleMeasurement m) (total : Int)
    (ms : List Measurement) :
    Reading.line ⟨⟨total, ms, []⟩, false, none⟩ (measurementLine m).toList
      = .ok ⟨⟨total, ms ++ [once m], []⟩, false, none⟩ := by
  have htotal : total? (measurementLine m).toList = none := by
    simp only [measurementLine_eq, String.toList_append, List.append_assoc]
    rfl
  have hsaid : Reading.said ⟨⟨total, ms, []⟩, false, none⟩ (measurementLine m).toList =
      .measurement (.of m) := by
    simp only [Reading.said, Bool.false_eq_true, if_false, trimRight_measurementLine,
      Reading.saidOutside, htotal, measurement?_measurementLine hm]
  rw [Reading.line, hsaid, Reading.take, MeasurementText.toMeasurement_of hm]
  rfl

/-- A line that can be read leaves the rest of the lines. -/
theorem foldlM_cons_ok {r r' : Reading} {l : List Char} {ls : List (List Char)}
    (h : r.line l = .ok r') : (l :: ls).foldlM Reading.line r = ls.foldlM Reading.line r' := by
  rw [List.foldlM_cons, h]
  rfl

theorem foldlM_append_ok {r r' : Reading} {ls ls' : List (List Char)}
    (h : ls.foldlM Reading.line r = .ok r') :
    (ls ++ ls').foldlM Reading.line r = ls'.foldlM Reading.line r' := by
  rw [List.foldlM_append, h]
  rfl

theorem foldlM_measurementLine {ms : List Measurement} (h : ∀ m ∈ ms, LegibleMeasurement m)
    (total : Int) (done : List Measurement) :
    (ms.map fun m => (measurementLine m).toList).foldlM Reading.line
      ⟨⟨total, done, []⟩, false, none⟩ = .ok ⟨⟨total, done ++ ms.map once, []⟩, false, none⟩ := by
  induction ms generalizing done with
  | nil => simp [pure, Except.pure]
  | cons m ms ih =>
    have hrest := ih (fun m' hm' => h m' (List.mem_cons_of_mem _ hm')) (done ++ [once m])
    rw [List.map_cons, foldlM_cons_ok (line_measurementLine (h m List.mem_cons_self) total done),
      hrest, List.append_assoc, List.map_cons, List.singleton_append]

/-- Lines of the section on overcharges that tell of some of them, the last of which is put away
once the lines are over. -/
structure Tells (ls : List String) (os : List Overcharge) : Prop where
  oneLine : ∀ l ∈ ls, oneLine l.toList = true
  read : ∀ r : Reading, r.inOvercharges = true →
    ∃ r', (ls.map String.toList).foldlM Reading.line r = .ok r' ∧
      r'.flush = { r.flush with dump.overcharges := r.flush.dump.overcharges ++ os }

theorem tells_nil : Tells [] [] where
  oneLine := by simp
  read r _ := ⟨r, rfl, by simp [Reading.flush]⟩

theorem Tells.append {ls ls' : List String} {os os' : List Overcharge} (h : Tells ls os)
    (h' : Tells ls' os') : Tells (ls ++ ls') (os ++ os') where
  oneLine l hl := (List.mem_append.1 hl).elim (h.oneLine l) (h'.oneLine l)
  read r hr := by
    obtain ⟨mid, hfirst, hmid⟩ := h.read r hr
    have hmode : mid.inOvercharges = true := by
      have := congrArg Reading.inOvercharges hmid
      simpa [Reading.flush, hr] using this
    obtain ⟨last, hsecond, hlast⟩ := h'.read mid hmode
    refine ⟨last, ?_, ?_⟩
    · rw [List.map_append, foldlM_append_ok hfirst, hsecond]
    · rw [hlast, hmid]
      simp [List.append_assoc]

theorem line_entryText (d : Dump) (o : Overcharge) (e : Entry) (gap : String)
    (hne : gap.toList ≠ []) (hgap : gap.toList.all isBlank = true) {n : Int} (hn : IsWord n)
    (tail : String) (htail : tail.toList.head?.any isDecimal = false)
    (hlast : tail.toList.getLast?.any (!isBlank ·) = true) :
    Reading.line ⟨d, true, some o⟩ (entryText e gap n tail).toList
      = .ok ⟨d, true, some (e.set n o)⟩ := by
  have htrim : trimRight (entryText e gap n tail).toList = (entryText e gap n tail).toList := by
    rw [entryText, String.toList_append]
    exact trimRight_append hlast
  have hsaid : Reading.said ⟨d, true, some o⟩ (entryText e gap n tail).toList = .entry e (.of n) := by
    simp only [Reading.said, htrim, if_true, Reading.saidInside,
      entry?_entryText e hne hgap hn.1 htail]
  rw [Reading.line, hsaid, Reading.take, Numeral.toInt_of hn]
  rfl

/-- The lines of an overcharge, given its share. -/
def overchargeText (o : Overcharge) (share : Binary64) : List String :=
  ["🐛 Probe " ++ intText o.probeId ++ ": " ++ o.operation,
    entryText .charged "   " o.inkCharged " ink",
    entryText .expected "  " o.expected " ink",
    entryText .amount " " o.amount (" ink (" ++ share.fixed 1 ++ "%)"),
    entryText .returnSize " " o.returnSize " bytes",
    ""]

theorem overchargeLines_eq {o : Overcharge} {share : Binary64} (h : o.percentage = .ok share) :
    overchargeLines o = .ok (overchargeText o share) := by
  rw [overchargeLines, h]
  simp only [overchargeText, entryText, ← String.append_assoc]
  rfl

theorem oneLine_entryText (e : Entry) {gap tail : String} (hgap : oneLine gap.toList = true)
    (htail : oneLine tail.toList = true) (n : Int) :
    oneLine (entryText e gap n tail).toList = true := by
  have hlabel : oneLine (e.label ++ ":").toList = true := by cases e <;> rfl
  simp only [entryText, String.toList_append, oneLine_append, hgap, htail, oneLine_intText] at *
  simp only [hlabel]
  rfl

theorem oneLine_overchargeText {o : Overcharge} (h : oneLine o.operation.toList = true)
    (share : Binary64) : ∀ l ∈ overchargeText o share, oneLine l.toList = true := by
  have htail : oneLine (" ink (" ++ share.fixed 1 ++ "%)").toList = true := by
    simp only [String.toList_append, oneLine_append, oneLine_fixed]
    rfl
  have hhead : oneLine ("🐛 Probe " ++ intText o.probeId ++ ": " ++ o.operation).toList = true := by
    simp only [String.toList_append, oneLine_append, oneLine_intText, h]
    rfl
  simp only [overchargeText, List.forall_mem_cons, List.not_mem_nil, false_implies, implies_true,
    and_true]
  exact ⟨hhead, oneLine_entryText _ (by rfl) (by rfl) _, oneLine_entryText _ (by rfl) (by rfl) _,
    oneLine_entryText _ (by rfl) htail _, oneLine_entryText _ (by rfl) (by rfl) _, by rfl⟩

/-- The share behind the amount is no part of its number, and the line has no blank at its end. -/
theorem shareText_spec (share : Binary64) :
    (" ink (" ++ share.fixed 1 ++ "%)").toList.head?.any isDecimal = false
    ∧ (" ink (" ++ share.fixed 1 ++ "%)").toList.getLast?.any (!isBlank ·) = true := by
  have hhead : ∀ s, (" ink (".toList ++ s).head?.any isDecimal = false := fun _ => rfl
  refine ⟨by simp only [String.toList_append, List.append_assoc, hhead], ?_⟩
  rw [String.toList_append, List.getLast?_append]
  rfl

/-- A line in the section on overcharges that has no number of one can only be a head. -/
theorem said_of_entry?_eq_none {r : Reading} (hr : r.inOvercharges = true) {line : List Char}
    (h : entry? (trimRight line) = none) :
    r.said line = (head? (trimRight line)).elim .nothing fun found => .head found.1 found.2 := by
  simp only [Reading.said, hr, if_true, Reading.saidInside, h]
  cases r.current <;> cases head? (trimRight line) <;> rfl

theorem line_head {r : Reading} (hr : r.inOvercharges = true) {id : Int} (hid : IsWord id)
    {operation : String} (hlast : operation.toList.getLast?.any (!isBlank ·) = true) :
    r.line ("🐛 Probe " ++ intText id ++ ": " ++ operation).toList
      = .ok ⟨r.flush.dump, true, some ⟨id, operation, 0, 0, 0, 0⟩⟩ := by
  have hne : operation.toList.isEmpty = false := by
    cases h : operation.toList with
    | nil => simp [h] at hlast
    | cons c s => rfl
  have htrim : trimRight ("🐛 Probe " ++ intText id ++ ": " ++ operation).toList
      = ("🐛 Probe " ++ intText id ++ ": " ++ operation).toList := by
    rw [String.toList_append]
    exact trimRight_append hlast
  have hline : ("🐛 Probe " ++ intText id ++ ": " ++ operation).toList
      = "🐛 Probe ".toList ++ ((intText id).toList ++ (": ".toList ++ operation.toList)) := by
    simp only [String.toList_append, List.append_assoc]
  have hentry : ∀ s, entry? ("🐛 Probe ".toList ++ s) = none := fun _ => rfl
  have hsaid : r.said ("🐛 Probe " ++ intText id ++ ": " ++ operation).toList =
      .head (.of id) operation := by
    rw [said_of_entry?_eq_none hr (by rw [htrim, hline, hentry]), htrim, hline,
      head?_text hid.1 hne]
    rfl
  rw [Reading.line, hsaid, Reading.take, Numeral.toInt_of hid, ← hr]
  rfl

theorem line_empty {r : Reading} (hr : r.inOvercharges = true) : r.line "".toList = .ok r := by
  rw [Reading.line, said_of_entry?_eq_none hr rfl]
  rfl

/-- An overcharge is read whole from its lines. -/
theorem tells_overchargeLines {o : Overcharge} (ho : LegibleOvercharge o) :
    ∃ ls, overchargeLines o = .ok ls ∧ Tells ls [o] := by
  obtain ⟨share, hshare⟩ := percentage_eq_ok ho.amount
  refine ⟨_, overchargeLines_eq hshare, oneLine_overchargeText ho.oneLine share, fun r hr => ?_⟩
  obtain ⟨hshareTail, hshareLast⟩ := shareText_spec share
  simp only [overchargeText, List.map_cons, List.map_nil]
  rw [foldlM_cons_ok (line_head hr ho.probeId ho.unblank),
    foldlM_cons_ok (line_entryText _ _ .charged "   " (by decide) (by rfl) ho.inkCharged " ink"
      (by rfl) (by rfl)),
    foldlM_cons_ok (line_entryText _ _ .expected "  " (by decide) (by rfl) ho.expected " ink"
      (by rfl) (by rfl)),
    foldlM_cons_ok (line_entryText _ _ .amount " " (by decide) (by rfl) ho.amount _ hshareTail
      hshareLast),
    foldlM_cons_ok (line_entryText _ _ .returnSize " " (by decide) (by rfl) ho.returnSize " bytes"
      (by rfl) (by rfl)),
    foldlM_cons_ok (line_empty rfl)]
  refine ⟨_, rfl, ?_⟩
  simp [Reading.flush, Entry.set, hr]

theorem mapM_overchargeLines {os : List Overcharge} (h : ∀ o ∈ os, LegibleOvercharge o) :
    ∃ parts, os.mapM overchargeLines = .ok parts ∧ Tells parts.flatten os := by
  induction os with
  | nil => exact ⟨[], rfl, tells_nil⟩
  | cons o os ih =>
    obtain ⟨ls, hls, htells⟩ := tells_overchargeLines (h o List.mem_cons_self)
    obtain ⟨parts, hparts, hrest⟩ := ih fun o' ho' => h o' (List.mem_cons_of_mem _ ho')
    refine ⟨ls :: parts, ?_, htells.append hrest⟩
    rw [List.mapM_cons, hls, hparts]
    rfl

/-- The lines in front of the overcharges. -/
def sectionOpening : List String :=
  ["", overchargeHeader, "These are cases where real ink used >> expected fair cost",
    "(likely buffer padding / allocation waste on small returns)", ""]

theorem oneLine_sectionOpening : ∀ l ∈ sectionOpening, oneLine l.toList = true := by decide

theorem foldlM_sectionOpening (d : Dump) :
    (sectionOpening.map String.toList).foldlM Reading.line ⟨d, false, none⟩ =
      .ok ⟨d, true, none⟩ := rfl

theorem overchargeSection_eq {os : List Overcharge} (h : os ≠ []) {parts : List (List String)}
    (hparts : os.mapM overchargeLines = .ok parts) :
    overchargeSection os = .ok (sectionOpening ++ parts.flatten) := by
  rw [overchargeSection, hparts, if_neg (by simpa using h)]
  rfl

/-- The section on overcharges is empty, or its header begins it. -/
theorem overchargeSection_spec {os : List Overcharge} (h : ∀ o ∈ os, LegibleOvercharge o) :
    ∃ found, overchargeSection os = .ok found ∧ (∀ l ∈ found, oneLine l.toList = true)
      ∧ ∀ total ms, ∃ r, (found.map String.toList).foldlM Reading.line
          ⟨⟨total, ms, []⟩, false, none⟩ = .ok r ∧ r.flush.dump = ⟨total, ms, os⟩ := by
  cases os with
  | nil => exact ⟨[], rfl, by simp, fun _ _ => ⟨_, rfl, rfl⟩⟩
  | cons o os =>
    obtain ⟨parts, hparts, htells⟩ := mapM_overchargeLines h
    refine ⟨sectionOpening ++ parts.flatten, overchargeSection_eq (by simp) hparts, ?_,
      fun total ms => ?_⟩
    · intro l hl
      exact (List.mem_append.1 hl).elim (oneLine_sectionOpening l) (htells.oneLine l)
    · obtain ⟨r, hread, hflush⟩ := htells.read ⟨⟨total, ms, []⟩, true, none⟩ rfl
      refine ⟨r, ?_, ?_⟩
      · rw [List.map_append, foldlM_append_ok (foldlM_sectionOpening _), hread]
      · rw [hflush]
        rfl

/-- The lines in front of the measurements. -/
theorem foldlM_opening {total : Int} (h : IsWord total) :
    (["Total ink used: ~" ++ intText total ++ " (start → current)", "",
      "Probe measurements:"].map String.toList).foldlM Reading.line .start
      = .ok ⟨⟨total, [], []⟩, false, none⟩ := by
  have htrim : trimRight ("Total ink used: ~" ++ intText total ++ " (start → current)").toList
      = ("Total ink used: ~" ++ intText total ++ " (start → current)").toList := by
    rw [String.toList_append]
    exact trimRight_append (by rfl)
  have hstop : " (start → current)".toList.head?.any isDecimal = false := by rfl
  have htotal : total? ("Total ink used: ~" ++ intText total ++ " (start → current)").toList
      = some (.of total) := by
    simp only [total?, String.toList_append, List.append_assoc, after?_append,
      Option.bind_eq_bind, Option.bind_some, number?_intText h.1 hstop, Option.pure_def]
  have hsaid : Reading.start.said
      ("Total ink used: ~" ++ intText total ++ " (start → current)").toList = .total (.of total) := by
    simp only [Reading.said, htrim, Reading.start, Bool.false_eq_true, if_false,
      Reading.saidOutside, htotal]
  have hfirst : Reading.start.line
      ("Total ink used: ~" ++ intText total ++ " (start → current)").toList
      = .ok ⟨⟨total, [], []⟩, false, none⟩ := by
    rw [Reading.line, hsaid, Reading.take, Numeral.toInt_of h]
    rfl
  rw [List.map_cons, foldlM_cons_ok hfirst]
  rfl

/-- The lines of a report, given those on its overcharges. -/
def reportLines (d : Dump) (found : List String) : List String :=
  ["Total ink used: ~" ++ intText d.total ++ " (start → current)", "", "Probe measurements:"]
    ++ (d.measurements.map measurementLine ++ found)

theorem render_eq {d : Dump} {found : List String}
    (h : overchargeSection d.overcharges = .ok found) :
    d.render = .ok ("\n".intercalate (reportLines d found) ++ "\n") := by
  rw [render, h, reportLines, ← List.append_assoc]
  rfl

theorem lines_reportLines {d : Dump} (h : ∀ m ∈ d.measurements, LegibleMeasurement m)
    {found : List String}
    (hfound : ∀ l ∈ found, oneLine l.toList = true) :
    lines ("\n".intercalate (reportLines d found) ++ "\n").toList
      = (reportLines d found).map String.toList := by
  have htotal : oneLine ("Total ink used: ~" ++ intText d.total ++ " (start → current)").toList
      = true := by
    simp only [String.toList_append, oneLine_append, oneLine_intText]
    rfl
  rw [toList_intercalate_newline (by simp [reportLines])]
  refine lines_flatMap fun s hs => ?_
  obtain ⟨l, hl, rfl⟩ := List.mem_map.1 hs
  simp only [reportLines, List.cons_append, List.nil_append, List.mem_cons, List.mem_append,
    List.mem_map] at hl
  rcases hl with rfl | rfl | rfl | ⟨m, hm, rfl⟩ | hl
  · exact htotal
  · rfl
  · rfl
  · exact oneLine_measurementLine (h m hm)
  · exact hfound l hl

/-- A report reads back up to the section on overcharges, whatever that has. -/
theorem read_reportLines {d : Dump} (htotal : IsWord d.total)
    (hms : ∀ m ∈ d.measurements, LegibleMeasurement m) {found : List String}
    (hfound : ∀ l ∈ found, oneLine l.toList = true) {r : Reading}
    (hr : (found.map String.toList).foldlM Reading.line
      ⟨⟨d.total, d.measurements.map once, []⟩, false, none⟩ = .ok r) :
    read ("\n".intercalate (reportLines d found) ++ "\n").toList = .ok r.flush.dump := by
  have hread := foldlM_measurementLine hms d.total []
  rw [List.nil_append] at hread
  rw [read, lines_reportLines hms hfound, reportLines, List.map_append, List.map_append,
    foldlM_append_ok (foldlM_opening htotal), List.map_map, Function.comp_def, foldlM_append_ok hread,
    hr]
  rfl

/-- A report can be written, and reading its text gives the total, the measurements and the
overcharges that went into it. -/
theorem read_render {d : Dump} (h : d.Legible) :
    ∃ text, d.render = .ok text ∧ read text.toList
      = .ok { d with measurements := d.measurements.map once } := by
  obtain ⟨found, hfound, hline, hread⟩ := overchargeSection_spec h.overcharges
  obtain ⟨r, hr, hdump⟩ := hread d.total (d.measurements.map once)
  refine ⟨_, render_eq hfound, ?_⟩
  rw [read_reportLines h.total h.measurements hline hr, hdump]

/-- Two measurements, the first without a label and met three times, and two overcharges. -/
def sampleDump : Dump where
  total := 41
  measurements := [⟨0, 90, 60, 3, none, none⟩, ⟨7, 60, 49, 1, some 32, some "storage_read ("⟩]
  overcharges := [⟨7, "Probe 8: x", 300, 32, 200, 100⟩, ⟨9, " Charged: 5", 2, 0, 0, 2⟩]

theorem legible_sampleDump : sampleDump.Legible where
  total := by decide
  measurements := by
    simp only [sampleDump, List.forall_mem_cons, List.not_mem_nil, false_implies, implies_true,
      and_true]
    exact ⟨⟨by decide, by decide, by decide, by simp, by simp⟩,
      ⟨by decide, by decide, by decide, by simp [IsWord],
        by simpa using ⟨by decide, by decide, by decide, by rfl⟩⟩⟩
  overcharges := by
    simp only [sampleDump, List.forall_mem_cons, List.not_mem_nil, false_implies, implies_true,
      and_true]
    exact ⟨⟨by decide, by decide, by decide, by decide, by decide, by rfl, by rfl⟩,
      ⟨by decide, by decide, by decide, by decide, by decide, by rfl, by rfl⟩⟩

/-- The overcharges are told apart though their names look like heads and numbers of others. -/
theorem read_render_sampleDump : sampleDump.Legible
    ∧ ∃ text, sampleDump.render = .ok text ∧ read text.toList
      = .ok { sampleDump with measurements := sampleDump.measurements.map once } :=
  ⟨legible_sampleDump, read_render legible_sampleDump⟩

end Dump

end InkGauge.Probe
