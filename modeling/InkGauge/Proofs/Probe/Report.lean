import InkGauge.Proofs.Probe.Numerals
import InkGauge.Proofs.Settings.Accepted
import InkGauge.Proofs.Text.Lines

/-!
The report on a text is its own report.

Whatever a text says, its measurements were read from single lines and without the brackets around
their names, so they can be written and read back. The overcharges are found again from them, and so
reading the report and writing it once more changes nothing. Only a number of too many digits keeps
a text from having a report.
-/

namespace InkGauge.Probe.Dump

open Number Text

/-- The report on a text: what it says, with the measurements checked again. -/
def rechecked (t : Thresholds) (text : List Char) : Except ArithError String := do
  let d ← read text
  render { d with overcharges := ← d.recheck t }

theorem suffix_of_after? {t : String} {s rest : List Char} (h : after? t s = some rest) :
    rest <:+ s :=
  ⟨t.toList, (dropPrefix?_eq_some h).symm⟩

theorem suffix_of_number? {s rest : List Char} {n : Numeral} (h : number? s = some (n, rest)) :
    rest <:+ s := by
  rw [number?] at h
  split at h
  · cases h
  · cases h
    exact List.dropWhile_suffix _

theorem oneLine_of_sublist {s t : List Char} (h : s.Sublist t) (ht : oneLine t = true) :
    oneLine s = true :=
  List.all_eq_true.2 fun c hc => List.all_eq_true.1 ht c (h.subset hc)

theorem oneLine_of_mem_linesFrom {done s : List Char} (hdone : oneLine done = true) :
    ∀ l ∈ linesFrom done s, oneLine l = true := by
  have hreverse : ∀ {l : List Char}, oneLine l = true → oneLine l.reverse = true := fun h => by
    rwa [oneLine, List.all_reverse]
  fun_induction linesFrom done s with
  | case1 => simp
  | case2 done => simpa using hreverse hdone
  | case3 done s ih => exact List.forall_mem_cons.2 ⟨hreverse hdone, ih rfl⟩
  | case4 done c s _ _ ih => exact List.forall_mem_cons.2 ⟨hreverse hdone, ih rfl⟩
  | case5 done c s _ hc ih =>
    refine ih ?_
    rw [oneLine, List.all_cons, ← oneLine, hdone]
    simpa using hc

theorem oneLine_trimRight {s : List Char} (h : oneLine s = true) : oneLine (trimRight s) = true := by
  refine oneLine_of_sublist ?_ h
  rw [trimRight]
  exact List.reverse_sublist.1 (by simpa using List.dropWhile_sublist isBlank)

/-- A measurement as a line can tell it. -/
structure Told (m : MeasurementText) : Prop where
  known : m.operation ≠ some unknownOperation
  unbracketed : ∀ name ∈ m.operation, ')' ∉ name.toList
  oneLine : ∀ name ∈ m.operation, oneLine name.toList = true

theorem told_of_measurement? {line : List Char} {m : MeasurementText}
    (h : measurement? line = some m) (hline : oneLine line = true) : Told m := by
  simp only [measurement?, Option.bind_eq_bind, Option.bind_eq_some_iff, Option.pure_def,
    Option.some.injEq] at h
  obtain ⟨afterHash, hhash, ⟨id, afterId⟩, hid, rest, hrest, _, -, _, -, _, -, _, -, _, -, _, -, _, -,
    rfl⟩ := h
  have hsuffix : rest <:+ line :=
    (suffix_of_after? hrest).trans ((suffix_of_number? hid).trans (suffix_of_after? hhash))
  have hname : ∀ name ∈ (if String.ofList (rest.takeWhile (· != ')')) = unknownOperation then none
      else some (String.ofList (rest.takeWhile (· != ')')))),
      name ≠ unknownOperation ∧ name.toList = rest.takeWhile (· != ')') := by
    intro name hname
    split at hname
    · cases hname
    · cases hname
      exact ⟨‹_›, String.toList_ofList⟩
  refine ⟨fun hop => ?_, fun name hop => ?_, fun name hop => ?_⟩
  · exact (hname _ hop).1 rfl
  · rw [(hname name hop).2]
    intro hmem
    simpa using List.mem_takeWhile_imp hmem
  · rw [(hname name hop).2]
    exact oneLine_of_sublist ((List.takeWhile_sublist _).trans hsuffix.sublist) hline

theorem told_of_said {r : Reading} {line : List Char} {m : MeasurementText}
    (h : r.said line = .measurement m) (hline : oneLine line = true) : Told m := by
  dsimp only [Reading.said] at h
  split at h
  · dsimp only [Reading.saidInside] at h
    split at h
    · cases h
    · split at h <;> cases h
  · dsimp only [Reading.saidOutside] at h
    split at h
    · cases h
    · split at h
      · rename_i hm
        cases h
        exact told_of_measurement? hm (oneLine_trimRight hline)
      · split at h <;> cases h

theorem told_of_mem_saidFrom {ls : List (List Char)} (hls : ∀ l ∈ ls, oneLine l = true)
    {r : Reading} {m : MeasurementText} (h : .measurement m ∈ saidFrom r ls) : Told m := by
  induction ls generalizing r with
  | nil => cases h
  | cons l ls ih =>
    rw [saidFrom] at h
    rcases List.mem_cons.1 h with heq | h
    · exact told_of_said heq.symm (hls l List.mem_cons_self)
    · exact ih (fun l' hl' => hls l' (List.mem_cons_of_mem l hl')) h

theorem told_of_mem_saidBy {text : List Char} {m : MeasurementText}
    (h : .measurement m ∈ saidBy text) : Told m :=
  told_of_mem_saidFrom (oneLine_of_mem_linesFrom rfl) h

/-- The measurement that is told, if it is one. -/
def Said.measurement? : Said → Option Measurement
  | .measurement m => some m.measurement
  | _ => none

/-- A reading keeps every measurement that it is told. -/
theorem measurements_foldl_note (ss : List Said) (r : Reading) :
    (ss.foldl Reading.note r).dump.measurements =
      r.dump.measurements ++ ss.filterMap Said.measurement? := by
  induction ss generalizing r with
  | nil => simp
  | cons s ss ih =>
    rw [List.foldl_cons, ih]
    cases s with
    | measurement m => simp [Reading.note, Said.measurement?]
    | _ => rfl

theorem isWord_value {n : Numeral} (h : n.value < 2 ^ 64) : IsWord n.value :=
  ⟨Int.natCast_nonneg _, h⟩

theorem isWord_total_note {r : Reading} (hr : IsWord r.dump.total) {s : Said}
    (hs : ∀ n ∈ s.numerals, n.value < 2 ^ 64) : IsWord (r.note s).dump.total := by
  cases s with
  | total n => exact isWord_value (hs n (List.mem_singleton_self n))
  | _ => exact hr

theorem isWord_total_foldl_note {ss : List Said}
    (hss : ∀ s ∈ ss, ∀ n ∈ s.numerals, n.value < 2 ^ 64) {r : Reading} (hr : IsWord r.dump.total) :
    IsWord (ss.foldl Reading.note r).dump.total := by
  induction ss generalizing r with
  | nil => exact hr
  | cons s ss ih =>
    exact ih (fun s' hs' => hss s' (List.mem_cons_of_mem s hs'))
      (isWord_total_note hr (hss s List.mem_cons_self))

theorem Told.legible {m : MeasurementText} (h : Told m)
    (hwords : ∀ n ∈ (Said.measurement m).numerals, n.value < 2 ^ 64)
    (hne : m.operation ≠ some "") : LegibleMeasurement m.measurement := by
  simp only [Said.numerals, List.forall_mem_cons, Option.mem_toList] at hwords
  obtain ⟨hid, hbefore, hafter, hsize⟩ := hwords
  refine ⟨isWord_value hid, isWord_value hbefore, isWord_value hafter, ?_, fun name hname => ?_⟩
  · intro size hmem
    obtain ⟨n, hn, rfl⟩ := Option.map_eq_some_iff.1 hmem
    exact isWord_value (hsize n hn)
  · refine ⟨?_, ?_, h.unbracketed name hname, h.oneLine name hname⟩
    · rintro rfl
      exact hne hname
    · rintro rfl
      exact h.known hname

/-- What a text says can be written again, if its numbers are words and no name is empty. -/
theorem legible_of_saidBy {text : List Char}
    (hwords : ∀ s ∈ saidBy text, ∀ n ∈ s.numerals, n.value < 2 ^ 64)
    (hnames : ∀ m, .measurement m ∈ saidBy text → m.operation ≠ some "") {m : Measurement}
    (hm : m ∈ (saidBy text).filterMap Said.measurement?) :
    LegibleMeasurement m ∧ once m = m := by
  obtain ⟨s, hs, hmeasurement⟩ := List.mem_filterMap.1 hm
  cases s with
  | measurement told =>
    cases hmeasurement
    exact ⟨(told_of_mem_saidBy hs).legible (hwords _ hs) (hnames told hs), rfl⟩
  | _ => cases hmeasurement

/-- If what is read from a text can be written, the text has a report, and that is its own report. -/
theorem rechecked_of_read {t : Thresholds} (ht : t.Sound) {text : List Char} {d : Dump}
    (hread : read text = .ok d) (htotal : IsWord d.total)
    (hms : ∀ m ∈ d.measurements, LegibleMeasurement m ∧ once m = m) :
    ∃ report, rechecked t text = .ok report ∧ rechecked t report.toList = .ok report := by
  have hlegible : ∀ m ∈ d.measurements, LegibleMeasurement m := fun m hm => (hms m hm).1
  have honce : d.measurements.map once = d.measurements := by
    rw [List.map_congr_left fun m hm => (hms m hm).2]
    exact List.map_id' _
  have hwritable := writable_of_finding ht hlegible
  generalize hfound : (d.measurements.map Measurement.record).filterMap (Record.finding t) = found
    at hwritable
  obtain ⟨report, os, hrender, hagain⟩ := read_of_writable (d := ⟨d.total, d.measurements, found⟩)
    htotal hlegible hwritable
  rw [honce] at hagain
  -- The check looks at the measurements only, and those are the same in the text and its report.
  have hrecheck : ∀ os, recheck t ⟨d.total, d.measurements, os⟩ = .ok found := by
    intro os
    rw [recheck_eq ht, hfound]
  refine ⟨report, ?_, ?_⟩
  · rw [rechecked, hread]
    change recheck t d >>= _ = _
    rw [hrecheck d.overcharges]
    exact hrender
  · rw [rechecked, hagain]
    change recheck t _ >>= _ = _
    rw [hrecheck os]
    exact hrender

/-- If the numbers of a text are words of few digits and its measurements have names that are not
empty, it has a report, and that is its own report. The first number of too many digits leaves a
text without a report. -/
theorem rechecked_rechecked {path : String} {data : Json} {config : Settings.Config}
    (hconfig : Settings.configOf path data = .ok config) (text : List Char) :
    ((∀ s ∈ saidBy text, ∀ n ∈ s.numerals, n.value < 2 ^ 64 ∧ n.digits.length ≤ maxDigits) →
      (∀ m, .measurement m ∈ saidBy text → m.operation ≠ some "") →
      ∃ report, rechecked config.runtime text = .ok report
        ∧ rechecked config.runtime report.toList = .ok report) ∧
    ∀ before n after, (saidBy text).flatMap Said.numerals = before ++ n :: after →
      (∀ n' ∈ before, n'.digits.length ≤ maxDigits) → maxDigits < n.digits.length →
      rechecked config.runtime text = .error (.tooManyDigits n.digits.length) := by
  have ht := Settings.sound_of_configOf hconfig
  have hmeasurements : ((saidBy text).foldl Reading.note .start).flush.dump.measurements =
      (saidBy text).filterMap Said.measurement? := measurements_foldl_note _ _
  constructor
  · intro hnumbers hnames
    have hshort : ∀ n ∈ (saidBy text).flatMap Said.numerals, n.digits.length ≤ maxDigits := by
      intro n hn
      obtain ⟨s, hs, hn⟩ := List.mem_flatMap.1 hn
      exact (hnumbers s hs n hn).2
    have hwords : ∀ s ∈ saidBy text, ∀ n ∈ s.numerals, n.value < 2 ^ 64 := fun s hs n hn =>
      (hnumbers s hs n hn).1
    have hread := read_eq_behind text
    rw [behind_of_short hshort] at hread
    refine rechecked_of_read ht hread ?_ ?_
    · exact isWord_total_foldl_note hwords ⟨by decide, by decide⟩
    · rw [hmeasurements]
      intro m hm
      exact legible_of_saidBy hwords hnames hm
  · intro before n after hsplit hbefore hn
    rw [rechecked, read_eq_behind, hsplit, behind_of_long hbefore hn]
    rfl

theorem configOf_empty : Settings.configOf "ink.json" (.obj []) = .ok Settings.Config.default := rfl

/-- A line about a probe whose name ends in a blank, and one that says nothing. -/
def sampleText : List Char :=
  "Probe #3 (storage_read ): 5 ink consumed (before=2000000, after=100)\nno report".toList

theorem saidBy_sampleText : saidBy sampleText =
    [.measurement ⟨⟨"3".toList⟩, ⟨"2000000".toList⟩, ⟨"100".toList⟩, none, some "storage_read "⟩,
      .nothing] := by decide

theorem rechecked_rechecked_sampleText :
    Settings.configOf "ink.json" (.obj []) = .ok Settings.Config.default
    ∧ (∀ s ∈ saidBy sampleText, ∀ n ∈ s.numerals,
        n.value < 2 ^ 64 ∧ n.digits.length ≤ maxDigits)
    ∧ (∀ m, .measurement m ∈ saidBy sampleText → m.operation ≠ some "")
    ∧ ∃ report, rechecked .default sampleText = .ok report
      ∧ rechecked .default report.toList = .ok report := by
  have hnumbers : ∀ s ∈ saidBy sampleText, ∀ n ∈ s.numerals,
      n.value < 2 ^ 64 ∧ n.digits.length ≤ maxDigits := by decide
  have hnames : ∀ m, .measurement m ∈ saidBy sampleText → m.operation ≠ some "" := by
    simp [saidBy_sampleText]
  exact ⟨configOf_empty, hnumbers, hnames,
    (rechecked_rechecked configOf_empty sampleText).1 hnumbers hnames⟩

/-- A total of five, behind as many zeros as a number may have digits. -/
def paddedTotal : List Char :=
  "Total ink used: ~".toList ++ List.replicate maxDigits '0' ++ ['5']

/-- The number in the text is small and yet there is no report on it. -/
theorem rechecked_paddedTotal :
    (∀ s ∈ saidBy paddedTotal, ∀ n ∈ s.numerals, n.value < 2 ^ 64)
    ∧ (∀ m, .measurement m ∈ saidBy paddedTotal → m.operation ≠ some "")
    ∧ rechecked .default paddedTotal = .error (.tooManyDigits 4301) := by
  have hnone : ∀ s ∈ saidBy paddedTotal, s.measurement? = none := by decide +kernel
  refine ⟨by decide +kernel, ?_, by decide +kernel⟩
  intro m hm
  cases hnone _ hm

end InkGauge.Probe.Dump
