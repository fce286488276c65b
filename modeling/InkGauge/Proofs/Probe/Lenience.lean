import InkGauge.Proofs.Probe.Recheck

/-!
A measurement is flagged if it is above a limit: the expected cost and a tolerance. The limit goes
up with every threshold but the divisor of the sized tolerance, and goes up as that comes down. So
laxer thresholds flag no measurement that the others let pass.
-/

namespace InkGauge.Probe

/-- The first thresholds allow at least what the second do. A smaller divisor makes a larger
tolerance. -/
structure Thresholds.LaxerThan (t' t : Thresholds) : Prop where
  storageRead : t.storageRead ≤ t'.storageRead
  storageWrite : t.storageWrite ≤ t'.storageWrite
  msgSender : t.msgSender ≤ t'.msgSender
  fallback : t.fallback ≤ t'.fallback
  tolerance : t.tolerance ≤ t'.tolerance
  perByte : t.perByte ≤ t'.perByte
  sizedMinTolerance : t.sizedMinTolerance ≤ t'.sizedMinTolerance
  sizedToleranceDivisor : t'.sizedToleranceDivisor ≤ t.sizedToleranceDivisor

/-- The most that an operation may cost, given the size of its result if it is known. -/
def Thresholds.limit (t : Thresholds) (operation : String) : Option Int → Int
  | none => t.expectedBase operation + t.tolerance
  | some size => t.expectedSized operation size
      + max t.sizedMinTolerance ((t.expectedSized operation size).fdiv t.sizedToleranceDivisor)

theorem isSome_check_iff (t : Thresholds) (id : Int) (operation : String) (ink : Int) :
    (check t id operation ink).isSome = true ↔ t.limit operation none < ink := by
  dsimp only [check, Thresholds.limit]
  split
  case isTrue hle => simpa using hle
  case isFalse hgt => simpa using Int.not_le.1 hgt

theorem exists_checkSized {t : Thresholds} (ht : t.Sound) (id : Int) (operation : String)
    (ink size : Int) : ∃ found, checkSized t id operation ink size = .ok found ∧
      (found.isSome = true ↔ t.limit operation (some size) < ink) := by
  have hdivisor : t.sizedToleranceDivisor ≠ 0 := Int.ne_of_gt ht.sizedToleranceDivisor
  dsimp only [checkSized, Thresholds.limit]
  rw [if_neg hdivisor]
  split
  case isTrue hle => exact ⟨none, rfl, by simpa using hle⟩
  case isFalse hgt => exact ⟨_, rfl, by simpa using Int.not_le.1 hgt⟩

/-- A measurement is flagged if its operation is one that is checked and it is above the limit. -/
theorem isSome_finding_iff {t : Thresholds} (ht : t.Sound) (r : Record) :
    (r.finding t).isSome = true ↔ ∃ operation, r.operation = some operation ∧
      (r.returnSize.isSome = true ∨ shouldCheck operation = true) ∧
      t.limit operation r.returnSize < r.consumed := by
  rw [Record.finding]
  split
  case h_1 hop => simp [hop]
  case h_2 operation size hop hsize =>
    obtain ⟨found, hfound, hiff⟩ := exists_checkSized ht r.probeId operation r.consumed size
    simp [hop, hsize, hfound, hiff]
  case h_3 operation hop hsize =>
    by_cases hcheck : shouldCheck operation = true
    · simp [hop, hsize, hcheck, isSome_check_iff]
    · simp [hop, hsize, hcheck]

namespace Thresholds.LaxerThan

variable {t t' : Thresholds}

theorem expectedBase_le (h : t'.LaxerThan t) (operation : String) :
    t.expectedBase operation ≤ t'.expectedBase operation := by
  unfold expectedBase
  split
  · exact h.storageRead
  split
  · exact h.storageWrite
  split
  · exact h.msgSender
  · exact h.fallback

theorem expectedSized_le (h : t'.LaxerThan t) (operation : String) {size : Int} (hsize : 0 ≤ size) :
    t.expectedSized operation size ≤ t'.expectedSized operation size := by
  have hbytes : size * t.perByte ≤ size * t'.perByte :=
    Int.mul_le_mul_of_nonneg_left h.perByte hsize
  unfold expectedSized
  split
  · exact Int.add_le_add h.storageRead hbytes
  · exact Int.add_le_add h.storageWrite hbytes

/-- A share of an amount goes up with the amount, and as the divisor comes down. -/
theorem fdiv_le {a a' d d' : Int} (ha : 0 ≤ a) (hle : a ≤ a') (hd' : 0 < d') (hd : d' ≤ d) :
    a.fdiv d ≤ a'.fdiv d' := by
  rw [Int.fdiv_eq_ediv_of_nonneg a (by omega), Int.fdiv_eq_ediv_of_nonneg a' (by omega)]
  apply Int.le_ediv_of_mul_le hd'
  calc a / d * d' ≤ a / d * d := Int.mul_le_mul_of_nonneg_left hd (Int.ediv_nonneg ha (by omega))
    _ ≤ a := Int.ediv_mul_le a (by omega)
    _ ≤ a' := hle

theorem limit_le (h : t'.LaxerThan t) (ht : t.Sound) (ht' : t'.Sound) (operation : String)
    {size : Option Int} (hsize : ∀ n ∈ size, 0 ≤ n) :
    t.limit operation size ≤ t'.limit operation size := by
  cases size with
  | none => exact Int.add_le_add (h.expectedBase_le operation) h.tolerance
  | some size =>
    have hnonneg := hsize size rfl
    have hexpected := h.expectedSized_le operation hnonneg
    have hshare := fdiv_le (ht.expectedSized_nonneg operation hnonneg) hexpected
      ht'.sizedToleranceDivisor h.sizedToleranceDivisor
    have hmin := h.sizedMinTolerance
    dsimp only [limit]
    omega

/-- What laxer thresholds flag, the others flag too. -/
theorem isSome_finding (h : t'.LaxerThan t) (ht : t.Sound) (ht' : t'.Sound) {r : Record}
    (hsize : ∀ n ∈ r.returnSize, 0 ≤ n) (hr : (r.finding t').isSome = true) :
    (r.finding t).isSome = true := by
  obtain ⟨operation, hop, hchecked, hlimit⟩ := (isSome_finding_iff ht' r).1 hr
  have hle := h.limit_le ht ht' operation hsize
  exact (isSome_finding_iff ht r).2 ⟨operation, hop, hchecked, by omega⟩

end Thresholds.LaxerThan

/-- The findings name the probes whose records are flagged, in the order of the records. -/
theorem map_probeId_findings {t : Thresholds} (ht : t.Sound) {rs : List Record}
    (hsizes : ∀ r ∈ rs, ∀ n ∈ r.returnSize, 0 ≤ n) :
    (rs.filterMap (Record.finding t)).map (·.probeId) =
      (rs.filter fun r => (r.finding t).isSome).map (·.probeId) := by
  induction rs with
  | nil => rfl
  | cons r rs ih =>
    have hrs := ih fun r' hr' => hsizes r' (List.mem_cons_of_mem r hr')
    cases hfound : r.finding t with
    | none => simp [hfound, hrs]
    | some o =>
      have hid := (foundOn_of_finding ht (hsizes r List.mem_cons_self) hfound).probeId
      simp [hfound, hrs, hid]

namespace Dump

/-- No size in the report is negative. -/
def SizesNonneg (d : Dump) : Prop := ∀ m ∈ d.measurements, ∀ n ∈ m.returnSize, 0 ≤ n

theorem SizesNonneg.records {d : Dump} (h : d.SizesNonneg) :
    ∀ r ∈ d.measurements.map Measurement.record, ∀ n ∈ r.returnSize, 0 ≤ n := by
  intro r hr
  obtain ⟨m, hm, rfl⟩ := List.mem_map.1 hr
  exact h m hm

/-- The overcharge is what was paid above the expected cost, and it is something. -/
def IsExcess (o : Overcharge) : Prop := 0 < o.amount ∧ o.inkCharged = o.expected + o.amount

theorem isExcess_of_recheck {t : Thresholds} (ht : t.Sound) {d : Dump} (hsizes : d.SizesNonneg)
    {found : List Overcharge} (h : d.recheck t = .ok found) : ∀ o ∈ found, IsExcess o := by
  rw [recheck_eq ht] at h
  cases h
  intro o ho
  obtain ⟨r, hr, hfinding⟩ := List.mem_filterMap.1 ho
  have hfound := foundOn_of_finding ht (hsizes.records r hr) hfinding
  have hamount := hfound.amount
  have hover := hfound.overcharged
  exact ⟨by omega, by omega⟩

/-- Laxer thresholds flag some of the probes that the others flag, in the same order; and whatever
is flagged was charged more than expected. -/
theorem recheck_laxer {t t' : Thresholds} (ht : t.Sound) (ht' : t'.Sound) (h : t'.LaxerThan t)
    {d : Dump} (hsizes : d.SizesNonneg) :
    ∃ found found', d.recheck t = .ok found ∧ d.recheck t' = .ok found' ∧
      (found'.map (·.probeId)).Sublist (found.map (·.probeId)) ∧
      (∀ o ∈ found, IsExcess o) ∧ ∀ o ∈ found', IsExcess o := by
  have hfound := recheck_eq ht d
  have hfound' := recheck_eq ht' d
  refine ⟨_, _, hfound, hfound', ?_, isExcess_of_recheck ht hsizes hfound,
    isExcess_of_recheck ht' hsizes hfound'⟩
  rw [map_probeId_findings ht hsizes.records, map_probeId_findings ht' hsizes.records]
  -- Going over what the others flag once more, the laxer thresholds keep all they flag.
  have hkept : ((d.measurements.map Measurement.record).filter fun r => (r.finding t').isSome) =
      ((d.measurements.map Measurement.record).filter fun r => (r.finding t).isSome).filter
        fun r => (r.finding t').isSome := by
    rw [List.filter_filter]
    apply List.filter_congr
    intro r hr
    rw [Bool.eq_iff_iff, Bool.and_eq_true]
    exact ⟨fun hr' => ⟨hr', h.isSome_finding ht ht' (hsizes.records r hr) hr'⟩, And.left⟩
  rw [hkept]
  exact List.filter_sublist.map _

/-- A read of unknown size, a large write and a read that returned nothing. -/
def sampleProbes : Dump where
  total := 5100000
  measurements := [⟨3, 9000000, 8000000, 1, none, some "storage_read"⟩,
    ⟨7, 8000000, 5000000, 1, some 32, some "storage_write"⟩,
    ⟨8, 5000000, 3900000, 1, some 0, some "storage_read"⟩]
  overcharges := []

/-- The default thresholds with a larger tolerance, also of what is sized. -/
def tolerant : Thresholds :=
  { Thresholds.default with tolerance := 400000, sizedToleranceDivisor := 1 }

theorem recheck_laxer_sampleProbes :
    Thresholds.default.Sound ∧ tolerant.Sound ∧ tolerant.LaxerThan .default ∧
      sampleProbes.SizesNonneg ∧
      ∃ found found', sampleProbes.recheck .default = .ok found ∧
        sampleProbes.recheck tolerant = .ok found' ∧
        found.map (·.probeId) = [3, 7, 8] ∧ found'.map (·.probeId) = [7] ∧
        (found'.map (·.probeId)).Sublist (found.map (·.probeId)) ∧
        (∀ o ∈ found, IsExcess o) ∧ ∀ o ∈ found', IsExcess o := by
  have hsound : tolerant.Sound := by constructor <;> decide
  have hlaxer : tolerant.LaxerThan .default := by constructor <;> decide
  have hsizes : sampleProbes.SizesNonneg := by
    simp [SizesNonneg, sampleProbes]
  have hdefault := Tracker.sound_default
  obtain ⟨found, found', hfound, hfound', hsub⟩ := recheck_laxer hdefault hsound hlaxer hsizes
  refine ⟨hdefault, hsound, hlaxer, hsizes, found, found', hfound, hfound', ?_, ?_, hsub⟩
  · rw [recheck_eq hdefault] at hfound
    cases hfound
    decide
  · rw [recheck_eq hsound] at hfound'
    cases hfound'
    decide

end Dump

end InkGauge.Probe
