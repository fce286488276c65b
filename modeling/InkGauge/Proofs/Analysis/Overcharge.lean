import InkGauge.Proofs.Analysis.Reads

/-!
A dry nib tells what is charged, what would be fair, and how much is charged too much. Where an
operation is looked at by itself, a charge below the fair cost counts as no overcharge. For repeated
reads the plain difference is told, and it falls below zero if the waste of a read is set to a
negative amount.
-/

namespace InkGauge.Analysis

open Cost Number Settings

/-- The overcharge is what is charged above the fair cost, and nothing if that is less. -/
def DryNib.Clamped (d : DryNib) : Prop := d.overcharge = max (d.inkCharged - d.fairCost) 0

section

variable {cfg : DryNibConfig} {inkPerGas : Int} {ops : List Operation} {d : DryNib}

theorem clamped_of_mem_overcharges (h : d ∈ overcharges cfg ops) : d.Clamped := by
  obtain ⟨op, -, hd⟩ := List.mem_filterMap.1 h
  simp only [overcharged?, Option.ite_none_left_eq_some] at hd
  obtain ⟨-, -, hd⟩ := hd
  cases hd
  rfl

theorem clamped_of_mem_nestedReads (h : d ∈ nestedReads cfg inkPerGas ops) : d.Clamped := by
  obtain ⟨op, -, hd⟩ := List.mem_filterMap.1 h
  simp only [nestedRead?, Option.ite_none_left_eq_some] at hd
  obtain ⟨-, hd⟩ := hd
  cases hd
  rfl

theorem overcharge_of_mem_repeatedReads (h : d ∈ repeatedReads cfg ops) :
    d.overcharge = d.inkCharged - d.fairCost := by
  obtain ⟨⟨field, lines⟩, -, hd⟩ := List.mem_filterMap.1 h
  simp only [repeatedRead?, Option.ite_none_left_eq_some] at hd
  obtain ⟨-, hd⟩ := hd
  cases hd
  simp only [Int.sub_mul, Int.one_mul]

theorem clamped_iff_of_mem_repeatedReads (h : d ∈ repeatedReads cfg ops) :
    d.Clamped ↔ 0 ≤ d.overcharge := by
  have hdifference := overcharge_of_mem_repeatedReads h
  unfold DryNib.Clamped
  omega

end

section

variable (cfg : DryNibConfig) (inkPerGas : Int) (ops : List Operation)

/-- Only the plain difference of repeated reads can fall below zero. -/
theorem clamped_or_repeated : ∀ d ∈ dryNibs cfg inkPerGas ops, d.Clamped ∨
    d ∈ repeatedReads cfg ops ∧ d.overcharge = d.inkCharged - d.fairCost ∧ d.overcharge < 0 := by
  intro d hd
  simp only [dryNibs, List.mem_append] at hd
  rcases hd with (hd | hd) | hd
  · exact .inl (clamped_of_mem_overcharges hd)
  · by_cases hnonneg : 0 ≤ d.overcharge
    · exact .inl ((clamped_iff_of_mem_repeatedReads hd).2 hnonneg)
    · exact .inr ⟨hd, overcharge_of_mem_repeatedReads hd, by omega⟩
  · exact .inl (clamped_of_mem_nestedReads hd)

/-- The overcharges of repeated reads are those of the fields that are read too often. -/
theorem exists_overcharge_iff (overcharge : Int) :
    (∃ d ∈ repeatedReads cfg ops, d.overcharge = overcharge) ↔
      ∃ field ∈ fieldsReadAtLeast cfg.repeatedReadCount ops,
        (readCount ops field - 1) * cfg.readWaste = overcharge := by
  have h := congrArg (List.map fun figures => figures.2.2.2) (readFigures_repeatedReads cfg ops)
  rw [List.map_map, List.map_map] at h
  have hmem := iff_of_eq (congrArg (overcharge ∈ ·) h)
  rwa [List.mem_map, List.mem_map] at hmem

/-- Some field that can be told is read often enough to be reported, and more than once. -/
def ReadRepeatedly : Prop :=
  ∃ field, field ≠ unknownEntity ∧ 2 ≤ readCount ops field ∧
    cfg.repeatedReadCount ≤ readCount ops field

theorem clamped_iff_not_negative : (∀ d ∈ dryNibs cfg inkPerGas ops, d.Clamped) ↔
    ¬(cfg.readWaste < 0 ∧ ReadRepeatedly cfg ops) := by
  constructor
  · intro h ⟨hwaste, field, hne, htwo, hcount⟩
    have hfield : field ∈ fieldsReadAtLeast cfg.repeatedReadCount ops :=
      List.mem_filter.2 ⟨mem_fieldsRead.2 ⟨hne, by omega⟩, decide_eq_true hcount⟩
    obtain ⟨d, hd, hover⟩ := (exists_overcharge_iff cfg ops _).2 ⟨field, hfield, rfl⟩
    have hmem : d ∈ dryNibs cfg inkPerGas ops := by simp [dryNibs, hd]
    have hnonneg := (clamped_iff_of_mem_repeatedReads hd).1 (h d hmem)
    have hneg : (readCount ops field - 1) * cfg.readWaste < 0 :=
      Int.mul_neg_of_pos_of_neg (by omega) hwaste
    omega
  · intro h d hd
    rcases clamped_or_repeated cfg inkPerGas ops d hd with hclamped | ⟨hrepeated, -, hneg⟩
    · exact hclamped
    · obtain ⟨field, hfield, hover⟩ := (exists_overcharge_iff cfg ops _).1 ⟨d, hrepeated, rfl⟩
      obtain ⟨hread, hcount⟩ := List.mem_filter.1 hfield
      obtain ⟨hne, hone⟩ := mem_fieldsRead.1 hread
      rw [← hover] at hneg
      exfalso
      apply h
      by_cases htwo : 2 ≤ readCount ops field
      · refine ⟨?_, field, hne, htwo, of_decide_eq_true hcount⟩
        by_contra hwaste
        have hnonneg : 0 ≤ (readCount ops field - 1) * cfg.readWaste :=
          Int.mul_nonneg (by omega) (by omega)
        omega
      · have hzero : readCount ops field - 1 = 0 := by omega
        simp [hzero] at hneg

/-- Every dry nib tells the difference of charge and fair cost, with nothing below zero, except that
repeated reads tell the plain difference. So all overcharges are clamped, unless a read is said to
waste a negative amount and a field is reported for its reads. -/
theorem dryNibs_clamped :
    (∀ d ∈ dryNibs cfg inkPerGas ops, d.Clamped ∨
      d ∈ repeatedReads cfg ops ∧ d.overcharge = d.inkCharged - d.fairCost ∧ d.overcharge < 0) ∧
    ((∀ d ∈ dryNibs cfg inkPerGas ops, d.Clamped) ↔
      ¬(cfg.readWaste < 0 ∧ ReadRepeatedly cfg ops)) :=
  ⟨clamped_or_repeated cfg inkPerGas ops, clamped_iff_not_negative cfg inkPerGas ops⟩

end

/-- A configuration in which reads waste a negative amount. -/
def negativeWaste : Config :=
  { Config.default with dryNib := { DryNibConfig.default with readWaste := -5 } }

/-- Such a configuration is accepted, and a field that is read three times is told with an
overcharge below zero. -/
theorem negativeWaste_unclamped :
    configOf "ink.json" (.obj [("dry_nib", .obj [("read_waste", .int (-5))])]) =
        .ok negativeWaste ∧
      (dryNibs negativeWaste.dryNib negativeWaste.inkPerGas sampleReads).map
        (fun d => (d.overcharge, max (d.inkCharged - d.fairCost) 0)) = [(-10, 0)] := by
  constructor
  · rfl
  · decide

end InkGauge.Analysis
