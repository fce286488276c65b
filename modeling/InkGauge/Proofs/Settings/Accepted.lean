import InkGauge.Proofs.Probe.Recheck
import InkGauge.Settings.Config

/-!
What a configuration that was accepted can be relied on for.

It has no fatal warning. So no cost and no threshold is negative, and what is divided by is
positive.
-/

namespace InkGauge.Cost

/-- Costs that make sense. -/
structure Model.Sound (m : Model) : Prop where
  storageRead : 0 ≤ m.storageRead
  nestedStorageRead : 0 ≤ m.nestedStorageRead
  storageWrite : 0 ≤ m.storageWrite
  embeddedReadWrite : 0 ≤ m.embeddedReadWrite
  identity : 0 ≤ m.identity
  value : 0 ≤ m.value
  blockInfo : 0 ≤ m.blockInfo
  evmDefault : 0 ≤ m.evmDefault
  event : 0 ≤ m.event
  externalCall : 0 ≤ m.externalCall
  crypto : 0 ≤ m.crypto
  assignment : 0 ≤ m.assignment
  controlFlow : 0 ≤ m.controlFlow
  fallback : 0 ≤ m.fallback

end InkGauge.Cost

namespace InkGauge.Settings

theorem has_append {words needle : String} (h : words.has needle = true) (name : String) :
    (name ++ words).has needle = true := by
  have hwords : needle.toList <:+: words.toList := (Text.occursIn_iff _ _).1 h
  refine (Text.occursIn_iff _ _).2 ?_
  rw [String.toList_append]
  exact hwords.trans (List.suffix_append _ _).isInfix

theorem Warning.isFatal_negative (name : String) : (negative name).isFatal = true := by
  have hwords : " must be non-negative".has "non-negative" = true := by decide +kernel
  exact Bool.or_eq_true_iff.2 (.inl (has_append hwords name))

theorem Warning.isFatal_notPositive (name : String) : (notPositive name).isFatal = true := by
  have hwords : " must be positive".has "positive" = true := by decide +kernel
  exact Bool.or_eq_true_iff.2 (.inr (has_append hwords name))

/-- What is said of a number that makes no sense. -/
inductive Warning.OfRange : Warning → Prop
  | negative (name : String) : OfRange (.negative name)
  | notPositive (name : String) : OfRange (.notPositive name)

/-- The words of the warnings tell those about numbers that make no sense from the others. -/
theorem Warning.isFatal_iff_of_mem {config : Config} {w : Warning} (h : w ∈ config.warnings) :
    w.isFatal = true ↔ w.OfRange := by
  cases w with
  | negative name => exact iff_of_true (isFatal_negative name) (.negative name)
  | notPositive name => exact iff_of_true (isFatal_notPositive name) (.notPositive name)
  | aboveExternalCall name =>
    have hname : name ∈ ["storage_read", "storage_write", "event", "crypto"] := by
      simp [Config.warnings, modelWarnings, thresholdWarnings] at h
      obtain ⟨cost, hname, -⟩ := h
      simp only [List.mem_cons]
      tauto
    have hall : ∀ name ∈ ["storage_read", "storage_write", "event", "crypto"],
        (aboveExternalCall name).isFatal = false := by decide +kernel
    exact iff_of_false (by simp [hall name hname]) nofun
  | contextOrder => exact iff_of_false (by decide +kernel) nofun
  | embeddedBelowWrite => exact iff_of_false (by decide +kernel) nofun

theorem exists_of_bind_eq_ok {ε α β : Type} {x : Except ε α} {f : α → Except ε β} {b : β}
    (h : x >>= f = .ok b) : ∃ a, x = .ok a ∧ f a = .ok b := by
  cases x with
  | error e => cases h
  | ok a => exact ⟨a, rfl, h⟩

theorem fatal_of_configOf {path : String} {data : Json} {config : Config}
    (h : configOf path data = .ok config) : config.warnings.filter Warning.isFatal = [] := by
  cases data with
  | obj members =>
    rw [configOf] at h
    split at h
    case isTrue => cases h
    obtain ⟨costModel, -, h⟩ := exists_of_bind_eq_ok h
    obtain ⟨dryNib, -, h⟩ := exists_of_bind_eq_ok h
    obtain ⟨optimizations, -, h⟩ := exists_of_bind_eq_ok h
    obtain ⟨runtime, -, h⟩ := exists_of_bind_eq_ok h
    obtain ⟨hotspotThreshold, -, h⟩ := exists_of_bind_eq_ok h
    obtain ⟨inkPerGas, -, h⟩ := exists_of_bind_eq_ok h
    dsimp only at h
    split at h
    case isTrue hfatal =>
      cases h
      exact List.isEmpty_iff.1 hfatal
    case isFalse => cases h
  | _ => cases h

/-- The number of a field is not negative, if it is an integer. -/
def Setting.Nonneg {α : Type} (f : Setting α) (a : α) : Prop :=
  match f.slot with
  | .int get _ => 0 ≤ get a
  | .float .. => True

theorem nonneg_of_negativeNames {α : Type} {fields : List (Setting α)} {a : α}
    (h : negativeNames fields a = []) : ∀ f ∈ fields, f.Nonneg a := by
  intro f hf
  have hnone := List.filterMap_eq_nil_iff.1 h f hf
  rw [Setting.Nonneg]
  split
  case h_1 get set hslot =>
    rw [hslot] at hnone
    simp only [ite_eq_right_iff, reduceCtorEq, imp_false] at hnone
    omega
  case h_2 => trivial

theorem thresholdWarnings_eq_nil {config : Config}
    (h : config.warnings.filter Warning.isFatal = []) : thresholdWarnings config.runtime = [] := by
  have hfatal : ∀ w ∈ thresholdWarnings config.runtime, w.isFatal = true := by
    intro w hw
    rcases List.mem_append.1 hw with hw | hw
    · obtain ⟨name, -, rfl⟩ := List.mem_map.1 hw
      exact Warning.isFatal_negative _
    · split at hw
      · rw [List.mem_singleton.1 hw]
        exact Warning.isFatal_notPositive _
      · cases hw
  refine List.eq_nil_iff_forall_not_mem.2 fun w hw => ?_
  refine List.filter_eq_nil_iff.1 h w ?_ (hfatal w hw)
  simp only [Config.warnings, List.mem_append]
  exact .inl (.inl (.inr hw))

/-- The thresholds of a configuration that was accepted make sense. -/
theorem sound_of_configOf {path : String} {data : Json} {config : Config}
    (h : configOf path data = .ok config) : config.runtime.Sound := by
  have hwarnings := thresholdWarnings_eq_nil (fatal_of_configOf h)
  obtain ⟨hnames, hdivisor⟩ := List.append_eq_nil_iff.1 hwarnings
  have hnonneg := nonneg_of_negativeNames (List.map_eq_nil_iff.1 hnames)
  simp only [Probe.Thresholds.fields, List.forall_mem_cons] at hnonneg
  obtain ⟨hread, hwrite, hsender, hfallback, htolerance, hbyte, hmin, -, -⟩ := hnonneg
  have hpositive : 0 < config.runtime.sizedToleranceDivisor := by
    split at hdivisor
    · cases hdivisor
    · omega
  exact ⟨hread, hwrite, hsender, hfallback, htolerance, hbyte, hmin, hpositive⟩

theorem not_mem_warnings {config : Config} (h : config.warnings.filter Warning.isFatal = [])
    {w : Warning} (hw : w.isFatal = true) : w ∉ config.warnings := fun hmem =>
  List.filter_eq_nil_iff.1 h w hmem hw

/-- The costs of a configuration that was accepted make sense. -/
theorem model_sound_of_configOf {path : String} {data : Json} {config : Config}
    (h : configOf path data = .ok config) : config.costModel.Sound := by
  have hfatal := fatal_of_configOf h
  have hnames : negativeNames Cost.Model.fields config.costModel = [] := by
    refine List.eq_nil_iff_forall_not_mem.2 fun name hname => ?_
    refine not_mem_warnings hfatal (Warning.isFatal_negative name) ?_
    have hmem := List.mem_map_of_mem (f := Warning.negative) hname
    simp only [Config.warnings, modelWarnings, List.mem_append]
    exact .inl (.inl (.inl (.inl (.inl (.inl hmem)))))
  have hnonneg := nonneg_of_negativeNames hnames
  simp only [Cost.Model.fields, List.forall_mem_cons] at hnonneg
  obtain ⟨hread, hnested, hwrite, hembedded, hidentity, hvalue, hblock, hevm, hevent, hcall, hcrypto,
    hassignment, hcontrol, hfallback, -⟩ := hnonneg
  exact ⟨hread, hnested, hwrite, hembedded, hidentity, hvalue, hblock, hevm, hevent, hcall, hcrypto,
    hassignment, hcontrol, hfallback⟩

theorem inkPerGas_pos_of_configOf {path : String} {data : Json} {config : Config}
    (h : configOf path data = .ok config) : 0 < config.inkPerGas := by
  by_contra hgas
  refine not_mem_warnings (fatal_of_configOf h) (Warning.isFatal_notPositive "ink_per_gas") ?_
  simp [Config.warnings, Int.not_lt.1 hgas]

theorem hotspotThreshold_nonneg_of_configOf {path : String} {data : Json} {config : Config}
    (h : configOf path data = .ok config) : 0 ≤ config.hotspotThreshold := by
  by_contra hthreshold
  refine not_mem_warnings (fatal_of_configOf h) (Warning.isFatal_negative "hotspot_threshold") ?_
  simp [Config.warnings, Int.not_le.1 hthreshold]

end InkGauge.Settings
