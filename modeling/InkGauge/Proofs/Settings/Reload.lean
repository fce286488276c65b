import InkGauge.Proofs.Analysis.Division
import InkGauge.Proofs.Probe.Numerals
import InkGauge.Proofs.Settings.Accepted

/-!
A configuration that was accepted is safe to work with, and reads back from what it is written as.

A record is written as its fields in order. Reading starts from other numbers, but since every field
is found under its own name and the fields make up the record, none of those are left.
-/

namespace InkGauge.Settings

open Number Analysis Probe

section

variable {α : Type} {fields : List (Setting α)}

/-- Takes the number of a field over from another record. -/
def Setting.copy (f : Setting α) (source a : α) : α :=
  match f.slot with
  | .int get set => set (get source) a
  | .float get set => set (get source) a

/-- The fields have names of their own and make up the record. -/
structure Covers (fields : List (Setting α)) : Prop where
  names : (fields.map (·.name)).Nodup
  copy : ∀ source a : α, fields.foldl (fun a f => f.copy source a) a = source

theorem find?_name (hnames : (fields.map (·.name)).Nodup) {f : Setting α} (hf : f ∈ fields) :
    fields.find? (·.name = f.name) = some f := by
  induction fields with
  | nil => cases hf
  | cons g fields ih =>
    rw [List.map_cons, List.nodup_cons] at hnames
    rcases List.mem_cons.1 hf with rfl | hf
    · simp
    · have hne : g.name ≠ f.name := fun heq => hnames.1 (heq ▸ List.mem_map_of_mem hf)
      rw [List.find?_cons_of_neg (by simpa using hne)]
      exact ih hnames.2 hf

theorem sectionMember_toJson {f : Setting α} (hfind : fields.find? (·.name = f.name) = some f)
    (path name : String) (source a : α) :
    sectionMember path name fields a (f.toJson source).1 (f.toJson source).2
      = .ok (f.copy source a) := by
  obtain ⟨key, slot⟩ := f
  cases slot with
  | int get set =>
    change sectionMember path name fields a key (.int (get source)) = .ok (set (get source) a)
    rw [sectionMember, replaceByName, hfind]
    rfl
  | float get set =>
    change sectionMember path name fields a key (.float (get source)) = .ok (set (get source) a)
    rw [sectionMember, replaceByName, hfind]
    rfl

theorem foldlM_sectionMember (hnames : (fields.map (·.name)).Nodup) (path name : String)
    (source : α) : ∀ (written : List (Setting α)) (a : α), written ⊆ fields →
      (written.map (·.toJson source)).foldlM
          (fun a (key, value) => sectionMember path name fields a key value) a
        = .ok (written.foldl (fun a f => f.copy source a) a)
  | [], _, _ => rfl
  | f :: written, a, hsub => by
    have hfind := find?_name hnames (hsub List.mem_cons_self)
    have hmember := sectionMember_toJson hfind path name source a
    have hrest := foldlM_sectionMember hnames path name source written (f.copy source a)
      fun g hg => hsub (List.mem_cons_of_mem _ hg)
    rw [List.map_cons, List.foldlM_cons]
    change sectionMember path name fields a (f.toJson source).1 (f.toJson source).2 >>= _ = _
    rw [hmember]
    exact hrest

/-- A record reads back from what it is written as, whatever the defaults are. -/
theorem Covers.sectionOf_recordJson (h : Covers fields) (path name : String) (defaults a : α) :
    sectionOf path name fields defaults (recordJson fields a) = .ok a := by
  have hkeys : (fields.map (·.toJson a)).map (·.1) = fields.map (·.name) := by
    rw [List.map_map]
    refine List.map_congr_left fun f _ => ?_
    obtain ⟨key, slot⟩ := f
    cases slot <;> rfl
  have hknown : (fields.map (·.name)).filter (!(fields.map (·.name)).contains ·) = [] := by
    simp
  simp only [sectionOf, recordJson, hkeys, hknown, List.isEmpty_nil, if_true]
  rw [foldlM_sectionMember h.names path name a fields defaults fun _ hf => hf, h.copy]

end

theorem covers_model : Covers Cost.Model.fields where
  names := by simp [Cost.Model.fields, intSetting]
  copy := by simp [Cost.Model.fields, intSetting, Setting.copy]

theorem covers_dryNib : Covers DryNibConfig.fields where
  names := by simp [DryNibConfig.fields, intSetting]
  copy := by simp [DryNibConfig.fields, intSetting, Setting.copy]

theorem covers_suggestion : Covers SuggestionConfig.fields where
  names := by simp [SuggestionConfig.fields, intSetting]
  copy := by simp [SuggestionConfig.fields, intSetting, Setting.copy]

theorem covers_thresholds : Covers Thresholds.fields where
  names := by simp [Thresholds.fields, intSetting]
  copy := by simp [Thresholds.fields, intSetting, Setting.copy]

/-- A configuration reads back from what it is written as, if nothing fatal is said about it. -/
theorem configOf_toJson (path : String) {c : Config}
    (hfatal : c.warnings.filter Warning.isFatal = []) : configOf path c.toJson = .ok c := by
  have hmodel := covers_model.sectionOf_recordJson path "cost_model" .default c.costModel
  have hdryNib := covers_dryNib.sectionOf_recordJson path "dry_nib" .default c.dryNib
  have hsuggestion :=
    covers_suggestion.sectionOf_recordJson path "optimizations" .default c.optimizations
  have hthresholds := covers_thresholds.sectionOf_recordJson path "runtime" .default c.runtime
  simp [configOf, Config.toJson, topLevelKeys, section?, scalar?, Json.get?, List.lookup_cons, hmodel,
    hdryNib, hsuggestion, hthresholds, hfatal, bind, Except.bind, pure, Except.pure]

/-- All numbers of a configuration make sense, and no work with it divides by zero. -/
structure Config.Safe (c : Config) : Prop where
  costModel : c.costModel.Sound
  runtime : c.runtime.Sound
  inkPerGas : 1 ≤ c.inkPerGas
  hotspotThreshold : 0 ≤ c.hotspotThreshold
  analyze : ∀ source file target, analyze c source file target ≠ .error (.arith .divisionByZero)
  /-- The average of a category is taken over these amounts. -/
  averages : ∀ ops, ∀ g ∈ inksByCategory ops, g.2 ≠ []
  recheck : ∀ text, Dump.read text >>= Dump.recheck c.runtime ≠ .error .divisionByZero

theorem dividesSafely_read (text : List Char) : DividesSafely (Dump.read text) := by
  rw [Dump.read_eq_behind, Dump.behind]
  cases ((Dump.saidBy text).flatMap Dump.Said.numerals).findSome? Dump.Numeral.excess? with
  | none => exact .ok _
  | some count =>
    intro h
    cases h

theorem safe_of_configOf {path : String} {data : Json} {c : Config}
    (h : configOf path data = .ok c) : c.Safe := by
  have hgas := inkPerGas_pos_of_configOf h
  have hruntime := sound_of_configOf h
  refine ⟨model_sound_of_configOf h, hruntime, hgas, hotspotThreshold_nonneg_of_configOf h, ?_, ?_,
    ?_⟩
  · exact analyze_ne_divisionByZero hgas.ne'
  · rintro ops ⟨category, inks⟩ hg
    exact ne_nil_of_mem_inksByCategory hg
  · intro text
    refine (dividesSafely_read text).bind fun d => ?_
    rw [Dump.recheck_eq hruntime]
    exact .ok _

/-- A configuration that is accepted is safe, and is accepted again as it is written. -/
theorem configOf_reload {path : String} {data : Json} {c : Config}
    (h : configOf path data = .ok c) : c.Safe ∧ ∀ path', configOf path' c.toJson = .ok c :=
  ⟨safe_of_configOf h, fun path' => configOf_toJson path' (fatal_of_configOf h)⟩

/-- Overrides that are taken over as they are, cut to an integer and turned into a double. -/
def sampleOverrides : Json :=
  .obj [
    ("cost_model", .obj [("default", .int 5)]),
    ("optimizations", .obj [
      ("cached_read_savings", .float (.ofDecimal false 25 (-1))),
      ("redundant_read_savings_pct", .int 40)]),
    ("ink_per_gas", .int 7)]

theorem configOf_reload_sampleOverrides : ∃ c, configOf "ink.json" sampleOverrides = .ok c ∧
    c.costModel.fallback = 5 ∧ c.optimizations.cachedReadSavings = 2 ∧
    c.optimizations.redundantReadSavingsPct = .ofDecimal false 40 0 ∧ c.inkPerGas = 7 ∧
    c.Safe ∧ ∀ path', configOf path' c.toJson = .ok c :=
  ⟨_, rfl, rfl, rfl, rfl, rfl, @configOf_reload "ink.json" sampleOverrides _ rfl⟩

end InkGauge.Settings
