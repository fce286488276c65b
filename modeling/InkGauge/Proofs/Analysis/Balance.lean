import InkGauge.Proofs.Analysis.Groups
import InkGauge.Proofs.Analysis.Reported
import Mathlib.Algebra.BigOperators.Ring.Finset
import Mathlib.Algebra.Ring.Int.Defs

/-!
The books balance.

In the report on a function every operation costs what the model says, the total is the sum over the
operations and over the categories, and the categories are the groups of the operations. Averages
and amounts of gas are rounded down.
-/

namespace InkGauge.Analysis

open Contract Cost Number Settings

/-- `q` is the quotient of `n` and `d`, rounded down. -/
def IsFloor (q n d : Int) : Prop := q * d ≤ n ∧ n < (q + 1) * d

theorem isFloor_fdiv (n : Int) {d : Int} (hd : 0 < d) : IsFloor (n.fdiv d) n d := by
  refine ⟨?_, Int.lt_fdiv_add_one_mul_self n hd⟩
  rw [Int.mul_comm]
  exact Int.mul_fdiv_self_le hd

/-- The operations of a function that belong to the category of a name. -/
def FunctionReport.operationsOf (f : FunctionReport) (category : String) : List Operation :=
  f.operations.filter (·.category.name = category)

/-- The figures of the report on a function fit each other. -/
structure FunctionReport.Balanced (config : Config) (f : FunctionReport) : Prop where
  costed : ∀ op ∈ f.operations,
    0 ≤ op.ink ∧ op.ink = config.costModel.cost op.operation op.category
  total : f.totalInk = (f.operations.map (·.ink)).sum
  total_categories : f.totalInk = (f.categories.map (·.2.totalInk)).sum
  /-- `eraseDups` keeps the first of equal names. -/
  keys : f.categories.map (·.1) = (f.operations.map (·.category.name)).eraseDups
  keys_nodup : (f.categories.map (·.1)).Nodup
  count : ∀ row ∈ f.categories, row.2.count = (f.operationsOf row.1).length
  categoryInk : ∀ row ∈ f.categories, row.2.totalInk = ((f.operationsOf row.1).map (·.ink)).sum
  counts : (f.categories.map (·.2.count)).sum = f.operations.length
  average : ∀ row ∈ f.categories, IsFloor row.2.avgPerOp row.2.totalInk row.2.count
  gas : IsFloor f.gasEquivalent f.totalInk config.inkPerGas

theorem cost_nonneg {m : Model} (h : m.Sound) (operation : String) (category : Category) :
    0 ≤ m.cost operation category := by
  obtain ⟨hread, hnested, hwrite, hembedded, hidentity, hvalue, hblock, hevm, hevent, hcall, hcrypto,
    hassignment, hcontrol, hfallback⟩ := h
  cases category <;> simp only [Model.cost] <;> (repeat' split) <;> assumption

theorem name_injOn_known :
    ∀ a ∈ Category.known, ∀ b ∈ Category.known, a.name = b.name → a = b := by
  decide

theorem totalInk_eq_sum (ops : List Operation) : totalInk ops = (ops.map (·.ink)).sum := by
  rw [totalInk, List.sum, List.foldr_map]

/-- The figures of the categories are those of the groups of the operations. -/
theorem map_categoryStats {ops : List Operation} {rows : List (String × CategoryStats)}
    (h : categoryStats ops = .ok rows) :
    rows.map (fun row => (row.1, row.2.count, row.2.totalInk, row.2.avgPerOp)) =
      (groups Operation.category Operation.ink ops).map fun g =>
        (g.1.name, (g.2.length : Int), g.2.sum, g.2.sum.fdiv g.2.length) := by
  rw [categoryStats, inksByCategory_eq] at h
  refine map_eq_of_mapM h ?_
  intro g row hrow
  obtain ⟨stats, hstats, hrow⟩ := exists_of_bind_eq_ok hrow
  obtain ⟨share, -, hstats⟩ := exists_of_bind_eq_ok hstats
  cases hstats
  cases hrow
  rfl

section

variable {ops : List Operation} {rows : List (String × CategoryStats)}
  (h : categoryStats ops = .ok rows)

include h

theorem sum_totalInk_categoryStats : (rows.map (·.2.totalInk)).sum = (ops.map (·.ink)).sum := by
  have hrows := congrArg (List.map fun row => row.2.2.1) (map_categoryStats h)
  simp only [List.map_map, Function.comp_def] at hrows
  calc (rows.map (·.2.totalInk)).sum
      = ((groups Operation.category Operation.ink ops).map fun g => g.2.sum).sum :=
        congrArg List.sum hrows
    _ = ((groups Operation.category Operation.ink ops).map Prod.snd).flatten.sum := by
        rw [List.sum_flatten, List.map_map]
        rfl
    _ = (ops.map (·.ink)).sum := (perm_groups Operation.category Operation.ink ops).sum_eq

theorem sum_count_categoryStats : (rows.map (·.2.count)).sum = (ops.length : Int) := by
  have hrows := congrArg (List.map fun row => row.2.1) (map_categoryStats h)
  simp only [List.map_map, Function.comp_def] at hrows
  have hlength := (perm_groups Operation.category Operation.ink ops).length_eq
  rw [List.length_flatten, List.map_map, List.length_map] at hlength
  rw [hrows, ← hlength, Nat.cast_list_sum, List.map_map]
  rfl

/-- A category has the figures of its operations. -/
theorem of_mem_categoryStats {row : String × CategoryStats} (hrow : row ∈ rows) :
    ∃ c ∈ ops.map (·.category), row.1 = c.name ∧
      row.2.count = (ops.filter fun op => decide (op.category = c)).length ∧
      row.2.totalInk = ((ops.filter fun op => decide (op.category = c)).map (·.ink)).sum ∧
      row.2.avgPerOp = row.2.totalInk.fdiv row.2.count := by
  have hmem : (row.1, row.2.count, row.2.totalInk, row.2.avgPerOp) ∈
      (groups Operation.category Operation.ink ops).map fun g =>
        (g.1.name, (g.2.length : Int), g.2.sum, g.2.sum.fdiv g.2.length) := by
    rw [← map_categoryStats h]
    exact List.mem_map.2 ⟨row, hrow, rfl⟩
  obtain ⟨⟨c, inks⟩, hg, heq⟩ := List.mem_map.1 hmem
  obtain ⟨hc, rfl⟩ := mem_groups hg
  simp only [List.length_map, Prod.mk.injEq] at heq
  obtain ⟨hname, hcount, hink, haverage⟩ := heq
  refine ⟨c, hc, hname.symm, hcount.symm, hink.symm, ?_⟩
  rw [← haverage, ← hcount, ← hink]

theorem keys_categoryStats (hknown : ∀ op ∈ ops, op.category ∈ Category.known) :
    rows.map (·.1) = (ops.map (·.category.name)).eraseDups := by
  have hrows := congrArg (List.map fun row => row.1) (map_categoryStats h)
  simp only [List.map_map, Function.comp_def] at hrows
  have hinj : ∀ a ∈ ops.map (·.category), ∀ b ∈ ops.map (·.category), a.name = b.name → a = b := by
    intro a ha b hb
    obtain ⟨op, hop, rfl⟩ := List.mem_map.1 ha
    obtain ⟨op', hop', rfl⟩ := List.mem_map.1 hb
    exact name_injOn_known _ (hknown op hop) _ (hknown op' hop')
  have hkeys := map_eraseDups hinj
  rw [List.map_map] at hkeys
  rw [hrows, groups, List.map_map]
  exact hkeys

end

theorem Reports.balanced {config : Config} (hmodel : config.costModel.Sound)
    (hgas : 0 < config.inkPerGas) {e : EntryPoint} {f : FunctionReport} (h : Reports config e f) :
    f.Balanced config := by
  have hfound := h.found
  have hknown : ∀ op ∈ f.operations, op.category ∈ Category.known := by
    intro op hop
    obtain ⟨-, x, -, -, hat⟩ := hfound op hop
    exact hat.category
  have htotal : f.totalInk = (f.operations.map (·.ink)).sum := by
    rw [h.totalInk, totalInk_eq_sum]
  have hkeys := keys_categoryStats h.categories hknown
  -- The operations of a category are found by its name, since known categories have their own names.
  have hnamed : ∀ c ∈ f.operations.map (·.category),
      f.operationsOf c.name = f.operations.filter fun op => decide (op.category = c) := by
    intro c hc
    obtain ⟨op', hop', rfl⟩ := List.mem_map.1 hc
    refine List.filter_congr fun op hop => ?_
    have hinj := name_injOn_known _ (hknown op hop) _ (hknown op' hop')
    simp only [decide_eq_decide]
    exact ⟨hinj, congrArg Category.name⟩
  refine ⟨?_, htotal, ?_, hkeys, ?_, ?_, ?_, sum_count_categoryStats h.categories, ?_, ?_⟩
  · intro op hop
    obtain ⟨-, x, -, -, hat⟩ := hfound op hop
    exact ⟨hat.ink ▸ cost_nonneg hmodel op.operation op.category, hat.ink⟩
  · rw [htotal, sum_totalInk_categoryStats h.categories]
  · rw [hkeys]
    exact nodup_eraseDups _
  · intro row hrow
    obtain ⟨c, hc, hname, hcount, -, -⟩ := of_mem_categoryStats h.categories hrow
    rw [hname, hnamed c hc, hcount]
  · intro row hrow
    obtain ⟨c, hc, hname, -, hink, -⟩ := of_mem_categoryStats h.categories hrow
    rw [hname, hnamed c hc, hink]
  · intro row hrow
    obtain ⟨c, hc, -, hcount, -, haverage⟩ := of_mem_categoryStats h.categories hrow
    obtain ⟨op, hop, rfl⟩ := List.mem_map.1 hc
    have hmem : op ∈ f.operations.filter fun op' => decide (op'.category = op.category) :=
      List.mem_filter.2 ⟨hop, by simp⟩
    have hpos : 0 < row.2.count := by
      rw [hcount]
      exact Int.natCast_pos.2 (List.length_pos_of_mem hmem)
    rw [haverage]
    exact isFloor_fdiv _ hpos
  · rw [h.gasEquivalent]
    exact isFloor_fdiv _ hgas

/-- The books of every report balance. -/
theorem analyze_balanced {path : String} {data : Json} {config : Config}
    (hconfig : configOf path data = .ok config) {source : List Char} {file : String}
    {target : Option String} {r : ContractReport} (h : analyze config source file target = .ok r) :
    (∀ f ∈ r.functions, f.Balanced config) ∧ r.totalInk = (r.functions.map (·.totalInk)).sum := by
  have hmodel := model_sound_of_configOf hconfig
  have hgas := inkPerGas_pos_of_configOf hconfig
  obtain ⟨tree, -, hfunctions⟩ := exists_of_analyze h
  constructor
  · intro f hf
    obtain ⟨e, -, hreport⟩ := hfunctions f hf
    exact (reports_of_analyzeFunction hreport).balanced hmodel hgas
  · rw [ContractReport.totalInk, List.sum, List.foldr_map]

theorem analyze_balanced_sampleSource :
    configOf "ink.json" (.obj [("ink_per_gas", .int 7)]) = .ok sampleConfig ∧
      ∃ r, analyze sampleConfig sampleSource "" none = .ok r ∧ isBusy r = true ∧
        (∀ f ∈ r.functions, f.Balanced sampleConfig) ∧
        r.totalInk = (r.functions.map (·.totalInk)).sum := by
  obtain ⟨r, h, hbusy⟩ := exists_sampleReport
  exact ⟨configOf_sampleConfig, r, h, hbusy, analyze_balanced configOf_sampleConfig h⟩

end InkGauge.Analysis
