import InkGauge.Analysis.Contract
import InkGauge.Proofs.Cost.Found
import InkGauge.Proofs.Settings.Accepted

/-!
A report on a contract has one report for each entry point that was chosen. All figures of the
report on a function are worked out from its operations, and these are the operations of its body
with their shares in the total.
-/

namespace InkGauge.Analysis

open Contract Cost Number Settings

theorem exists_of_any_toOption {ε α : Type} {x : Except ε α} {p : α → Bool}
    (h : x.toOption.any p = true) : ∃ a, x = .ok a ∧ p a = true := by
  cases x with
  | error e => cases h
  | ok a => exact ⟨a, rfl, h⟩

theorem mapM_cons_eq_ok {ε α β : Type} {f : α → Except ε β} {x : α} {xs : List α} {zs : List β}
    (h : (x :: xs).mapM f = .ok zs) : ∃ y ys, f x = .ok y ∧ xs.mapM f = .ok ys ∧ zs = y :: ys := by
  rw [List.mapM_cons] at h
  obtain ⟨y, hy, h⟩ := exists_of_bind_eq_ok h
  obtain ⟨ys, hys, h⟩ := exists_of_bind_eq_ok h
  cases h
  exact ⟨y, ys, hy, hys, rfl⟩

theorem exists_of_mem_mapM {ε α β : Type} {f : α → Except ε β} {xs : List α} {ys : List β}
    (h : xs.mapM f = .ok ys) {y : β} (hy : y ∈ ys) : ∃ x ∈ xs, f x = .ok y := by
  induction xs generalizing ys with
  | nil =>
    cases h
    cases hy
  | cons x xs ih =>
    obtain ⟨y', ys', hx, hxs, rfl⟩ := mapM_cons_eq_ok h
    rcases List.mem_cons.1 hy with hy | hy
    · exact ⟨x, List.mem_cons_self, hy ▸ hx⟩
    · obtain ⟨x', hx', hfx⟩ := ih hxs hy
      exact ⟨x', List.mem_cons_of_mem _ hx', hfx⟩

/-- What the results show of the members they come from, they show in the same order. -/
theorem map_eq_of_mapM {ε α β γ : Type} {f : α → Except ε β} {xs : List α} {ys : List β}
    (h : xs.mapM f = .ok ys) {g : β → γ} {g' : α → γ} (hg : ∀ x y, f x = .ok y → g y = g' x) :
    ys.map g = xs.map g' := by
  induction xs generalizing ys with
  | nil =>
    cases h
    rfl
  | cons x xs ih =>
    obtain ⟨y, ys, hx, hxs, rfl⟩ := mapM_cons_eq_ok h
    rw [List.map_cons, List.map_cons, hg x y hx, ih hxs]

theorem eq_ok_of_mapError {ε ε' α : Type} {x : Except ε α} {g : ε → ε'} {a : α}
    (h : x.mapError g = .ok a) : x = .ok a := by
  cases x with
  | error e => cases h
  | ok b =>
    cases h
    rfl

/-- The parts of the report on an entry point. -/
structure Reports (config : Config) (e : EntryPoint) (r : FunctionReport) : Prop where
  line : r.line = e.method.item.span.line
  operations : withShares (ofBlock? config.costModel e.method.fn.body) = .ok r.operations
  totalInk : r.totalInk = totalInk r.operations
  gasEquivalent : r.gasEquivalent = r.totalInk.fdiv config.inkPerGas
  categories : categoryStats r.operations = .ok r.categories
  suggestions : suggestions config.optimizations r.operations = .ok r.suggestions
  hotspots : r.hotspots = rankHotspots config.hotspotThreshold r.operations
  dryNibs : r.dryNibs = dryNibs config.dryNib config.inkPerGas r.operations

theorem reports_of_analyzeFunction {config : Config} {e : EntryPoint} {r : FunctionReport}
    (h : analyzeFunction config e = .ok r) : Reports config e r := by
  rw [analyzeFunction] at h
  obtain ⟨ops, hops, h⟩ := exists_of_bind_eq_ok h
  dsimp only at h
  split at h
  · cases h
  obtain ⟨stats, hstats, h⟩ := exists_of_bind_eq_ok h
  obtain ⟨found, hfound, h⟩ := exists_of_bind_eq_ok h
  cases h
  exact ⟨rfl, hops, rfl, rfl, hstats, hfound, rfl, rfl⟩

theorem exists_of_mem_withShares {ops shared : List Operation} (h : withShares ops = .ok shared)
    {op : Operation} (hop : op ∈ shared) : ∃ op' ∈ ops, ∃ p, op = { op' with percentage := p } := by
  obtain ⟨op', hop', hshare⟩ := exists_of_mem_mapM h hop
  obtain ⟨p, -, heq⟩ := exists_of_bind_eq_ok hshare
  cases heq
  exact ⟨op', hop', p, rfl⟩

/-- Every operation of a report was found in the body of the function. -/
theorem Reports.found {config : Config} {e : EntryPoint} {r : FunctionReport}
    (h : Reports config e r) : ∀ op ∈ r.operations, ∃ b x, e.method.fn.body = some b ∧
      (Node.block b).Holds (.expr x) ∧ op.FoundAt config.costModel x := by
  intro op hop
  obtain ⟨op', hop', p, rfl⟩ := exists_of_mem_withShares h.operations hop
  cases hbody : e.method.fn.body with
  | none =>
    rw [hbody] at hop'
    cases hop'
  | some b =>
    rw [hbody] at hop'
    obtain ⟨x, hx, hfound⟩ := foundBelow_ofBlock config.costModel b op' hop'
    exact ⟨b, x, rfl, hx, ⟨hfound.line, hfound.column, hfound.code, hfound.entity, hfound.ink,
      hfound.category⟩⟩

theorem mem_of_select {file : String} {d : Discovery} {target : Option String}
    {chosen : List EntryPoint} (h : select file d target = .ok chosen) {e : EntryPoint}
    (he : e ∈ chosen) : e ∈ d.entryPoints := by
  unfold select at h
  dsimp only at h
  split at h
  · cases h
  cases target with
  | none =>
    cases h
    exact he
  | some name =>
    dsimp only at h
    split at h
    · cases h
    · cases h
      exact List.mem_of_mem_filter he

/-- Every function of a report is an entry point of the contract. -/
theorem exists_of_analyze {config : Config} {source : List Char} {file : String}
    {target : Option String} {r : ContractReport} (h : analyze config source file target = .ok r) :
    ∃ tree, parse source file = .ok tree ∧
      ∀ f ∈ r.functions, ∃ e ∈ tree.discover.entryPoints, analyzeFunction config e = .ok f := by
  obtain ⟨tree, hparse, h⟩ := exists_of_bind_eq_ok h
  obtain ⟨chosen, hchosen, h⟩ := exists_of_bind_eq_ok h
  obtain ⟨functions, hfunctions, h⟩ := exists_of_bind_eq_ok h
  cases h
  refine ⟨tree, eq_ok_of_mapError hparse, fun f hf => ?_⟩
  obtain ⟨e, he, hreport⟩ := exists_of_mem_mapM (eq_ok_of_mapError hfunctions) hf
  exact ⟨e, mem_of_select hchosen he, hreport⟩

/-- A configuration that is all defaults but for one number. -/
def sampleConfig : Config := { Config.default with inkPerGas := 7 }

theorem configOf_sampleConfig :
    configOf "ink.json" (.obj [("ink_per_gas", .int 7)]) = .ok sampleConfig := rfl

/-- A contract with a nested read and a hash. -/
def sampleSource : List Char :=
  "impl A\x7bpub fn f(&self)\x7b\nself.m.get(self.m.get(sha256))\x7d\x7d".toList

/-- Is there a function with more operations than categories, two of these, and something to point
out about it? -/
def isBusy (r : ContractReport) : Bool :=
  r.functions.any fun f => f.categories.length == 2 && decide (2 < f.operations.length)
    && !f.dryNibs.isEmpty && !f.suggestions.isEmpty

theorem exists_sampleReport :
    ∃ r, analyze sampleConfig sampleSource "" none = .ok r ∧ isBusy r = true :=
  exists_of_any_toOption (by decide +kernel)

end InkGauge.Analysis
