import InkGauge.Proofs.Analysis.Groups
import InkGauge.Proofs.Analysis.Reported
import InkGauge.Proofs.Contract.Discovery
import InkGauge.Proofs.Contract.SpanInvariant

/-!
Reports point into the functions they are about.

An operation stands where an expression of the body starts, and so between the first and the last
line of the function. Everything else in a report that tells a line has it from an operation.
-/

namespace InkGauge.Contract

theorem SourceFile.Contains.of_holds {t : SourceFile} {n m : Node} (h : t.Contains n)
    (hm : n.Holds m) : t.Contains m := by
  induction hm with
  | refl => exact h
  | tail _ hchild ih => exact .child ih hchild

/-- What stands below a node lies inside its span. -/
theorem Laid.of_holds {text : List Char} {n m : Node} (h : Laid text n) (hm : n.Holds m) :
    Laid text m ∧ m.span.Within n.span := by
  induction hm with
  | refl => exact ⟨h, Nat.le_refl _, Nat.le_refl _⟩
  | tail _ hchild ih =>
    obtain ⟨hlaid, hstart, hstop⟩ := ih
    obtain ⟨hstart', hstop'⟩ := hlaid.within hchild
    exact ⟨hlaid.inner _ hchild, hstart.trans hstart', hstop'.trans hstop⟩

theorem holds_of_nested {items : List Item} {depth : Nat} {i : Item} (h : Nested items depth i) :
    ∃ j ∈ items, (Node.item j).Holds (.item i) := by
  induction h with
  | here h => exact ⟨_, h, .refl⟩
  | inside hm _ ih =>
    obtain ⟨j, hj, hholds⟩ := ih
    refine ⟨_, hm, hholds.of_child ?_⟩
    rw [Node.children]
    exact List.mem_append_right _ (List.mem_map_of_mem hj)

/-- The members of an impl block stand below an item of the file. -/
theorem holds_member {t : SourceFile} {b : ImplBlock} (hb : b ∈ t.impls) {k : Item}
    (hk : k ∈ b.items) : ∃ j ∈ t.items, (Node.item j).Holds (.item k) := by
  obtain ⟨depth, i, hnested, -, -, traitType, hkind⟩ := mem_impls_iff.1 hb
  obtain ⟨j, hj, hholds⟩ := holds_of_nested hnested
  refine ⟨j, hj, hholds.tail ?_⟩
  simp [Node.children, hkind, ItemKind.children, Node.items, hk]

theorem mem_methodsOf {items : List Item} {m : Method} (h : m ∈ methodsOf items) :
    m.item ∈ items ∧ m.item.kind = .function m.fn := by
  obtain ⟨i, hi, hm⟩ := List.mem_filterMap.1 h
  obtain ⟨fn, hfn, rfl⟩ := Option.map_eq_some_iff.1 hm
  refine ⟨hi, ?_⟩
  unfold Item.function? at hfn
  split at hfn
  · rename_i hkind
    cases hfn
    exact hkind
  · cases hfn

/-- An entry point is a function of the file. -/
theorem contains_of_entryPoint {t : SourceFile} {e : EntryPoint}
    (h : e ∈ t.discover.entryPoints) :
    t.Contains (.item e.method.item) ∧ e.method.item.kind = .function e.method.fn := by
  rw [entryPoints_eq] at h
  obtain ⟨b, hb, he⟩ := List.mem_flatMap.1 h
  obtain ⟨m, hm, rfl⟩ := List.mem_map.1 (List.mem_filter.1 he).1
  obtain ⟨hitem, hkind⟩ := mem_methodsOf hm
  obtain ⟨i, hi, hholds⟩ := holds_member hb hitem
  exact ⟨SourceFile.Contains.of_holds (.item hi) hholds, hkind⟩

theorem body_mem_children {i : Item} {fn : Function} (hkind : i.kind = .function fn) {b : Block}
    (hb : fn.body = some b) : .block b ∈ (Node.item i).children := by
  simp [Node.children, hkind, ItemKind.children, Function.children, Node.block?, hb]

end InkGauge.Contract

namespace InkGauge.Analysis

open Contract Cost Number Settings

section

variable {ops : List Operation}

theorem line_of_mem_rankHotspots {threshold : Int} {h : Hotspot}
    (hh : h ∈ rankHotspots threshold ops) : h.line ∈ ops.map (·.line) := by
  obtain ⟨⟨op, i⟩, hop, rfl⟩ := List.mem_map.1 hh
  have hsorted := List.fst_mem_of_mem_zipIdx hop
  have hhot := List.mem_of_mem_filter (List.mem_mergeSort.1 hsorted)
  exact List.mem_map_of_mem hhot

/-- The first read of a field is an operation. -/
theorem head_of_mem_readsByEntity {entity : String} {lines : List Int}
    (h : (entity, lines) ∈ readsByEntity ops) : lines.head?.getD 0 ∈ ops.map (·.line) := by
  rw [readsByEntity_eq] at h
  obtain ⟨op, hop, hhead⟩ := head_of_mem_groups h
  rw [hhead]
  exact List.mem_map_of_mem (List.mem_of_mem_filter hop)

theorem line_of_mem_overcharges {cfg : DryNibConfig} {d : DryNib} (h : d ∈ overcharges cfg ops) :
    d.line ∈ ops.map (·.line) := by
  obtain ⟨op, hop, hd⟩ := List.mem_filterMap.1 h
  simp only [overcharged?, Option.ite_none_left_eq_some] at hd
  obtain ⟨-, -, hd⟩ := hd
  cases hd
  exact List.mem_map_of_mem hop

theorem line_of_mem_repeatedReads {cfg : DryNibConfig} {d : DryNib}
    (h : d ∈ repeatedReads cfg ops) : d.line ∈ ops.map (·.line) := by
  obtain ⟨⟨entity, lines⟩, hmem, hd⟩ := List.mem_filterMap.1 h
  have hhead := head_of_mem_readsByEntity hmem
  simp only [repeatedRead?, Option.ite_none_left_eq_some] at hd
  obtain ⟨-, hd⟩ := hd
  cases hd
  exact hhead

theorem line_of_mem_nestedReads {cfg : DryNibConfig} {inkPerGas : Int} {d : DryNib}
    (h : d ∈ nestedReads cfg inkPerGas ops) : d.line ∈ ops.map (·.line) := by
  obtain ⟨op, hop, hd⟩ := List.mem_filterMap.1 h
  simp only [nestedRead?, Option.ite_none_left_eq_some] at hd
  obtain ⟨-, hd⟩ := hd
  cases hd
  exact List.mem_map_of_mem hop

theorem line_of_mem_dryNibs {cfg : DryNibConfig} {inkPerGas : Int} {d : DryNib}
    (h : d ∈ dryNibs cfg inkPerGas ops) : d.line ∈ ops.map (·.line) := by
  rw [dryNibs] at h
  rcases List.mem_append.1 h with h | h
  · rcases List.mem_append.1 h with h | h
    · exact line_of_mem_overcharges h
    · exact line_of_mem_repeatedReads h
  · exact line_of_mem_nestedReads h

/-- A suggestion that is found among others was made for one of the members looked at. -/
theorem exists_of_mem_found {α : Type} {look : α → Except ArithError (Option Suggestion)}
    {xs : List α} {found : List Suggestion}
    (h : (do let all ← xs.mapM look; return all.filterMap id) = .ok found) {s : Suggestion}
    (hs : s ∈ found) : ∃ x ∈ xs, look x = .ok (some s) := by
  obtain ⟨all, hall, h⟩ := exists_of_bind_eq_ok h
  cases h
  obtain ⟨o, ho, rfl⟩ := List.mem_filterMap.1 hs
  exact exists_of_mem_mapM hall ho

theorem line_of_mem_redundantReads {cfg : SuggestionConfig} {found : List Suggestion}
    (h : redundantReads cfg ops = .ok found) {s : Suggestion} (hs : s ∈ found) :
    s.line ∈ ops.map (·.line) := by
  obtain ⟨⟨op, i⟩, hop, hlook⟩ := exists_of_mem_found h hs
  dsimp only [redundantRead?] at hlook
  split at hlook
  · cases hlook
  · obtain ⟨saved, -, hlook⟩ := exists_of_bind_eq_ok hlook
    cases hlook
    exact List.mem_map_of_mem (List.fst_mem_of_mem_zipIdx hop)

theorem line_of_mem_cacheableReads {cfg : SuggestionConfig} {found : List Suggestion}
    (h : cacheableReads cfg ops = .ok found) {s : Suggestion} (hs : s ∈ found) :
    s.line ∈ ops.map (·.line) := by
  obtain ⟨⟨entity, lines⟩, hmem, hlook⟩ := exists_of_mem_found h hs
  have hhead := head_of_mem_readsByEntity hmem
  dsimp only [cacheableRead?] at hlook
  split at hlook
  · cases hlook
  · obtain ⟨saved, -, hlook⟩ := exists_of_bind_eq_ok hlook
    obtain ⟨share, -, hlook⟩ := exists_of_bind_eq_ok hlook
    cases hlook
    exact hhead

theorem line_of_mem_suggestions {cfg : SuggestionConfig} {found : List Suggestion}
    (h : suggestions cfg ops = .ok found) {s : Suggestion} (hs : s ∈ found) :
    s.line ∈ ops.map (·.line) := by
  obtain ⟨redundant, hredundant, h⟩ := exists_of_bind_eq_ok h
  obtain ⟨cacheable, hcacheable, h⟩ := exists_of_bind_eq_ok h
  cases h
  rcases List.mem_append.1 hs with hs | hs
  · exact line_of_mem_redundantReads hredundant hs
  · exact line_of_mem_cacheableReads hcacheable hs

end

/-- The operation stands where an expression of a function starts, and tells the text of it. -/
structure OperationIn (source : List Char) (fn : Function) (op : Operation) (x : Expr) : Prop where
  body : ∃ b, fn.body = some b ∧ (Node.block b).Holds (.expr x)
  line : op.line = lineAt source x.span.start
  column : op.column = columnAt source x.span.start
  code : op.code = x.render
  entity : op.entity = entityOf op.code

/-- All lines of a report lead back to the function that it is about. -/
structure FunctionReport.Anchored (source : List Char) (e : EntryPoint) (f : FunctionReport) :
    Prop where
  line : f.line = e.method.item.span.line
  lines : ∀ op ∈ f.operations,
    f.line ≤ op.line ∧ op.line ≤ lineAt source (e.method.item.span.stop - 1)
  operations : ∀ op ∈ f.operations, ∃ x, OperationIn source e.method.fn op x
  hotspots : ∀ h ∈ f.hotspots, h.line ∈ f.operations.map (·.line)
  dryNibs : ∀ d ∈ f.dryNibs, d.line ∈ f.operations.map (·.line)
  suggestions : ∀ s ∈ f.suggestions, s.line ∈ f.operations.map (·.line)

theorem Reports.anchored {config : Config} {source : List Char} {file : String} {tree : SourceFile}
    (hparse : parse source file = .ok tree) {e : EntryPoint} (he : e ∈ tree.discover.entryPoints)
    {f : FunctionReport} (h : Reports config e f) : f.Anchored source e := by
  obtain ⟨hcontains, hkind⟩ := contains_of_entryPoint he
  have hitem := laid_of_contains hparse hcontains
  have hplace : ∀ op ∈ f.operations, ∃ x, OperationIn source e.method.fn op x ∧
      x.span.start < e.method.item.span.stop ∧ e.method.item.span.start ≤ x.span.start := by
    intro op hop
    obtain ⟨b, x, hbody, hx, hfound⟩ := h.found op hop
    have hholds := hx.of_child (body_mem_children hkind hbody)
    obtain ⟨hlaid, hstart, hstop⟩ := hitem.of_holds hholds
    have hmarks := hlaid.marks
    refine ⟨x, ⟨⟨b, hbody, hx⟩, ?_, ?_, hfound.code, hfound.entity⟩, ?_, hstart⟩
    · rw [hfound.line]
      exact congrArg Nat.cast hmarks.line
    · rw [hfound.column]
      exact congrArg Nat.cast hmarks.column
    · exact Nat.lt_of_lt_of_le hmarks.nonempty hstop
  refine ⟨h.line, ?_, ?_, ?_, ?_, ?_⟩
  · intro op hop
    obtain ⟨x, hat, hlt, hle⟩ := hplace op hop
    have hfirst := lineAt_mono source hle
    have hlast := lineAt_mono source (Nat.le_sub_one_of_lt hlt)
    have hline := hitem.marks.line
    have hop := hat.line
    rw [h.line, hop]
    simp only [Node.span] at hline
    omega
  · intro op hop
    obtain ⟨x, hat, -, -⟩ := hplace op hop
    exact ⟨x, hat⟩
  · intro hot hhot
    rw [h.hotspots] at hhot
    exact line_of_mem_rankHotspots hhot
  · intro d hd
    rw [h.dryNibs] at hd
    exact line_of_mem_dryNibs hd
  · intro s hs
    exact line_of_mem_suggestions h.suggestions hs

/-- Every function that is reported on is an entry point of the contract, and all lines of its
report lead back to it. -/
theorem analyze_anchored {config : Config} {source : List Char} {file : String}
    {target : Option String} {r : ContractReport} (h : analyze config source file target = .ok r) :
    ∃ tree, parse source file = .ok tree ∧ ∀ f ∈ r.functions, ∃ e ∈ tree.discover.entryPoints,
      analyzeFunction config e = .ok f ∧ f.Anchored source e := by
  obtain ⟨tree, hparse, hfunctions⟩ := exists_of_analyze h
  refine ⟨tree, hparse, fun f hf => ?_⟩
  obtain ⟨e, he, hreport⟩ := hfunctions f hf
  exact ⟨e, he, hreport, (reports_of_analyzeFunction hreport).anchored hparse he⟩

theorem analyze_anchored_sampleSource :
    ∃ r, analyze sampleConfig sampleSource "" none = .ok r ∧ isBusy r = true ∧
      ∃ tree, parse sampleSource "" = .ok tree ∧ ∀ f ∈ r.functions,
        ∃ e ∈ tree.discover.entryPoints,
          analyzeFunction sampleConfig e = .ok f ∧ f.Anchored sampleSource e := by
  obtain ⟨r, h, hbusy⟩ := exists_sampleReport
  exact ⟨r, h, hbusy, analyze_anchored h⟩

end InkGauge.Analysis
