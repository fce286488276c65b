import InkGauge.Analysis.Contract
import InkGauge.Proofs.Contract.Discovery

/-!
Of a span an operation keeps the line and the column, and nothing in a report is worked out from
columns. So two trees that agree up to spans, and on the lines of these, have the same reports up to
columns.
-/

namespace InkGauge.Cost

open Contract

/-- The operation wherever it stands in its line. -/
def Operation.uncolumned (op : Operation) : Operation := { op with column := 0 }

/-- The operations are the same, up to columns. -/
def SameLines (ops ops' : List Operation) : Prop :=
  ops.map Operation.uncolumned = ops'.map Operation.uncolumned

theorem SameLines.append {a a' b b' : List Operation} (h : SameLines a a') (h' : SameLines b b') :
    SameLines (a ++ b) (a' ++ b') := by
  unfold SameLines at *
  rw [List.map_append, List.map_append, h, h']

theorem SameLines.refl (ops : List Operation) : SameLines ops ops := rfl

theorem looksLikeStorageWrite_mapSpans (f : Span → Span) (e : Expr) :
    looksLikeStorageWrite (e.mapSpans f) = looksLikeStorageWrite e := by
  fun_induction looksLikeStorageWrite e with
  | case1 => rfl
  | case2 base member s ih => exact ih
  | case3 base index s ih => exact ih
  | case4 e hpath hfield hindex =>
    cases e with
    | path segments text s => exact absurd rfl (hpath segments text s)
    | field base member s => exact absurd rfl (hfield base member s)
    | index base i s => exact absurd rfl (hindex base i s)
    | _ => rfl

theorem looksLikeStorageAccess_mapSpans (f : Span → Span) (e : Expr) :
    looksLikeStorageAccess (e.mapSpans f) = looksLikeStorageAccess e := by
  fun_induction looksLikeStorageAccess e with
  | case1 => rfl
  | case2 base member s ih =>
    change (looksLikeStorageAccess (base.mapSpans f) || _) = _
    rw [ih]
  | case3 base index s ih => exact ih
  | case4 e hpath hfield hindex =>
    cases e with
    | path segments text s => exact absurd rfl (hpath segments text s)
    | field base member s => exact absurd rfl (hfield base member s)
    | index base i s => exact absurd rfl (hindex base i s)
    | _ => rfl

section

set_option linter.unusedSectionVars false

variable {f : Span → Span} (hf : ∀ s, (f s).line = s.line) (m : Model)

include hf

theorem operationAt_mapSpans (s : Span) (code : String) (tag : Tag) :
    (operationAt m (f s) code tag).uncolumned = (operationAt m s code tag).uncolumned := by
  simp [operationAt, Operation.uncolumned, hf]

theorem textOperations_mapSpans (e : Expr) :
    SameLines (textOperations m (e.mapSpans f)) (textOperations m e) := by
  simp [SameLines, textOperations, render_mapSpans, span_mapSpans, operationAt_mapSpans hf]

theorem structural_mapSpans (e : Expr) {shown shown' : Bool} (h : shown = shown')
    (operation : String) (category : Category) :
    SameLines (structural m (e.mapSpans f) shown operation category)
      (structural m e shown' operation category) := by
  subst h
  cases shown <;>
    simp [SameLines, structural, render_mapSpans, span_mapSpans, operationAt_mapSpans hf]

theorem macroOperations_mapSpans (e : Expr) (path : String) :
    SameLines (macroOperations m (e.mapSpans f) path) (macroOperations m e path) := by
  unfold macroOperations
  split <;> simp [SameLines, render_mapSpans, span_mapSpans, operationAt_mapSpans hf]

mutual

theorem ofExpr_mapSpans : (e : Expr) → SameLines (ofExpr m (e.mapSpans f)) (ofExpr m e)
  | .block body _ _ _ => ofBlock_mapSpans body
  | .ifElse cond thenBlock orElse _ =>
    ((ofExpr_mapSpans cond).append (ofBlock_mapSpans thenBlock)).append (ofExpr?_mapSpans orElse)
  | .matchOn scrutinee arms _ => (ofExpr_mapSpans scrutinee).append (ofArms_mapSpans arms)
  | .loop body _ _ => ofBlock_mapSpans body
  | .whileLoop cond body _ _ => (ofExpr_mapSpans cond).append (ofBlock_mapSpans body)
  | .forLoop _ iter body _ _ => (ofExpr_mapSpans iter).append (ofBlock_mapSpans body)
  | .letCond _ e _ => ofExpr_mapSpans e
  | .methodCall receiver method turbofish args s => by
    have htext := textOperations_mapSpans hf m (.methodCall receiver method turbofish args s)
    have hreceiver : SameLines
        (if isMethodCall (receiver.mapSpans f) then [] else ofExpr m (receiver.mapSpans f))
        (if isMethodCall receiver then [] else ofExpr m receiver) := by
      have hcall : isMethodCall (receiver.mapSpans f) = isMethodCall receiver := by
        cases receiver <;> rfl
      rw [hcall]
      split
      · exact .refl _
      · exact ofExpr_mapSpans receiver
    exact (htext.append hreceiver).append (ofExprs_mapSpans args)
  | .call func args s => by
    have htext := textOperations_mapSpans hf m (.call func args s)
    exact (htext.append (ofExpr_mapSpans func)).append (ofExprs_mapSpans args)
  | .binary op left right s => by
    have htext := textOperations_mapSpans hf m (.binary op left right s)
    have hshown : (isUpdate op && looksLikeStorageWrite (left.mapSpans f)) =
        (isUpdate op && looksLikeStorageWrite left) := by rw [looksLikeStorageWrite_mapSpans]
    have hupdate := structural_mapSpans hf m (.binary op left right s) hshown
      "storage_compound_update" .storageWrite
    exact ((htext.append (ofExpr_mapSpans left)).append (ofExpr_mapSpans right)).append hupdate
  | .assign left right s => by
    have htext := textOperations_mapSpans hf m (.assign left right s)
    have hwrite := structural_mapSpans hf m (.assign left right s)
      (looksLikeStorageWrite_mapSpans f left) "storage_assign" .storageWrite
    exact ((htext.append (ofExpr_mapSpans left)).append (ofExpr_mapSpans right)).append hwrite
  | .index base index s => by
    have htext := textOperations_mapSpans hf m (.index base index s)
    have hread := structural_mapSpans hf m (.index base index s)
      (looksLikeStorageAccess_mapSpans f base) "storage_index_access" .storageRead
    exact ((htext.append (ofExpr_mapSpans base)).append (ofExpr_mapSpans index)).append hread
  | .field base member s => by
    have htext := textOperations_mapSpans hf m (.field base member s)
    have hread := structural_mapSpans hf m (.field base member s)
      (looksLikeStorageAccess_mapSpans f base) "storage_field_access" .storageRead
    exact (htext.append (ofExpr_mapSpans base)).append hread
  | .lit text s => textOperations_mapSpans hf m (.lit text s)
  | .path segments text s => textOperations_mapSpans hf m (.path segments text s)
  | .unary op operand s => textOperations_mapSpans hf m (.unary op operand s)
  | .cast e type s => textOperations_mapSpans hf m (.cast e type s)
  | .attempt e s => textOperations_mapSpans hf m (.attempt e s)
  | .await e s => textOperations_mapSpans hf m (.await e s)
  | .paren inner s => textOperations_mapSpans hf m (.paren inner s)
  | .tuple elems s => textOperations_mapSpans hf m (.tuple elems s)
  | .array elems s => textOperations_mapSpans hf m (.array elems s)
  | .arrayRepeat elem length s => textOperations_mapSpans hf m (.arrayRepeat elem length s)
  | .structLit path fields base s => textOperations_mapSpans hf m (.structLit path fields base s)
  | .invoke path delimiter tokens s => textOperations_mapSpans hf m (.invoke path delimiter tokens s)
  | .range start stop inclusive s => textOperations_mapSpans hf m (.range start stop inclusive s)
  | .closure params moves result body s => textOperations_mapSpans hf m (.closure params moves result body s)
  | .ret value s => textOperations_mapSpans hf m (.ret value s)
  | .brk label value s => textOperations_mapSpans hf m (.brk label value s)
  | .cont label s => textOperations_mapSpans hf m (.cont label s)

theorem ofExprs_mapSpans :
    (es : List Expr) → SameLines (ofExprs m (exprsMapSpans f es)) (ofExprs m es)
  | [] => .refl _
  | e :: es => (ofExpr_mapSpans e).append (ofExprs_mapSpans es)

theorem ofExpr?_mapSpans :
    (e : Option Expr) → SameLines (ofExpr? m (expr?MapSpans f e)) (ofExpr? m e)
  | none => .refl _
  | some e => ofExpr_mapSpans e

theorem ofArms_mapSpans :
    (as : List MatchArm) → SameLines (ofArms m (armsMapSpans f as)) (ofArms m as)
  | [] => .refl _
  | ⟨_, guard, body, _⟩ :: as =>
    ((ofExpr?_mapSpans guard).append (ofExpr_mapSpans body)).append (ofArms_mapSpans as)

theorem ofStmt_mapSpans : (s : Stmt) → SameLines (ofStmt m (s.mapSpans f)) (ofStmt m s)
  | .letBind _ _ init orElse _ _ => (ofExpr?_mapSpans init).append (ofBlock?_mapSpans orElse)
  | .expr e _ _ _ => by
    have he := ofExpr_mapSpans e
    cases e with
    | invoke path delimiter tokens s =>
      exact macroOperations_mapSpans hf m (.invoke path delimiter tokens s) path
    | _ => exact he
  | .item .. => .refl _
  | .empty _ => .refl _

theorem ofStmts_mapSpans :
    (ss : List Stmt) → SameLines (ofStmts m (stmtsMapSpans f ss)) (ofStmts m ss)
  | [] => .refl _
  | s :: ss => (ofStmt_mapSpans s).append (ofStmts_mapSpans ss)

theorem ofBlock_mapSpans : (b : Block) → SameLines (ofBlock m (b.mapSpans f)) (ofBlock m b)
  | ⟨stmts, tail, _⟩ => (ofStmts_mapSpans stmts).append (ofExpr?_mapSpans tail)

theorem ofBlock?_mapSpans :
    (b : Option Block) → SameLines (ofBlock? m (block?MapSpans f b)) (ofBlock? m b)
  | none => .refl _
  | some b => ofBlock_mapSpans b

end

end

end InkGauge.Cost

namespace InkGauge.Analysis

open Contract Cost Number Settings Text

theorem mapM_map_except {ε α β γ δ : Type} (g : α → β) (h : β → Except ε γ) (h' : α → Except ε δ)
    (φ : δ → γ) (hh : ∀ a, h (g a) = (h' a).map φ) (xs : List α) :
    (xs.map g).mapM h = (xs.mapM h').map (List.map φ) := by
  induction xs with
  | nil => rfl
  | cons x xs ih =>
    rw [List.map_cons, List.mapM_cons, List.mapM_cons, hh, ih]
    cases h' x with
    | error e => rfl
    | ok d => cases xs.mapM h' <;> rfl

section

variable (ops : List Operation)

theorem totalInk_uncolumned : totalInk (ops.map Operation.uncolumned) = totalInk ops := by
  simp only [totalInk, List.foldr_map]
  rfl

theorem withShares_uncolumned :
    withShares (ops.map Operation.uncolumned) =
      (withShares ops).map (List.map Operation.uncolumned) := by
  rw [withShares, withShares, totalInk_uncolumned]
  refine mapM_map_except _ _ _ _ (fun op => ?_) ops
  change (shareOf op.ink (totalInk ops) >>= _) = _
  cases shareOf op.ink (totalInk ops) <;> rfl

theorem categoryStats_uncolumned :
    categoryStats (ops.map Operation.uncolumned) = categoryStats ops := by
  have hinks : inksByCategory (ops.map Operation.uncolumned) = inksByCategory ops := by
    simp only [inksByCategory, List.foldl_map]
    rfl
  rw [categoryStats, categoryStats, hinks, totalInk_uncolumned]

theorem rankHotspots_uncolumned (threshold : Int) :
    rankHotspots threshold (ops.map Operation.uncolumned) = rankHotspots threshold ops := by
  have hsort (l : List Operation) : (l.mergeSort fun a b => decide (b.ink ≤ a.ink)).map
      Operation.uncolumned = (l.map Operation.uncolumned).mergeSort fun a b => decide (b.ink ≤ a.ink) :=
    List.map_mergeSort (f := Operation.uncolumned) fun _ _ _ _ => rfl
  simp only [rankHotspots, List.filter_map, ← hsort, List.zipIdx_map, List.map_map]
  rfl

theorem readsByEntity_uncolumned :
    readsByEntity (ops.map Operation.uncolumned) = readsByEntity ops := by
  simp only [readsByEntity, List.filter_map, List.foldl_map]
  rfl

theorem dryNibs_uncolumned (cfg : DryNibConfig) (inkPerGas : Int) :
    dryNibs cfg inkPerGas (ops.map Operation.uncolumned) = dryNibs cfg inkPerGas ops := by
  simp only [dryNibs, overcharges, repeatedReads, nestedReads, readsByEntity_uncolumned,
    List.filterMap_map]
  rfl

theorem redundantReads_uncolumned (cfg : SuggestionConfig) :
    redundantReads cfg (ops.map Operation.uncolumned) = redundantReads cfg ops := by
  let read (x : Operation × Nat) := redundantRead? cfg x.2 x.1
  have hread (x : Operation × Nat) : read (Prod.map Operation.uncolumned id x) = (read x).map id := by
    change read x = (read x).map id
    cases read x <;> rfl
  have hall : (ops.zipIdx.map (Prod.map Operation.uncolumned id)).mapM read = ops.zipIdx.mapM read := by
    rw [mapM_map_except _ _ _ _ hread]
    cases ops.zipIdx.mapM read with
    | error e => rfl
    | ok found => exact congrArg Except.ok (List.map_id found)
  change ((ops.map Operation.uncolumned).zipIdx.mapM read >>= _) = (ops.zipIdx.mapM read >>= _)
  rw [List.zipIdx_map, hall]

theorem suggestions_uncolumned (cfg : SuggestionConfig) :
    suggestions cfg (ops.map Operation.uncolumned) = suggestions cfg ops := by
  rw [suggestions, suggestions, redundantReads_uncolumned, cacheableReads, cacheableReads,
    readsByEntity_uncolumned]

end

/-- The report on a function, with the operations wherever they stand in their lines. -/
def FunctionReport.uncolumned (r : FunctionReport) : FunctionReport :=
  { r with operations := r.operations.map Operation.uncolumned }

/-- The report on an entry point whose operations are given. -/
def reportOn (config : Config) (e : EntryPoint) (ops : List Operation) :
    Except ArithError FunctionReport := do
  let total := totalInk ops
  if config.inkPerGas = 0 then throw .divisionByZero
  return {
    name := e.method.fn.name
    signature :=
      if e.method.fn.signature = "" then "fn " ++ e.method.fn.name ++ "(...)"
      else e.method.fn.signature
    line := e.method.item.span.line
    implType := e.implType
    totalInk := total
    gasEquivalent := total.fdiv config.inkPerGas
    operations := ops
    categories := ← categoryStats ops
    suggestions := ← suggestions config.optimizations ops
    hotspots := rankHotspots config.hotspotThreshold ops
    dryNibs := dryNibs config.dryNib config.inkPerGas ops }

theorem reportOn_uncolumned (config : Config) (e : EntryPoint) (ops : List Operation) :
    reportOn config e (ops.map Operation.uncolumned) =
      (reportOn config e ops).map FunctionReport.uncolumned := by
  simp only [reportOn, totalInk_uncolumned, categoryStats_uncolumned, suggestions_uncolumned,
    rankHotspots_uncolumned, dryNibs_uncolumned]
  split
  · rfl
  · cases categoryStats ops with
    | error err => rfl
    | ok stats => cases suggestions config.optimizations ops <;> rfl

theorem analyzeFunction_uncolumned (config : Config) (e : EntryPoint) :
    (analyzeFunction config e).map FunctionReport.uncolumned =
      withShares ((ofBlock? config.costModel e.method.fn.body).map Operation.uncolumned) >>=
        reportOn config e := by
  have hfun : analyzeFunction config e =
      withShares (ofBlock? config.costModel e.method.fn.body) >>= reportOn config e := rfl
  rw [hfun, withShares_uncolumned]
  cases withShares (ofBlock? config.costModel e.method.fn.body) with
  | error err => rfl
  | ok ops => exact (reportOn_uncolumned config e ops).symm

section

variable {f : Span → Span} (hf : ∀ s, (f s).line = s.line) {config : Config}

include hf

theorem analyzeFunction_mapSpans (e : EntryPoint) :
    (analyzeFunction config (e.mapSpans f)).map FunctionReport.uncolumned =
      (analyzeFunction config e).map FunctionReport.uncolumned := by
  rw [analyzeFunction_uncolumned, analyzeFunction_uncolumned]
  rcases e with ⟨⟨⟨attrs, visibility, s, kind⟩, ⟨name, params, result, body, signature⟩⟩, block⟩
  have hops := ofBlock?_mapSpans hf config.costModel body
  change withShares ((ofBlock? config.costModel (block?MapSpans f body)).map _) >>= _ = _
  rw [hops]
  congr 1
  funext ops
  simp only [reportOn, EntryPoint.mapSpans, Item.mapSpans, Function.mapSpans, hf]
  rfl

end

/-- The entry points that are asked for are chosen by their names. -/
theorem select_ok {file file' : String} {d d' : Discovery} {target : Option String}
    {g g' : EntryPoint → EntryPoint} (hg : ∀ e, (g e).name = e.name)
    (hg' : ∀ e, (g' e).name = e.name) (hd : d.entryPoints.map g = d'.entryPoints.map g')
    {chosen : List EntryPoint} (h : select file d target = .ok chosen) :
    ∃ chosen', select file' d' target = .ok chosen' ∧ chosen.map g = chosen'.map g' := by
  have hempty : d.entryPoints.isEmpty = d'.entryPoints.isEmpty := by
    rw [← List.isEmpty_map (f := g), hd, List.isEmpty_map]
  unfold select at h ⊢
  dsimp only at h ⊢
  rw [← hempty]
  split at h
  · cases h
  rename_i hne
  rw [if_neg hne]
  cases target with
  | none =>
    cases h
    exact ⟨_, rfl, hd⟩
  | some name =>
    have hnamed (g : EntryPoint → EntryPoint) (hg : ∀ e, (g e).name = e.name)
        (all : List EntryPoint) : (all.filter (·.name = name)).map g =
          (all.map g).filter (·.name = name) := by
      rw [List.filter_map]
      congr 2
      funext e
      simp [hg]
    have hsame : (d.entryPoints.filter (·.name = name)).map g =
        (d'.entryPoints.filter (·.name = name)).map g' := by rw [hnamed g hg, hnamed g' hg', hd]
    have hnone : (d.entryPoints.filter (·.name = name)).isEmpty =
        (d'.entryPoints.filter (·.name = name)).isEmpty := by
      rw [← List.isEmpty_map (f := g), hsame, List.isEmpty_map]
    dsimp only at h ⊢
    rw [← hnone]
    split at h
    · cases h
    · rename_i hsome
      rw [if_neg hsome]
      cases h
      exact ⟨_, rfl, hsame⟩

/-- Two trees that agree up to spans, and on their lines, have the same reports up to columns. -/
theorem analyzeTree_ok {f f' : Span → Span} (hf : ∀ s, (f s).line = s.line)
    (hf' : ∀ s, (f' s).line = s.line) {config : Config} {tree tree' : SourceFile}
    {target : Option String} {r : ContractReport}
    (hitems : itemsMapSpans f tree.items = itemsMapSpans f' tree'.items)
    (hmarkers : ∀ m ∈ overrideMarkers, occursIn m.toList tree.text = occursIn m.toList tree'.text)
    (h : analyzeTree config tree target = .ok r) :
    ∃ r', analyzeTree config tree' target = .ok r' ∧
      r'.functions.map FunctionReport.uncolumned = r.functions.map FunctionReport.uncolumned := by
  have hall : (tree.mapSpans f).allItems = (tree'.mapSpans f').allItems := by
    simp only [SourceFile.allItems, SourceFile.walk, SourceFile.mapSpans, hitems]
  have hmarked : (overrideMarkers.any fun m => occursIn m.toList tree.text) =
      overrideMarkers.any fun m => occursIn m.toList tree'.text := by
    simp only [overrideMarkers, List.any_cons, List.any_nil]
    rw [hmarkers _ (by simp [overrideMarkers]), hmarkers _ (by simp [overrideMarkers])]
  have hsignals : (tree.mapSpans f).signals = (tree'.mapSpans f').signals := by
    rw [SourceFile.signals, SourceFile.signals, hall]
    exact congrArg (Signals.mk _ _) (congrArg (· || _) hmarked)
  have hblocks : (tree.mapSpans f).impls = (tree'.mapSpans f').impls := by
    simp only [SourceFile.impls, SourceFile.walk, SourceFile.mapSpans, hitems]
  have hentry : tree.discover.entryPoints.map (·.mapSpans f) =
      tree'.discover.entryPoints.map (·.mapSpans f') := by
    rw [← entryPoints_mapSpans, ← entryPoints_mapSpans, entryPoints_eq, entryPoints_eq, hblocks,
      hsignals]
  have hname (f : Span → Span) (e : EntryPoint) : (e.mapSpans f).name = e.name :=
    name_mapSpans f e.method.fn
  -- The functions that are chosen correspond, and so do the reports on them.
  have hreports (f : Span → Span) (hf : ∀ s, (f s).line = s.line) (chosen : List EntryPoint) :
      (chosen.mapM (analyzeFunction config)).map (List.map FunctionReport.uncolumned) =
        (chosen.map (·.mapSpans f)).mapM fun e =>
          (analyzeFunction config e).map FunctionReport.uncolumned :=
    (mapM_map_except (EntryPoint.mapSpans f)
      (fun e => (analyzeFunction config e).map FunctionReport.uncolumned) _ _
      (analyzeFunction_mapSpans hf) chosen).symm
  unfold analyzeTree at h ⊢
  cases hselect : select tree.filename tree.discover target with
  | error e =>
    rw [hselect] at h
    cases h
  | ok chosen =>
    obtain ⟨chosen', hselect', hchosen⟩ := select_ok (hname f) (hname f') hentry hselect
    have hsame := (hreports f hf chosen).trans
      ((congrArg _ hchosen).trans (hreports f' hf' chosen').symm)
    rw [hselect] at h
    rw [hselect']
    cases hfns : chosen.mapM (analyzeFunction config) with
    | error e =>
      simp only [bind, Except.bind, hfns] at h
      cases h
    | ok fns =>
      simp only [bind, Except.bind, hfns] at h
      cases h
      cases hfns' : chosen'.mapM (analyzeFunction config) with
      | error e =>
        rw [hfns, hfns'] at hsame
        cases hsame
      | ok fns' =>
        rw [hfns, hfns'] at hsame
        refine ⟨_, by simp only [bind, Except.bind, hfns']; rfl, ?_⟩
        exact (Except.ok.inj hsame).symm

end InkGauge.Analysis
