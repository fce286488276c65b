import InkGauge.Proofs.Contract.Respan
import InkGauge.Proofs.Contract.Walk

/-!
Entry points are found by names, attributes, visibility and a few words of the text. Where a method
was read does not matter.
-/

namespace InkGauge.Contract

variable (f : Span → Span)

def ImplBlock.mapSpans (b : ImplBlock) : ImplBlock :=
  ⟨b.attrs.map (·.mapSpans f), b.selfType.mapSpans f, itemsMapSpans f b.items, f b.span⟩

def EntryPoint.mapSpans (e : EntryPoint) : EntryPoint :=
  ⟨⟨e.method.item.mapSpans f, e.method.fn.mapSpans f⟩, e.block.mapSpans f⟩

theorem itemsMapSpans_eq_map (is : List Item) : itemsMapSpans f is = is.map (·.mapSpans f) := by
  induction is with
  | nil => rfl
  | cons i is ih => rw [itemsMapSpans, ih, List.map_cons]

theorem inner_mapSpans (i : Item) : (i.mapSpans f).inner = i.inner.map (·.mapSpans f) := by
  obtain ⟨attrs, visibility, s, kind⟩ := i
  cases kind with
  | mod name items =>
    cases items with
    | none => rfl
    | some items => exact itemsMapSpans_eq_map f items
  | _ => rfl

theorem implBlock?_mapSpans (i : Item) :
    (i.mapSpans f).implBlock? = i.implBlock?.map (·.mapSpans f) := by
  obtain ⟨attrs, visibility, s, kind⟩ := i
  cases kind with
  | mod name items => cases items <;> rfl
  | _ => rfl

theorem walkFrom_mapSpans (is : List Item) :
    walkFrom (itemsMapSpans f is) = (walkFrom is).map (·.mapSpans f) := by
  rw [itemsMapSpans_eq_map]
  exact walkFrom_map (inner_mapSpans f) is

theorem function?_mapSpans (i : Item) :
    (i.mapSpans f).function? = i.function?.map (·.mapSpans f) := by
  rcases i with ⟨attrs, visibility, s, kind⟩
  cases kind with
  | mod name items => cases items <;> rfl
  | _ => rfl

theorem name_mapSpans (fn : Function) : (fn.mapSpans f).name = fn.name := by
  cases fn
  rfl

theorem selectorCount_mapSpans (i : Item) : (i.mapSpans f).selectorCount = i.selectorCount := by
  rcases i with ⟨attrs, visibility, s, kind⟩
  cases kind with
  | mod name items => cases items <;> rfl
  | const name type value isStatic =>
    cases value with
    | none => cases isStatic <;> rfl
    | some e =>
      cases isStatic with
      | true => rfl
      | false =>
        have hsame : isSelectorConstant name (type.mapSpans f) (some (e.mapSpans f)) =
            isSelectorConstant name type (some e) := by
          simp only [isSelectorConstant, render_mapSpans, Fragment.mapSpans]
        change (if isSelectorConstant name (type.mapSpans f) (some (e.mapSpans f)) then 1 else 0) = _
        rw [hsame]
        rfl
  | _ => rfl

theorem dispatcher?_mapSpans (i : Item) : (i.mapSpans f).dispatcher? = i.dispatcher? := by
  rw [Item.dispatcher?, Item.dispatcher?, function?_mapSpans, Option.map_map]
  congr 2
  funext fn
  exact name_mapSpans f fn

theorem any_name_mapSpans (p : String → Bool) (attrs : List Attribute) :
    (attrs.map (·.mapSpans f)).any (fun a => p a.name) = attrs.any fun a => p a.name := by
  rw [List.any_map]
  rfl

theorem isSelectorMethod_mapSpans (i : Item) :
    (i.mapSpans f).isSelectorMethod = i.isSelectorMethod := by
  rw [Item.isSelectorMethod, Item.isSelectorMethod, function?_mapSpans, Option.isSome_map]
  rcases i with ⟨attrs, visibility, s, kind⟩
  exact congrArg _ (any_name_mapSpans f (· = "selector") attrs)

/-- The file with `f` applied to all the spans of its items. -/
def SourceFile.mapSpans (t : SourceFile) : SourceFile := { t with items := itemsMapSpans f t.items }

theorem allItems_mapSpans (t : SourceFile) :
    (t.mapSpans f).allItems = t.allItems.map (·.mapSpans f) := by
  rw [SourceFile.allItems, SourceFile.allItems, List.map_flatMap, SourceFile.walk]
  change List.flatMap _ (walkFrom (itemsMapSpans f t.items)) = _
  rw [walkFrom_mapSpans, List.flatMap_map, SourceFile.walk]
  congr 1
  funext i
  rcases i with ⟨attrs, visibility, s, kind⟩
  cases kind with
  | impl selfType trait items => exact congrArg (List.cons _) (itemsMapSpans_eq_map f items)
  | trait name items => exact congrArg (List.cons _) (itemsMapSpans_eq_map f items)
  | mod name items => cases items <;> rfl
  | _ => rfl

theorem signals_mapSpans (t : SourceFile) : (t.mapSpans f).signals = t.signals := by
  rw [SourceFile.signals, SourceFile.signals, allItems_mapSpans, List.foldr_map, List.filterMap_map,
    List.any_map]
  congr 1
  · simp only [selectorCount_mapSpans]
  · exact congrArg (List.filterMap · t.allItems) (funext (dispatcher?_mapSpans f))
  · exact congrArg (_ || List.any t.allItems ·) (funext (isSelectorMethod_mapSpans f))

theorem isEntryPoint_mapSpans (signals : Signals) (e : EntryPoint) :
    isEntryPoint signals (e.mapSpans f).block (e.mapSpans f).method =
      isEntryPoint signals e.block e.method := by
  rcases e with ⟨⟨⟨attrs, visibility, s, kind⟩, ⟨name, params, result, body, signature⟩⟩, block⟩
  have hself : (params.map (·.mapSpans f)).any (·.isSelf) = params.any (·.isSelf) := by
    rw [List.any_map]
    rfl
  have hbody : (block?MapSpans f body).isSome = body.isSome := by cases body <;> rfl
  have hmarker (as : List Attribute) : hasMarker (as.map (·.mapSpans f)) = hasMarker as :=
    any_name_mapSpans f _ as
  simp only [EntryPoint.mapSpans, Item.mapSpans, Function.mapSpans, ImplBlock.mapSpans, isEntryPoint,
    Function.hasSelf, hself, hbody, hmarker]

theorem methodsOf_mapSpans (is : List Item) : methodsOf (itemsMapSpans f is) =
    (methodsOf is).map fun m => ⟨m.item.mapSpans f, m.fn.mapSpans f⟩ := by
  rw [methodsOf, methodsOf, itemsMapSpans_eq_map, List.filterMap_map, List.map_filterMap]
  congr 1
  funext i
  change (i.mapSpans f).function?.map _ = _
  rw [function?_mapSpans]
  cases i.function? <;> rfl

/-- The methods of an impl block that are entry points. -/
def ImplBlock.entryPoints (signals : Signals) (b : ImplBlock) : List EntryPoint :=
  ((methodsOf b.items).map (⟨·, b⟩)).filter fun e => isEntryPoint signals e.block e.method

theorem entryPoints_eq (t : SourceFile) :
    t.discover.entryPoints = t.impls.flatMap (·.entryPoints t.signals) := by
  rw [Discovery.entryPoints, SourceFile.discover, List.filter_flatMap, List.map_flatMap]
  congr 1
  funext b
  rw [ImplBlock.entryPoints, List.filter_map, List.map_map, List.filter_map]
  rfl

theorem blockEntryPoints_mapSpans (signals : Signals) (b : ImplBlock) :
    (b.mapSpans f).entryPoints signals = (b.entryPoints signals).map (·.mapSpans f) := by
  have hmethods : (methodsOf (b.mapSpans f).items).map (EntryPoint.mk · (b.mapSpans f)) =
      ((methodsOf b.items).map (EntryPoint.mk · b)).map (·.mapSpans f) := by
    change (methodsOf (itemsMapSpans f b.items)).map _ = _
    rw [methodsOf_mapSpans, List.map_map, List.map_map]
    rfl
  rw [ImplBlock.entryPoints, ImplBlock.entryPoints, hmethods, List.filter_map]
  congr 2
  exact funext (isEntryPoint_mapSpans f signals)

theorem impls_mapSpans (t : SourceFile) : (t.mapSpans f).impls = t.impls.map (·.mapSpans f) := by
  rw [SourceFile.impls, SourceFile.walk]
  change (walkFrom (itemsMapSpans f t.items)).filterMap _ = _
  rw [walkFrom_mapSpans, List.filterMap_map, SourceFile.impls, SourceFile.walk, List.map_filterMap]
  congr 1
  exact funext (implBlock?_mapSpans f)

/-- Entry points are found by names, attributes and visibility. -/
theorem entryPoints_mapSpans (t : SourceFile) :
    (t.mapSpans f).discover.entryPoints = t.discover.entryPoints.map (·.mapSpans f) := by
  rw [entryPoints_eq, entryPoints_eq, impls_mapSpans, signals_mapSpans, List.flatMap_map, List.map_flatMap]
  simp only [blockEntryPoints_mapSpans]

end InkGauge.Contract
