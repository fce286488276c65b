import InkGauge.Proofs.Contract.Walk
import Mathlib.Data.List.Perm.Basic

/-!
The order of items does not matter to entry points.

Items may change places with their siblings: those of the file, of an inline module, of an impl
block or of a trait. What is collected from the items then only changes its order, and whether a
method is an entry point depends on what was collected as a whole.
-/

namespace InkGauge.Contract

open Text

/-- What kinds of items hold others. -/
inductive ShellKind where
  | impl (selfType : Fragment) (traitType : Option Fragment)
  | trait (name : String)
  | mod (name : String)

/-- An item that holds others, without these. -/
structure Shell where
  attrs : List Attribute
  visibility : String
  span : Span
  kind : ShellKind

def ShellKind.around : ShellKind → List Item → ItemKind
  | .impl selfType traitType, members => .impl selfType traitType members
  | .trait name, members => .trait name members
  | .mod name, members => .mod name (some members)

def Shell.around (s : Shell) (members : List Item) : Item :=
  ⟨s.attrs, s.visibility, s.span, s.kind.around members⟩

/-- The same items, with siblings in another order on any level. -/
inductive Rearranged : List Item → List Item → Prop where
  | perm {is js : List Item} : is.Perm js → Rearranged is js
  | inside (s : Shell) {ms ms' : List Item} (is : List Item) : Rearranged ms ms' →
      Rearranged (s.around ms :: is) (s.around ms' :: is)
  | trans {is js ks : List Item} : Rearranged is js → Rearranged js ks → Rearranged is ks

/-- What items contribute changes only its order, if that holds of a shell whenever it holds of the
members. -/
theorem Rearranged.perm_flatMap {β : Type} {g : Item → List β}
    (hg : ∀ (s : Shell) (ms ms' : List Item), Rearranged ms ms' →
      (ms.flatMap g).Perm (ms'.flatMap g) → (g (s.around ms)).Perm (g (s.around ms')))
    {is js : List Item} (h : Rearranged is js) : (is.flatMap g).Perm (js.flatMap g) := by
  induction h with
  | perm hperm => exact hperm.flatMap_right _
  | inside s is hms ihms =>
    simp only [List.flatMap_cons]
    exact (hg s _ _ hms ihms).append_right _
  | trans _ _ ih ih' => exact ih.trans ih'

/-- What an item contributes to the signals of its file. -/
def Item.signs (i : Item) : Nat × Option String × Bool :=
  (i.selectorCount, i.dispatcher?, i.isSelectorMethod)

theorem signs_around (s : Shell) (ms ms' : List Item) :
    (s.around ms).signs = (s.around ms').signs := by
  obtain ⟨attrs, visibility, span, kind⟩ := s
  cases kind <;> rfl

theorem Rearranged.perm_signs {is js : List Item} (h : Rearranged is js) :
    (is.map Item.signs).Perm (js.map Item.signs) := by
  have hperm := perm_flatMap (g := fun i => [i.signs])
    (fun s ms ms' _ _ => by rw [signs_around s ms ms']) h
  rwa [← List.map_eq_flatMap, ← List.map_eq_flatMap] at hperm

/-- An item, with its members if it is an impl block or a trait. -/
def Item.withMembers (i : Item) : List Item :=
  match i.kind with
  | .impl _ _ items => i :: items
  | .trait _ items => i :: items
  | _ => [i]

/-- The signs of an item and of everything below it. -/
def Item.allSigns (i : Item) : List (Nat × Option String × Bool) :=
  (i.walk.flatMap Item.withMembers).map Item.signs

theorem signs_allItems (t : SourceFile) :
    t.allItems.map Item.signs = t.items.flatMap Item.allSigns := by
  have hall : t.allItems = t.walk.flatMap Item.withMembers := rfl
  rw [hall, SourceFile.walk, walkFrom_eq_flatMap, List.flatMap_assoc, List.map_flatMap]
  rfl

theorem allSigns_eq (i : Item) :
    i.allSigns = i.withMembers.map Item.signs ++ i.inner.flatMap Item.allSigns := by
  rw [Item.allSigns, Item.walk, List.flatMap_cons, List.map_append, walkFrom_eq_flatMap,
    List.flatMap_assoc, List.map_flatMap]
  rfl

theorem perm_allSigns (s : Shell) {ms ms' : List Item} (h : Rearranged ms ms')
    (hms : (ms.flatMap Item.allSigns).Perm (ms'.flatMap Item.allSigns)) :
    (s.around ms).allSigns.Perm (s.around ms').allSigns := by
  have hsame := signs_around s ms ms'
  rw [allSigns_eq, allSigns_eq]
  obtain ⟨attrs, visibility, span, kind⟩ := s
  cases kind with
  | impl selfType traitType =>
    simp only [Item.withMembers, Item.inner, Shell.around, ShellKind.around, List.map_cons,
      List.flatMap_nil, List.append_nil] at hsame ⊢
    rw [hsame]
    exact h.perm_signs.cons _
  | trait name =>
    simp only [Item.withMembers, Item.inner, Shell.around, ShellKind.around, List.map_cons,
      List.flatMap_nil, List.append_nil] at hsame ⊢
    rw [hsame]
    exact h.perm_signs.cons _
  | mod name =>
    simp only [Item.withMembers, Item.inner, Shell.around, ShellKind.around, List.map_cons,
      List.map_nil, List.singleton_append] at hsame ⊢
    rw [hsame]
    exact hms.cons _

/-- The signals of a file, from the signs of its items. -/
theorem signals_eq (t : SourceFile) : t.signals =
    { selectorConstants := (t.items.flatMap Item.allSigns).foldr (fun sign rest => sign.1 + rest) 0
      dispatchers := (t.items.flatMap Item.allSigns).filterMap (·.2.1)
      overrides := overrideMarkers.any (fun m => occursIn m.toList t.text)
        || (t.items.flatMap Item.allSigns).any (·.2.2) } := by
  rw [SourceFile.signals, ← signs_allItems, List.foldr_map, List.filterMap_map, List.any_map]
  rfl

theorem Rearranged.perm_methodsOf {is js : List Item} (h : Rearranged is js) :
    (methodsOf is).Perm (methodsOf js) := by
  have hnone : ∀ (s : Shell) (ms : List Item), (s.around ms).function? = none := by
    rintro ⟨attrs, visibility, span, kind⟩ ms
    cases kind <;> rfl
  have hperm := perm_flatMap (g := fun i => (i.function?.map (Method.mk i)).toList)
    (fun s ms ms' _ _ => by simp only [hnone, Option.map_none]; exact .refl _) h
  rwa [← List.filterMap_eq_flatMap_toList, ← List.filterMap_eq_flatMap_toList] at hperm

/-- The block with its members in another order. -/
structure ImplBlock.Alike (b b' : ImplBlock) : Prop where
  attrs : b'.attrs = b.attrs
  selfType : b'.selfType = b.selfType
  methods : (methodsOf b.items).Perm (methodsOf b'.items)

/-- What the impl blocks of an item and of everything below it contribute. -/
def Item.fromBlocks {β : Type} (h : ImplBlock → List β) (i : Item) : List β :=
  (i.walk.filterMap Item.implBlock?).flatMap h

theorem flatMap_impls {β : Type} (h : ImplBlock → List β) (t : SourceFile) :
    t.impls.flatMap h = t.items.flatMap (Item.fromBlocks h) := by
  rw [SourceFile.impls, SourceFile.walk, walkFrom_eq_flatMap, List.filterMap_flatMap,
    List.flatMap_assoc]
  rfl

theorem fromBlocks_eq {β : Type} (h : ImplBlock → List β) (i : Item) :
    i.fromBlocks h = i.implBlock?.toList.flatMap h ++ i.inner.flatMap (Item.fromBlocks h) := by
  have hinner : (walkFrom i.inner).filterMap Item.implBlock? =
      i.inner.flatMap fun j => j.walk.filterMap Item.implBlock? := by
    rw [walkFrom_eq_flatMap, List.filterMap_flatMap]
  rw [Item.fromBlocks, Item.walk, List.filterMap_cons, hinner]
  cases i.implBlock? with
  | none => exact List.flatMap_assoc
  | some b =>
    rw [List.flatMap_cons, List.flatMap_assoc, Option.toList_some, List.flatMap_singleton]
    rfl

/-- What the blocks of a file contribute changes only its order. -/
theorem perm_impls {β : Type} {h : ImplBlock → List β}
    (hh : ∀ b b', b.Alike b' → (h b).Perm (h b')) {s t : SourceFile}
    (hitems : Rearranged s.items t.items) :
    (s.impls.flatMap h).Perm (t.impls.flatMap h) := by
  rw [flatMap_impls, flatMap_impls]
  apply hitems.perm_flatMap
  rintro ⟨attrs, visibility, span, kind⟩ ms ms' hms ihms
  rw [fromBlocks_eq, fromBlocks_eq]
  cases kind with
  | impl selfType traitType =>
    refine List.Perm.append_right _ ?_
    simp only [Shell.around, ShellKind.around, Item.implBlock?, Option.toList_some,
      List.flatMap_singleton]
    exact hh _ _ ⟨rfl, rfl, hms.perm_methodsOf⟩
  | trait name => exact .refl _
  | mod name => exact ihms

/-- The method, and the type and the attributes of the block it stands in. -/
def EntryPoint.key (e : EntryPoint) : Method × Fragment × List Attribute :=
  (e.method, e.block.selfType, e.block.attrs)

/-- The same was found, in another order. -/
structure Discovery.Agrees (d d' : Discovery) : Prop where
  entryPoints : (d.entryPoints.map EntryPoint.key).Perm (d'.entryPoints.map EntryPoint.key)
  implCount : d.implCount = d'.implCount
  candidates : d.candidates.length = d'.candidates.length
  selectorConstants : d.signals.selectorConstants = d'.signals.selectorConstants
  overrides : d.signals.overrides = d'.signals.overrides
  generated : d.signals.generated = d'.signals.generated
  dispatchers : d.signals.dispatchers.Perm d'.signals.dispatchers

section

variable {s t : SourceFile}

theorem perm_items_allSigns (h : Rearranged s.items t.items) :
    (s.items.flatMap Item.allSigns).Perm (t.items.flatMap Item.allSigns) :=
  h.perm_flatMap fun shell _ _ hms ihms => perm_allSigns shell hms ihms

theorem perm_dispatchers (h : Rearranged s.items t.items) :
    s.signals.dispatchers.Perm t.signals.dispatchers := by
  rw [signals_eq, signals_eq]
  exact (perm_items_allSigns h).filterMap _

theorem selectorConstants_eq (h : Rearranged s.items t.items) :
    s.signals.selectorConstants = t.signals.selectorConstants := by
  have hcomm : LeftCommutative fun (sign : Nat × Option String × Bool) (rest : Nat) =>
      sign.1 + rest := ⟨fun a b rest => Nat.add_left_comm a.1 b.1 rest⟩
  rw [signals_eq, signals_eq]
  exact (perm_items_allSigns h).foldr_eq 0

theorem overrides_eq (h : Rearranged s.items t.items)
    (htext : overrideMarkers.any (fun m => occursIn m.toList s.text) =
      overrideMarkers.any fun m => occursIn m.toList t.text) :
    s.signals.overrides = t.signals.overrides := by
  have hany := (perm_items_allSigns h).any_eq (f := fun sign => sign.2.2)
  rw [signals_eq, signals_eq]
  simp only [htext, hany]

/-- A contract that looks generated still does so. -/
theorem generated_eq (h : Rearranged s.items t.items)
    (htext : overrideMarkers.any (fun m => occursIn m.toList s.text) =
      overrideMarkers.any fun m => occursIn m.toList t.text) :
    s.signals.generated = t.signals.generated := by
  have hdispatchers := (perm_dispatchers h).isEmpty_eq
  rw [Signals.generated, Signals.generated, selectorConstants_eq h, overrides_eq h htext, hdispatchers]

end

theorem isEntryPoint_congr {s t : Signals} (h : s.generated = t.generated) {b b' : ImplBlock}
    (hattrs : b'.attrs = b.attrs) (m : Method) : isEntryPoint s b m = isEntryPoint t b' m := by
  simp only [isEntryPoint, h, hattrs]

/-- What is known of a candidate apart from the other members of its block. -/
def candidateKey (c : EntryPoint × Bool) : (Method × Fragment × List Attribute) × Bool :=
  (c.1.key, c.2)

theorem perm_candidates {s t : SourceFile} (h : Rearranged s.items t.items)
    (hgenerated : s.signals.generated = t.signals.generated) :
    (s.discover.candidates.map candidateKey).Perm (t.discover.candidates.map candidateKey) := by
  simp only [SourceFile.discover, List.map_flatMap, List.map_map]
  refine (perm_impls ?_ h).trans (.of_eq ?_)
  · rintro b b' ⟨hattrs, hselfType, hmethods⟩
    have hkey : (candidateKey ∘ fun m => (⟨m, b'⟩, isEntryPoint s.signals b' m)) =
        candidateKey ∘ fun m => (⟨m, b⟩, isEntryPoint s.signals b m) := by
      funext m
      simp only [Function.comp_apply, candidateKey, EntryPoint.key, hattrs, hselfType,
        isEntryPoint_congr rfl hattrs m]
    rw [hkey]
    exact hmethods.map _
  · simp only [isEntryPoint_congr hgenerated rfl]

theorem entryPoints_key (d : Discovery) :
    d.entryPoints.map EntryPoint.key = ((d.candidates.map candidateKey).filter (·.2)).map (·.1) := by
  rw [Discovery.entryPoints, List.filter_map, List.map_map, List.map_map]
  rfl

/-- Entry points are found alike wherever the items stand among their siblings. -/
theorem discover_rearranged {s t : SourceFile} (h : Rearranged s.items t.items)
    (htext : overrideMarkers.any (fun m => occursIn m.toList s.text) =
      overrideMarkers.any fun m => occursIn m.toList t.text) :
    s.discover.Agrees t.discover := by
  have hgenerated := generated_eq h htext
  have hcandidates := perm_candidates h hgenerated
  refine ⟨?_, ?_, ?_, selectorConstants_eq h, overrides_eq h htext, hgenerated, perm_dispatchers h⟩
  · rw [entryPoints_key, entryPoints_key]
    exact (hcandidates.filter _).map _
  · have hblocks := perm_impls (h := fun b => [b.selfType])
      (fun b b' hb => by rw [hb.selfType]) h
    rw [← List.map_eq_flatMap, ← List.map_eq_flatMap] at hblocks
    have hlength := hblocks.length_eq
    rwa [List.length_map, List.length_map] at hlength
  · simpa using hcandidates.length_eq

/-- A private method with a body. -/
def sampleMethod (name : String) : Item :=
  ⟨[], "", default, .function ⟨name, [⟨"&self", none, true⟩], none, some ⟨[], none, default⟩, ""⟩⟩

def sampleShell (kind : ShellKind) : Shell := ⟨[], "", default, kind⟩

/-- Two blocks with private methods. A dispatcher at the very end shows that they are generated. -/
def dispatchedFile : SourceFile where
  attrs := []
  items := [(sampleShell (.impl ⟨"A", default⟩ none)).around [sampleMethod "f", sampleMethod "g"],
    (sampleShell (.mod "m")).around
      [(sampleShell (.impl ⟨"B", default⟩ none)).around [sampleMethod "h"], sampleMethod "route"]]
  text := []
  filename := ""

/-- The dispatcher comes first, and the methods of the first block are exchanged. -/
def dispatchedFirst : SourceFile where
  attrs := []
  items := [(sampleShell (.mod "m")).around
      [sampleMethod "route", (sampleShell (.impl ⟨"B", default⟩ none)).around [sampleMethod "h"]],
    (sampleShell (.impl ⟨"A", default⟩ none)).around [sampleMethod "g", sampleMethod "f"]]
  text := []
  filename := ""

theorem rearranged_dispatchedFile : Rearranged dispatchedFile.items dispatchedFirst.items := by
  have hmethods := Rearranged.perm (.swap (sampleMethod "g") (sampleMethod "f") [])
  refine .trans (.inside _ _ hmethods) (.trans (.perm (.swap _ _ [])) (.inside _ _ ?_))
  exact .perm (.swap _ _ [])

theorem discover_rearranged_dispatchedFile :
    dispatchedFile.discover.entryPoints.map (·.name) = ["f", "g", "h"] ∧
    dispatchedFirst.discover.entryPoints.map (·.name) = ["h", "g", "f"] ∧
    dispatchedFile.discover.Agrees dispatchedFirst.discover :=
  ⟨by decide +kernel, by decide +kernel, discover_rearranged rearranged_dispatchedFile rfl⟩

end InkGauge.Contract
