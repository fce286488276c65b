import InkGauge.Proofs.Analysis.Groups
import InkGauge.Proofs.Analysis.Reported
import InkGauge.Proofs.Number.Range
import Mathlib.Data.List.Forall2

/-!
Two parts of the analysis look at repeated reads: one reports a field that is read too often, the
other suggests to keep a field in a variable. Both take the fields in the order of their first
reads and tell the line of the first read, so that every report has its suggestion. A suggestion
writes the ink that is saved in millions, and there is none for an amount beyond the doubles.
-/

namespace InkGauge.Analysis

open Cost Number Settings

/-- The reads of a field, in their order. -/
def readsOf (ops : List Operation) (field : String) : List Operation :=
  ops.filter fun op => decide (op.category = .storageRead ∧ op.entity = field)

/-- How often a field is read. -/
def readCount (ops : List Operation) (field : String) : Int := (readsOf ops field).length

/-- The line of the first read of a field. -/
def firstReadLine (ops : List Operation) (field : String) : Option Int :=
  (readsOf ops field).head?.map (·.line)

/-- The fields that can be told and are read, in the order of their first reads: `eraseDups` keeps
the first of equal names. -/
def fieldsRead (ops : List Operation) : List String :=
  ((ops.filter fun op => decide (op.category = .storageRead ∧ op.entity ≠ unknownEntity)).map
    (·.entity)).eraseDups

/-- The fields that are read at least so often. -/
def fieldsReadAtLeast (least : Int) (ops : List Operation) : List String :=
  (fieldsRead ops).filter fun field => decide (least ≤ readCount ops field)

theorem mem_fieldsRead {ops : List Operation} {field : String} :
    field ∈ fieldsRead ops ↔ field ≠ unknownEntity ∧ 1 ≤ readCount ops field := by
  rw [fieldsRead, List.mem_eraseDups, readCount]
  constructor
  · intro h
    obtain ⟨op, hop, rfl⟩ := List.mem_map.1 h
    simp only [List.mem_filter, decide_eq_true_eq] at hop
    have hread : op ∈ readsOf ops op.entity := by simp [readsOf, hop.1, hop.2.1]
    have hpos := List.length_pos_of_mem hread
    exact ⟨hop.2.2, by omega⟩
  · intro ⟨hfield, hcount⟩
    obtain ⟨op, hop⟩ := List.exists_mem_of_length_pos (show 0 < (readsOf ops field).length by omega)
    simp only [readsOf, List.mem_filter, decide_eq_true_eq] at hop
    obtain ⟨hmem, hread, rfl⟩ := hop
    apply List.mem_map_of_mem
    simp [hmem, hread, hfield]

/-- No two fields get one name, and what cannot be told gets none. -/
theorem names_fieldsReadAtLeast (title : String) (least : Int) (ops : List Operation) :
    ((fieldsReadAtLeast least ops).map (title ++ ·)).Nodup ∧
      title ++ unknownEntity ∉ (fieldsReadAtLeast least ops).map (title ++ ·) := by
  constructor
  · apply List.Nodup.map
    · intro a b hab
      exact (String.append_right_inj title).1 hab
    · exact (nodup_eraseDups _).filter _
  · intro hmem
    obtain ⟨field, hfield, hname⟩ := List.mem_map.1 hmem
    have hne := (mem_fieldsRead.1 (List.mem_of_mem_filter hfield)).1
    exact hne ((String.append_right_inj title).1 hname)

/-- The lines of the reads are kept by field. -/
theorem readsByEntity_eq_map (ops : List Operation) :
    readsByEntity ops =
      (fieldsRead ops).map fun field => (field, (readsOf ops field).map (·.line)) := by
  have hnamed : ops.filter isNamedRead =
      ops.filter fun op => decide (op.category = .storageRead ∧ op.entity ≠ unknownEntity) := by
    apply List.filter_congr
    intro op _
    rw [Bool.eq_iff_iff]
    simp [isNamedRead]
  rw [readsByEntity_eq, groups, hnamed, ← fieldsRead]
  apply List.map_congr_left
  intro field hfield
  have hne := (mem_fieldsRead.1 hfield).1
  rw [List.filter_filter, readsOf]
  congr 2
  apply List.filter_congr
  intro op _
  by_cases hop : op.entity = field
  · simp [hop, hne]
  · simp [hop]

section

variable {α β γ δ ε : Type}

/-- The results of a search, where it is known which members have one. -/
theorem filterMap_eq_map_filter {f : α → Option β} {p : α → Prop} [DecidablePred p] {g : α → β}
    {xs : List α} (h : ∀ x ∈ xs, f x = if p x then some (g x) else none) :
    xs.filterMap f = (xs.filter fun x => decide (p x)).map g := by
  rw [List.filterMap_congr h]
  induction xs with
  | nil => rfl
  | cons x xs ih =>
    have hxs := ih fun y hy => h y (List.mem_cons_of_mem x hy)
    by_cases hx : p x
    · simp [hx, hxs]
    · simp [hx, hxs]

/-- What the results of a search show, where it is known which members have one. -/
theorem map_filterMap_of_mapM {f : α → Except ε (Option β)} {xs : List α} {found : List (Option β)}
    (h : xs.mapM f = .ok found) {g : β → γ} {p : α → Prop} [DecidablePred p] {g' : α → γ}
    (hg : ∀ x y, f x = .ok y → y.map g = if p x then some (g' x) else none) :
    (found.filterMap id).map g = (xs.filter fun x => decide (p x)).map g' := by
  calc (found.filterMap id).map g
      = (found.map (Option.map g)).filterMap id := by
        rw [List.map_filterMap, List.filterMap_map]
        rfl
    _ = (xs.filter fun x => decide (p x)).map g' := by
        rw [map_eq_of_mapM h hg, List.filterMap_map]
        exact filterMap_eq_map_filter fun _ _ => rfl

/-- A traversal fails exactly if some step fails. -/
theorem mapM_outcome {f : α → Except ε β} {e : ε} {bad : α → Prop}
    (h : ∀ x, (∃ y, f x = .ok y) ∧ ¬bad x ∨ f x = .error e ∧ bad x) (xs : List α) :
    (∃ ys, xs.mapM f = .ok ys) ∧ (∀ x ∈ xs, ¬bad x) ∨ xs.mapM f = .error e ∧ ∃ x ∈ xs, bad x := by
  induction xs with
  | nil => exact .inl ⟨⟨[], rfl⟩, by simp⟩
  | cons x xs ih =>
    rw [List.mapM_cons]
    rcases h x with ⟨⟨y, hy⟩, hx⟩ | ⟨hx, hbad⟩
    · rw [hy]
      rcases ih with ⟨⟨ys, hys⟩, hxs⟩ | ⟨hxs, x', hx', hbad⟩
      · rw [hys]
        exact .inl ⟨⟨y :: ys, rfl⟩, by simpa [hx] using hxs⟩
      · rw [hxs]
        exact .inr ⟨rfl, x', List.mem_cons_of_mem x hx', hbad⟩
    · rw [hx]
      exact .inr ⟨rfl, x, List.mem_cons_self, hbad⟩

/-- Two lists that show the same list each in its way go together. -/
theorem forall₂_of_map_eq {f : α → δ} {f' : γ → δ} {g : β → ε} {g' : γ → ε} {R : α → β → Prop}
    (h : ∀ x y z, f x = f' z → g y = g' z → R x y) {xs : List α} {ys : List β} {zs : List γ}
    (hx : xs.map f = zs.map f') (hy : ys.map g = zs.map g') : List.Forall₂ R xs ys := by
  induction zs generalizing xs ys with
  | nil =>
    rw [List.map_eq_nil_iff.1 hx, List.map_eq_nil_iff.1 hy]
    exact .nil
  | cons z zs ih =>
    obtain ⟨x, xs, rfl, hxz, hxs⟩ := List.map_eq_cons_iff.1 hx
    obtain ⟨y, ys, rfl, hyz, hys⟩ := List.map_eq_cons_iff.1 hy
    exact .cons (h x y z hxz hyz) (ih hxs hys)

end

/-- What a dry nib tells of repeated reads. -/
def DryNib.readFigures (d : DryNib) : String × Option Int × Int × Int :=
  (d.operation, some d.line, d.inkCharged, d.overcharge)

/-- What a suggestion tells of repeated reads. -/
def Suggestion.readFigures (s : Suggestion) : String × Option Int × Int :=
  (s.id, some s.line, s.savingsInk)

theorem some_getD_head? {lines : List Int} (h : lines ≠ []) :
    some (lines.head?.getD 0) = lines.head? := by
  cases lines with
  | nil => exact absurd rfl h
  | cons line lines => rfl

theorem readFigures_repeatedRead? (cfg : DryNibConfig) (field : String) {lines : List Int}
    (h : lines ≠ []) :
    (repeatedRead? cfg field lines).map DryNib.readFigures =
      if cfg.repeatedReadCount ≤ lines.length then
        some ("repeated storage_read: self." ++ field, lines.head?, lines.length * cfg.readWaste,
          (lines.length - 1) * cfg.readWaste)
      else none := by
  rw [repeatedRead?, ← some_getD_head? h]
  by_cases hcount : cfg.repeatedReadCount ≤ lines.length
  · rw [if_pos hcount, if_neg (by omega)]
    rfl
  · rw [if_neg hcount, if_pos (by omega)]
    rfl

theorem readFigures_repeatedReads (cfg : DryNibConfig) (ops : List Operation) :
    (repeatedReads cfg ops).map DryNib.readFigures =
      (fieldsReadAtLeast cfg.repeatedReadCount ops).map fun field =>
        ("repeated storage_read: self." ++ field, firstReadLine ops field,
          readCount ops field * cfg.readWaste, (readCount ops field - 1) * cfg.readWaste) := by
  rw [repeatedReads, readsByEntity_eq_map, List.filterMap_map, List.map_filterMap]
  apply filterMap_eq_map_filter
  intro field hfield
  have hcount := (mem_fieldsRead.1 hfield).2
  have hlines : (readsOf ops field).map (·.line) ≠ [] := by
    intro hnil
    simp [readCount, List.map_eq_nil_iff.1 hnil] at hcount
  change (repeatedRead? cfg field _).map DryNib.readFigures = _
  rw [readFigures_repeatedRead? cfg field hlines, List.length_map, List.head?_map]
  rfl

/-- The ink that is saved by keeping a field is an integer beyond the doubles. -/
def SavingsTooLarge (cfg : SuggestionConfig) (count : Int) : Prop :=
  doubleLimit ≤ (cfg.cachedReadSavings * (count - 1)).natAbs

theorem cacheableRead?_outcome (cfg : SuggestionConfig) (field : String) (lines : List Int) :
    (∃ s, cacheableRead? cfg field lines = .ok s) ∧
        ¬((2 : Int) ≤ lines.length ∧ SavingsTooLarge cfg lines.length) ∨
      cacheableRead? cfg field lines = .error .integerTooLarge ∧
        (2 : Int) ≤ lines.length ∧ SavingsTooLarge cfg lines.length := by
  unfold cacheableRead? SavingsTooLarge
  dsimp only
  split
  case isTrue hcount => exact .inl ⟨⟨none, rfl⟩, by omega⟩
  case isFalse hcount =>
    obtain ⟨share, hshare⟩ :
        ∃ x, Binary64.percentage ((lines.length : Int) - 1) lines.length = .ok x :=
      Binary64.exists_percentage (by omega) (by omega)
    rcases Binary64.ofInt_eq (cfg.cachedReadSavings * ((lines.length : Int) - 1)) with
      ⟨⟨x, hx⟩, hlt⟩ | ⟨hx, hle⟩
    · rw [millions, hx, hshare]
      exact .inl ⟨⟨_, rfl⟩, by omega⟩
    · rw [millions, hx]
      exact .inr ⟨rfl, by omega, hle⟩

theorem readFigures_cacheableRead? {cfg : SuggestionConfig} {field : String} {lines : List Int}
    {s : Option Suggestion} (h : cacheableRead? cfg field lines = .ok s) :
    s.map Suggestion.readFigures =
      if (2 : Int) ≤ lines.length then
        some ("cache_" ++ field, lines.head?, cfg.cachedReadSavings * (lines.length - 1))
      else none := by
  unfold cacheableRead? at h
  dsimp only at h
  split at h
  case isTrue hcount =>
    cases h
    rw [if_neg (by omega)]
    rfl
  case isFalse hcount =>
    have hlines : lines ≠ [] := by
      intro hnil
      simp [hnil] at hcount
    obtain ⟨saved, -, h⟩ := exists_of_bind_eq_ok h
    obtain ⟨share, -, h⟩ := exists_of_bind_eq_ok h
    cases h
    rw [if_pos (by omega), ← some_getD_head? hlines]
    rfl

/-- The suggestions fail to be made exactly if too much ink would be saved. -/
theorem cacheableReads_outcome (cfg : SuggestionConfig) (ops : List Operation) :
    (∃ found, cacheableReads cfg ops = .ok found) ∧
        (∀ field ∈ fieldsReadAtLeast 2 ops, ¬SavingsTooLarge cfg (readCount ops field)) ∨
      cacheableReads cfg ops = .error .integerTooLarge ∧
        ∃ field ∈ fieldsReadAtLeast 2 ops, SavingsTooLarge cfg (readCount ops field) := by
  have hmem : ∀ field, field ∈ fieldsReadAtLeast 2 ops ↔
      field ∈ fieldsRead ops ∧ 2 ≤ readCount ops field := by
    intro field
    simp [fieldsReadAtLeast]
  rw [cacheableReads, readsByEntity_eq_map]
  rcases mapM_outcome (fun g : String × List Int => cacheableRead?_outcome cfg g.1 g.2)
    ((fieldsRead ops).map fun field => (field, (readsOf ops field).map (·.line)))
    with ⟨⟨all, hall⟩, hsmall⟩ | ⟨herror, g, hg, hcount, hlarge⟩
  · rw [hall]
    refine .inl ⟨⟨_, rfl⟩, ?_⟩
    intro field hfield hlarge
    obtain ⟨hread, hcount⟩ := (hmem field).1 hfield
    have hnot := hsmall _ (List.mem_map_of_mem hread)
    rw [List.length_map] at hnot
    exact hnot ⟨hcount, hlarge⟩
  · rw [herror]
    obtain ⟨field, hread, rfl⟩ := List.mem_map.1 hg
    rw [List.length_map] at hcount hlarge
    exact .inr ⟨rfl, field, (hmem field).2 ⟨hread, hcount⟩, hlarge⟩

theorem readFigures_cacheableReads {cfg : SuggestionConfig} {ops : List Operation}
    {found : List Suggestion} (h : cacheableReads cfg ops = .ok found) :
    found.map Suggestion.readFigures = (fieldsReadAtLeast 2 ops).map fun field =>
      ("cache_" ++ field, firstReadLine ops field,
        cfg.cachedReadSavings * (readCount ops field - 1)) := by
  rw [cacheableReads, readsByEntity_eq_map] at h
  obtain ⟨all, hall, h⟩ := exists_of_bind_eq_ok h
  cases h
  rw [map_filterMap_of_mapM hall fun _ _ => readFigures_cacheableRead?, List.filter_map,
    List.map_map, fieldsReadAtLeast]
  simp only [Function.comp_def, List.length_map, List.head?_map]
  rfl

/-- The dry nib and the suggestion are about one field and tell the same line. -/
def SameRead (d : DryNib) (s : Suggestion) : Prop :=
  ∃ field, d.operation = "repeated storage_read: self." ++ field ∧ s.id = "cache_" ++ field ∧
    d.line = s.line

/-- What the dry nibs tell of fields that are read too often. -/
structure RepeatsTold (dn : DryNibConfig) (ops : List Operation) : Prop where
  dryNibs : (repeatedReads dn ops).map DryNib.readFigures =
    (fieldsReadAtLeast dn.repeatedReadCount ops).map fun field =>
      ("repeated storage_read: self." ++ field, firstReadLine ops field,
        readCount ops field * dn.readWaste, (readCount ops field - 1) * dn.readWaste)
  once : ((repeatedReads dn ops).map (·.operation)).Nodup
  known : "repeated storage_read: self." ++ unknownEntity ∉ (repeatedReads dn ops).map (·.operation)

/-- What the suggestions tell of fields that are read more than once, next to the dry nibs. -/
structure CachesTold (dn : DryNibConfig) (cfg : SuggestionConfig) (ops : List Operation)
    (found : List Suggestion) : Prop where
  suggestions : found.map Suggestion.readFigures = (fieldsReadAtLeast 2 ops).map fun field =>
    ("cache_" ++ field, firstReadLine ops field,
      cfg.cachedReadSavings * (readCount ops field - 1))
  once : (found.map (·.id)).Nodup
  known : "cache_" ++ unknownEntity ∉ found.map (·.id)
  /-- Every dry nib has its suggestion, and they stand in the same order. -/
  matched : ∃ kept : List Suggestion, kept.Sublist found ∧
    List.Forall₂ SameRead (repeatedReads dn ops) kept

theorem repeatsTold (dn : DryNibConfig) (ops : List Operation) : RepeatsTold dn ops := by
  have hfigures := readFigures_repeatedReads dn ops
  have hnames := congrArg (List.map Prod.fst) hfigures
  rw [List.map_map, List.map_map] at hnames
  obtain ⟨honce, hknown⟩ := names_fieldsReadAtLeast "repeated storage_read: self."
    dn.repeatedReadCount ops
  exact ⟨hfigures, hnames ▸ honce, hnames ▸ hknown⟩

theorem cachesTold {dn : DryNibConfig} (hcount : 2 ≤ dn.repeatedReadCount) {cfg : SuggestionConfig}
    {ops : List Operation} {found : List Suggestion} (h : cacheableReads cfg ops = .ok found) :
    CachesTold dn cfg ops found := by
  have hfigures := readFigures_cacheableReads h
  have hnames := congrArg (List.map Prod.fst) hfigures
  rw [List.map_map, List.map_map] at hnames
  obtain ⟨honce, hknown⟩ := names_fieldsReadAtLeast "cache_" 2 ops
  refine ⟨hfigures, hnames ▸ honce, hnames ▸ hknown, ?_⟩
  -- A field that is read too often is read more than once, so the suggestions hold those for them.
  have hfields :
      (fieldsReadAtLeast dn.repeatedReadCount ops).Sublist (fieldsReadAtLeast 2 ops) := by
    apply List.monotone_filter_right
    intro field hfield
    rw [decide_eq_true_eq] at hfield ⊢
    omega
  have hsub := hfields.map fun field =>
    ("cache_" ++ field, firstReadLine ops field, cfg.cachedReadSavings * (readCount ops field - 1))
  rw [← hfigures] at hsub
  obtain ⟨kept, hkept, heq⟩ := List.sublist_map_iff.1 hsub
  refine ⟨kept, hkept, forall₂_of_map_eq ?_ (readFigures_repeatedReads dn ops) heq.symm⟩
  intro d s field hd hs
  simp only [DryNib.readFigures, Suggestion.readFigures, Prod.mk.injEq] at hd hs
  exact ⟨field, hd.1, hs.1, Option.some.inj (hd.2.1.trans hs.2.1.symm)⟩

/-- Dry nibs and suggestions tell the same of the fields that are read more than once, unless an
amount of ink that would be saved is too large to be written. -/
theorem repeatedReads_cached {dn : DryNibConfig} (hcount : 2 ≤ dn.repeatedReadCount)
    (cfg : SuggestionConfig) (ops : List Operation) :
    RepeatsTold dn ops ∧
      ((∃ found, cacheableReads cfg ops = .ok found ∧ CachesTold dn cfg ops found) ∧
          (∀ field ∈ fieldsReadAtLeast 2 ops, ¬SavingsTooLarge cfg (readCount ops field)) ∨
        cacheableReads cfg ops = .error .integerTooLarge ∧
          ∃ field ∈ fieldsReadAtLeast 2 ops, SavingsTooLarge cfg (readCount ops field)) := by
  refine ⟨repeatsTold dn ops, ?_⟩
  rcases cacheableReads_outcome cfg ops with ⟨⟨found, hfound⟩, hsmall⟩ | herror
  · exact .inl ⟨⟨found, hfound, cachesTold hcount hfound⟩, hsmall⟩
  · exact .inr herror

def sampleAccess (category : Category) (line : Int) (field : String) : Operation where
  line := line
  column := 1
  code := ""
  operation := category.name
  entity := field
  ink := 0
  category := category
  severity := .high
  percentage := .zero false

/-- Reads of two fields, with a write and reads that cannot be told between them. -/
def sampleReads : List Operation :=
  [sampleAccess .storageRead 3 "b", sampleAccess .storageRead 4 "a",
    sampleAccess .storageWrite 5 "a", sampleAccess .storageRead 6 "unknown",
    sampleAccess .storageRead 7 "a", sampleAccess .storageRead 8 "unknown",
    sampleAccess .storageRead 9 "b", sampleAccess .storageRead 10 "a"]

theorem repeatedReads_cached_sampleReads :
    2 ≤ DryNibConfig.default.repeatedReadCount ∧ RepeatsTold .default sampleReads ∧
      ∃ found, cacheableReads .default sampleReads = .ok found ∧
        found.map (·.line) = [3, 4] ∧ CachesTold .default .default sampleReads found := by
  have hcount : 2 ≤ DryNibConfig.default.repeatedReadCount := by decide
  obtain ⟨found, hfound, hlines⟩ : ∃ found, cacheableReads .default sampleReads = .ok found ∧
      decide (found.map (·.line) = [3, 4]) = true := exists_of_any_toOption (by decide +kernel)
  obtain ⟨hrepeats, ⟨⟨found', hfound', hcaches⟩, -⟩ | ⟨herror, -⟩⟩ :=
    repeatedReads_cached hcount .default sampleReads
  · rw [hfound] at hfound'
    cases hfound'
    exact ⟨hcount, hrepeats, found, hfound, of_decide_eq_true hlines, hcaches⟩
  · rw [hfound] at herror
    cases herror

/-- Amounts that cannot be written in millions. -/
def boundlessSavings : SuggestionConfig :=
  { SuggestionConfig.default with cachedReadSavings := Int.pow 10 309 }

/-- A field is reported and no suggestion is made for it. -/
theorem cacheableReads_boundlessSavings :
    (repeatedReads .default sampleReads).map (·.line) = [4] ∧
      cacheableReads boundlessSavings sampleReads = .error .integerTooLarge := by
  refine ⟨by decide, ?_⟩
  have hnone : (cacheableReads boundlessSavings sampleReads).toOption.isNone = true := by
    decide +kernel
  rcases cacheableReads_outcome boundlessSavings sampleReads with ⟨⟨found, hfound⟩, -⟩ | ⟨herror, -⟩
  · rw [hfound] at hnone
    cases hnone
  · exact herror

end InkGauge.Analysis
