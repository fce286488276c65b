import InkGauge.Proofs.Analysis.Reads
import InkGauge.Proofs.Cost.Chain

/-!
A write is suspected of holding a read if it costs more than a threshold. What it costs goes by its
name, and of the names that are given to writes just one tells of a read. So with the default costs
and the default threshold the suspects are the writes of that name, and no others.

A suggestion is named after the place of an operation or after a field. Places and fields come up
once each, and the two kinds of name start differently.
-/

namespace InkGauge.Cost

open Text

/-- The name of a write whose text shows a read as well. -/
def embeddedWrite : String := "storage_write (write() + embedded_read)"

/-- The name is that of a write with a read in it exactly if it is a write and tells of a read. -/
def TellsRead (operation : String) (category : Category) : Prop :=
  category = .storageWrite ∧ operation.has "embedded_read" = true ↔ operation = embeddedWrite

instance (operation : String) (category : Category) : Decidable (TellsRead operation category) :=
  inferInstanceAs (Decidable (_ ↔ _))

theorem mem_of_storageRead? {text kind : String} (h : storageRead? text = some kind) :
    kind ∈ ["nested get()", "get()", "direct"] := by
  simp only [storageRead?] at h
  split at h
  · cases h
  split at h
  · cases h
    split <;> simp
  split at h
  · cases h
    simp
  · cases h

theorem mem_of_storageWrite? {text kind : String} (h : storageWrite? text = some kind) :
    kind ∈ ["write() + embedded_read", "write()", "compound_write"] := by
  simp only [storageWrite?] at h
  split at h
  · cases h
  split at h
  · cases h
    split <;> simp
  split at h
  · cases h
    simp
  · cases h

theorem tellsRead_of_mem_tagsOf {text : String} {tag : Tag} (h : tag ∈ tagsOf text) :
    TellsRead tag.operation tag.category := by
  have hreads : ∀ kind ∈ ["nested get()", "get()", "direct"],
      TellsRead ("storage_read (" ++ kind ++ ")") .storageRead := by decide
  have hwrites : ∀ kind ∈ ["write() + embedded_read", "write()", "compound_write"],
      TellsRead ("storage_write (" ++ kind ++ ")") .storageWrite := by decide
  have hrows : ∀ row ∈ patternTags, TellsRead row.2.operation row.2.category := by decide
  rcases mem_tagsOf_iff.1 h with ⟨kind, hkind, rfl⟩ | ⟨kind, hkind, rfl⟩ | ⟨row, hrow, -, rfl⟩
  · exact hreads kind (mem_of_storageRead? hkind)
  · exact hwrites kind (mem_of_storageWrite? hkind)
  · exact hrows row hrow

/-- What is found in a text has such names. -/
theorem ToldIn.tellsRead {text : String} {ops : List Operation} (h : ToldIn text ops) :
    ∀ op ∈ ops, TellsRead op.operation op.category := by
  have huntold : ∀ row ∈ untold, TellsRead row.1 row.2 := by decide
  intro op hop
  rcases h op hop with hrow | ⟨code, -, tag, htag, hname, hcategory⟩
  · exact huntold _ hrow
  · rw [← hname, ← hcategory]
    exact tellsRead_of_mem_tagsOf htag

end InkGauge.Cost

namespace InkGauge.Analysis

open Contract Cost Number Settings

/-- A write that costs more than the threshold. -/
def Suspected (cfg : SuggestionConfig) (op : Operation) : Prop :=
  op.category = .storageWrite ∧ cfg.redundantReadThreshold < op.ink

instance (cfg : SuggestionConfig) : DecidablePred (Suspected cfg) :=
  fun _ => inferInstanceAs (Decidable (_ ∧ _))

theorem not_suspected_iff {cfg : SuggestionConfig} {op : Operation} :
    ¬Suspected cfg op ↔
      (op.category ≠ .storageWrite || decide (op.ink ≤ cfg.redundantReadThreshold)) = true := by
  simp [Suspected, imp_iff_not_or]

/-- The ink that is saved by taking a read out is an integer beyond the doubles. -/
def SeparateSavingsTooLarge (cfg : SuggestionConfig) : Prop :=
  doubleLimit ≤ cfg.redundantReadSavings.natAbs

theorem redundantRead?_outcome (cfg : SuggestionConfig) (index : Nat) (op : Operation) :
    (∃ s, redundantRead? cfg index op = .ok s) ∧
        ¬(Suspected cfg op ∧ SeparateSavingsTooLarge cfg) ∨
      redundantRead? cfg index op = .error .integerTooLarge ∧
        Suspected cfg op ∧ SeparateSavingsTooLarge cfg := by
  unfold redundantRead?
  by_cases hsuspected : Suspected cfg op
  · rw [if_neg fun h => not_suspected_iff.2 h hsuspected]
    rcases Binary64.ofInt_eq cfg.redundantReadSavings with ⟨⟨x, hx⟩, hlt⟩ | ⟨hx, hle⟩
    · rw [millions, hx]
      exact .inl ⟨⟨_, rfl⟩, fun h => Nat.not_le_of_lt hlt h.2⟩
    · rw [millions, hx]
      exact .inr ⟨rfl, hsuspected, hle⟩
  · rw [if_pos (not_suspected_iff.1 hsuspected)]
    exact .inl ⟨⟨none, rfl⟩, fun h => hsuspected h.1⟩

theorem readFigures_redundantRead? {cfg : SuggestionConfig} {index : Nat} {op : Operation}
    {s : Option Suggestion} (h : redundantRead? cfg index op = .ok s) :
    s.map Suggestion.readFigures =
      if Suspected cfg op then
        some ("redundant_read_" ++ natText index, some op.line, cfg.redundantReadSavings)
      else none := by
  unfold redundantRead? at h
  by_cases hsuspected : Suspected cfg op
  · rw [if_neg fun h => not_suspected_iff.2 h hsuspected] at h
    obtain ⟨saved, -, h⟩ := exists_of_bind_eq_ok h
    cases h
    rw [if_pos hsuspected]
    rfl
  · rw [if_pos (not_suspected_iff.1 hsuspected)] at h
    cases h
    rw [if_neg hsuspected]
    rfl

theorem redundantReads_outcome (cfg : SuggestionConfig) (ops : List Operation) :
    (∃ found, redundantReads cfg ops = .ok found) ∧
        ¬((∃ op ∈ ops, Suspected cfg op) ∧ SeparateSavingsTooLarge cfg) ∨
      redundantReads cfg ops = .error .integerTooLarge ∧
        (∃ op ∈ ops, Suspected cfg op) ∧ SeparateSavingsTooLarge cfg := by
  rw [redundantReads]
  rcases mapM_outcome (fun x : Operation × Nat => redundantRead?_outcome cfg x.2 x.1) ops.zipIdx
    with ⟨⟨all, hall⟩, hsmall⟩ | ⟨herror, x, hx, hsuspected, hlarge⟩
  · rw [hall]
    refine .inl ⟨⟨_, rfl⟩, ?_⟩
    rintro ⟨⟨op, hop, hsuspected⟩, hlarge⟩
    obtain ⟨i, hi, rfl⟩ := List.getElem_of_mem hop
    exact hsmall _ (List.mk_mem_zipIdx_iff_getElem?.2 (List.getElem?_eq_getElem hi))
      ⟨hsuspected, hlarge⟩
  · rw [herror]
    exact .inr ⟨rfl, ⟨x.1, List.fst_mem_of_mem_zipIdx hx, hsuspected⟩, hlarge⟩

theorem readFigures_redundantReads {cfg : SuggestionConfig} {ops : List Operation}
    {found : List Suggestion} (h : redundantReads cfg ops = .ok found) :
    found.map Suggestion.readFigures =
      (ops.zipIdx.filter fun x => decide (Suspected cfg x.1)).map fun x =>
        ("redundant_read_" ++ natText x.2, some x.1.line, cfg.redundantReadSavings) := by
  obtain ⟨all, hall, h⟩ := exists_of_bind_eq_ok h
  cases h
  exact map_filterMap_of_mapM hall fun _ _ => readFigures_redundantRead?

theorem natText_injective : Function.Injective natText := by
  intro m n h
  rw [← Probe.natOfDigits_natText m, h, Probe.natOfDigits_natText]

theorem opens_redundantRead (i : Nat) :
    ("redundant_read_" ++ natText i).opens "redundant_read_" = true := by
  rw [String.opens, Text.startsWith_iff, String.toList_append]
  exact List.prefix_append _ _

theorem opens_cache (field : String) : ("cache_" ++ field).opens "redundant_read_" = false := by
  rw [String.opens, String.toList_append]
  rfl

/-- Suggestions with names of one form all start like that form. -/
theorem opens_of_ids {α : Type} {found : List Suggestion} {xs : List α} {name : α → String}
    (h : found.map (·.id) = xs.map name) {starts : Bool}
    (hname : ∀ x, (name x).opens "redundant_read_" = starts) :
    ∀ s ∈ found, s.id.opens "redundant_read_" = starts := by
  intro s hs
  have hid : s.id ∈ found.map (·.id) := List.mem_map_of_mem hs
  rw [h] at hid
  obtain ⟨x, -, hx⟩ := List.mem_map.1 hid
  rw [← hx]
  exact hname x

theorem names_redundantReads {cfg : SuggestionConfig} {ops : List Operation}
    {found : List Suggestion} (h : redundantReads cfg ops = .ok found) :
    (found.map (·.id)).Nodup ∧ ∀ s ∈ found, s.id.opens "redundant_read_" = true := by
  have hnames : found.map (·.id) =
      ((ops.zipIdx.filter fun x => decide (Suspected cfg x.1)).map Prod.snd).map
        ("redundant_read_" ++ natText ·) := by
    have hfst := congrArg (List.map Prod.fst) (readFigures_redundantReads h)
    rw [List.map_map, List.map_map] at hfst
    rw [List.map_map]
    exact hfst
  constructor
  · rw [hnames]
    apply List.Nodup.map
    · intro i j hij
      exact natText_injective ((String.append_right_inj _).1 hij)
    · have hplaces : (ops.zipIdx.map Prod.snd).Nodup := by
        rw [List.zipIdx_map_snd]
        exact List.nodup_range'
      exact hplaces.sublist (List.filter_sublist.map _)
  · exact opens_of_ids hnames opens_redundantRead

theorem names_cacheableReads {cfg : SuggestionConfig} {ops : List Operation}
    {found : List Suggestion} (h : cacheableReads cfg ops = .ok found) :
    (found.map (·.id)).Nodup ∧ ∀ s ∈ found, s.id.opens "redundant_read_" = false := by
  have hnames : found.map (·.id) = (fieldsReadAtLeast 2 ops).map ("cache_" ++ ·) := by
    have hfst := congrArg (List.map Prod.fst) (readFigures_cacheableReads h)
    rwa [List.map_map, List.map_map] at hfst
  constructor
  · rw [hnames]
    exact (names_fieldsReadAtLeast "cache_" 2 ops).1
  · exact opens_of_ids hnames opens_cache

/-- An amount of ink that would be saved is too large to be written. -/
def AnySavingsTooLarge (cfg : SuggestionConfig) (ops : List Operation) : Prop :=
  (∃ op ∈ ops, Suspected cfg op) ∧ SeparateSavingsTooLarge cfg ∨
    ∃ field ∈ fieldsReadAtLeast 2 ops, SavingsTooLarge cfg (readCount ops field)

theorem suggestions_outcome (cfg : SuggestionConfig) (ops : List Operation) :
    (∃ found, suggestions cfg ops = .ok found) ∧ ¬AnySavingsTooLarge cfg ops ∨
      suggestions cfg ops = .error .integerTooLarge ∧ AnySavingsTooLarge cfg ops := by
  rw [suggestions]
  rcases redundantReads_outcome cfg ops with ⟨⟨redundant, hredundant⟩, hsmall⟩ | ⟨herror, hlarge⟩
  · rw [hredundant]
    rcases cacheableReads_outcome cfg ops with ⟨⟨cached, hcached⟩, hsmall'⟩ | ⟨herror, hlarge⟩
    · rw [hcached]
      refine .inl ⟨⟨_, rfl⟩, ?_⟩
      rintro (hlarge | ⟨field, hfield, hlarge⟩)
      · exact hsmall hlarge
      · exact hsmall' field hfield hlarge
    · rw [herror]
      exact .inr ⟨rfl, .inr hlarge⟩
  · rw [herror]
    exact .inr ⟨rfl, .inl hlarge⟩

theorem exists_of_suggestions {cfg : SuggestionConfig} {ops : List Operation}
    {found : List Suggestion} (h : suggestions cfg ops = .ok found) :
    ∃ redundant cached, redundantReads cfg ops = .ok redundant ∧
      cacheableReads cfg ops = .ok cached ∧ found = redundant ++ cached := by
  obtain ⟨redundant, hredundant, h⟩ := exists_of_bind_eq_ok h
  obtain ⟨cached, hcached, h⟩ := exists_of_bind_eq_ok h
  cases h
  exact ⟨redundant, cached, hredundant, hcached, rfl⟩

theorem nodup_ids_suggestions {cfg : SuggestionConfig} {ops : List Operation}
    {found : List Suggestion} (h : suggestions cfg ops = .ok found) :
    (found.map (·.id)).Nodup := by
  obtain ⟨redundant, cached, hredundant, hcached, rfl⟩ := exists_of_suggestions h
  obtain ⟨honce, hopens⟩ := names_redundantReads hredundant
  obtain ⟨honce', hopens'⟩ := names_cacheableReads hcached
  rw [List.map_append]
  refine List.nodup_append.2 ⟨honce, honce', ?_⟩
  intro a ha b hb hab
  obtain ⟨s, hs, rfl⟩ := List.mem_map.1 ha
  obtain ⟨s', hs', rfl⟩ := List.mem_map.1 hb
  have hopen := hopens s hs
  rw [hab, hopens' s' hs'] at hopen
  cases hopen

/-- The suggestions that are named after a place are those to take a read out of a write. -/
theorem filter_suggestions {cfg : SuggestionConfig} {ops : List Operation}
    {found : List Suggestion} (h : suggestions cfg ops = .ok found) :
    redundantReads cfg ops = .ok (found.filter (·.id.opens "redundant_read_")) := by
  obtain ⟨redundant, cached, hredundant, hcached, rfl⟩ := exists_of_suggestions h
  have hall : redundant.filter (·.id.opens "redundant_read_") = redundant :=
    List.filter_eq_self.2 (names_redundantReads hredundant).2
  have hnone : cached.filter (·.id.opens "redundant_read_") = [] :=
    List.filter_eq_nil_iff.2 fun s hs => by simp [(names_cacheableReads hcached).2 s hs]
  rw [List.filter_append, hall, hnone, List.append_nil, hredundant]

/-- A write is above the default threshold exactly if its name tells of a read. -/
theorem threshold_lt_cost_iff (operation : String) :
    SuggestionConfig.default.redundantReadThreshold < Model.default.cost operation .storageWrite ↔
      operation.has "embedded_read" = true := by
  rw [Model.cost]
  split
  case isTrue hread => exact iff_of_true (by decide) hread
  case isFalse hread => exact iff_of_false (by decide) hread

/-- Of the operations in a report with the default figures, just the writes that are said to hold a
read are suspected. -/
theorem Reports.suspected_iff {e : EntryPoint} {r : FunctionReport} (h : Reports .default e r)
    {op : Operation} (hop : op ∈ r.operations) :
    Suspected .default op ↔ op.operation = embeddedWrite := by
  obtain ⟨b, x, hbody, -, hfound⟩ := h.found op hop
  obtain ⟨op', hop', share, rfl⟩ := exists_of_mem_withShares h.operations hop
  rw [hbody] at hop'
  have htells : TellsRead op'.operation op'.category :=
    (toldIn_ofBlock Config.default.costModel b).tellsRead op' hop'
  refine Iff.trans (and_congr_right fun hwrite => ?_) htells
  rw [hfound.ink, hwrite]
  exact threshold_lt_cost_iff op'.operation

/-- No two suggestions have the same name. With the default configuration there is one for each
write that holds a read, and it tells the place of that write among the operations, its line and the
fixed saving; no other operation has one. -/
theorem suggestions_complete :
    (∀ cfg ops, (∃ found, suggestions cfg ops = .ok found ∧ (found.map (·.id)).Nodup) ∧
          ¬AnySavingsTooLarge cfg ops ∨
        suggestions cfg ops = .error .integerTooLarge ∧ AnySavingsTooLarge cfg ops) ∧
      ∀ source file target report, analyze .default source file target = .ok report →
        ∀ f ∈ report.functions,
          (f.suggestions.filter (·.id.opens "redundant_read_")).map Suggestion.readFigures =
            (f.operations.zipIdx.filter fun x => decide (x.1.operation = embeddedWrite)).map
              fun x => ("redundant_read_" ++ natText x.2, some x.1.line, 1200000) := by
  constructor
  · intro cfg ops
    rcases suggestions_outcome cfg ops with ⟨⟨found, hfound⟩, hsmall⟩ | herror
    · exact .inl ⟨⟨found, hfound, nodup_ids_suggestions hfound⟩, hsmall⟩
    · exact .inr herror
  · intro source file target report h f hf
    obtain ⟨tree, -, hfunctions⟩ := exists_of_analyze h
    obtain ⟨e, -, he⟩ := hfunctions f hf
    have hreports := reports_of_analyzeFunction he
    rw [readFigures_redundantReads (filter_suggestions hreports.suggestions)]
    congr 1
    apply List.filter_congr
    intro x hx
    rw [decide_eq_decide]
    exact hreports.suspected_iff (List.fst_mem_of_mem_zipIdx hx)

/-- A contract with a write that holds a read. -/
def embeddedSource : List Char :=
  "impl A\x7bpub fn f(&self)\x7b\nself.m.set(self.m.get())\x7d\x7d".toList

/-- The writes that hold a read: their places among the operations, and their lines. -/
def embeddedPlaces (f : FunctionReport) : List (Nat × Int) :=
  (f.operations.zipIdx.filter fun x => decide (x.1.operation = embeddedWrite)).map
    fun x => (x.2, x.1.line)

theorem suggestions_complete_embeddedSource :
    ∃ report, analyze .default embeddedSource "" none = .ok report ∧ ∃ f ∈ report.functions,
      embeddedPlaces f = [(1, 2)] ∧ 5 < f.operations.length ∧
        (f.suggestions.filter (·.id.opens "redundant_read_")).map Suggestion.readFigures =
          [("redundant_read_1", some 2, 1200000)] := by
  obtain ⟨report, hreport, hsome⟩ : ∃ report, analyze .default embeddedSource "" none = .ok report ∧
      (report.functions.any fun f => decide (embeddedPlaces f = [(1, 2)] ∧ 5 < f.operations.length))
        = true := exists_of_any_toOption (by decide +kernel)
  obtain ⟨f, hf, hplaces⟩ := List.any_eq_true.1 hsome
  obtain ⟨hplaces, hmany⟩ := of_decide_eq_true hplaces
  refine ⟨report, hreport, f, hf, hplaces, hmany, ?_⟩
  have hfigures := congrArg (List.map fun x : Nat × Int =>
    ("redundant_read_" ++ natText x.1, some x.2, (1200000 : Int))) hplaces
  rw [embeddedPlaces, List.map_map] at hfigures
  rw [suggestions_complete.2 embeddedSource "" none report hreport f hf]
  exact hfigures

end InkGauge.Analysis
