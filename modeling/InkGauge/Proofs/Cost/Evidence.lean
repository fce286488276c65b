import InkGauge.Cost.Evidence

/-!
All patterns but one are looked for anywhere in a text, so that a text shows whatever a piece of it
shows. Only a bare field counts as read if it is the whole text: it stands first and nothing is
called.
-/

namespace InkGauge.Text

/-- The first text stands somewhere in the second. -/
def Within (inner outer : String) : Prop := inner.toList <:+: outer.toList

namespace Within

variable {a b c : String}

theorem refl (a : String) : Within a a := List.infix_refl _

theorem trans (hab : Within a b) (hbc : Within b c) : Within a c := List.IsInfix.trans hab hbc

theorem left (h : Within a b) (c : String) : Within a (b ++ c) := by
  rw [Within, String.toList_append]
  exact List.infix_append_of_infix_left h

theorem right (h : Within a b) (c : String) : Within a (c ++ b) := by
  rw [Within, String.toList_append]
  exact List.infix_append_of_infix_right h

theorem has (h : Within a b) {needle : String} (hneedle : a.has needle = true) :
    b.has needle = true :=
  (occursIn_iff _ _).2 (((occursIn_iff _ _).1 hneedle).trans h)

theorem intercalate {parts : List String} (h : a ∈ parts) (separator : String) :
    Within a (separator.intercalate parts) := by
  induction parts with
  | nil => cases h
  | cons part parts ih =>
    cases parts with
    | nil =>
      rw [List.mem_singleton.1 h, String.intercalate_singleton]
      exact refl part
    | cons next parts =>
      rw [String.intercalate_cons_cons]
      rcases List.mem_cons.1 h with rfl | h
      · exact ((refl a).left _).left _
      · exact (ih h).right _

end Within

end InkGauge.Text

namespace InkGauge.Cost

open Text

theorem hasAny_iff {text : String} {patterns : List String} :
    hasAny text patterns = true ↔ ∃ p ∈ patterns, text.has p = true :=
  List.any_eq_true

theorem hasAny_of_subset {text : String} {ps qs : List String} (hsub : ps ⊆ qs)
    (h : hasAny text ps = true) : hasAny text qs = true := by
  obtain ⟨p, hp, hhas⟩ := hasAny_iff.1 h
  exact hasAny_iff.2 ⟨p, hsub hp, hhas⟩

theorem hasAny_of_within {inner outer : String} (hin : Within inner outer) {patterns : List String}
    (h : hasAny inner patterns = true) : hasAny outer patterns = true := by
  obtain ⟨p, hp, hhas⟩ := hasAny_iff.1 h
  exact hasAny_iff.2 ⟨p, hp, hin.has hhas⟩

theorem isSome_storageRead? {text : String} (hself : text.has "self." = true)
    (h : hasAny text readCalls = true) : ∃ kind, storageRead? text = some kind := by
  rw [storageRead?, hself, h]
  exact ⟨_, rfl⟩

theorem isSome_storageWrite? {text : String} (hself : text.has "self." = true)
    (h : hasAny text writeCalls = true ∨ hasAny text compoundWrites = true) :
    ∃ kind, storageWrite? text = some kind := by
  rw [storageWrite?, hself]
  rcases h with hwrite | hcompound
  · rw [hwrite]
    exact ⟨_, rfl⟩
  · rw [hcompound]
    cases hasAny text writeCalls with
    | true => exact ⟨_, rfl⟩
    | false => exact ⟨_, rfl⟩

/-- A read that is not of a bare field is a lookup. -/
theorem storageRead?_eq_some {text kind : String} (h : storageRead? text = some kind)
    (hkind : kind ≠ "direct") : text.has "self." = true ∧ hasAny text readCalls = true := by
  simp only [storageRead?] at h
  split at h
  · cases h
  · rename_i hself
    split at h
    · rename_i hread
      exact ⟨by simpa using hself, hread⟩
    · split at h
      · cases h
        contradiction
      · cases h

theorem storageWrite?_eq_some {text kind : String} (h : storageWrite? text = some kind) :
    text.has "self." = true ∧
      (hasAny text writeCalls = true ∨ hasAny text compoundWrites = true) := by
  simp only [storageWrite?] at h
  split at h
  · cases h
  · rename_i hself
    refine ⟨by simpa using hself, ?_⟩
    split at h
    · rename_i hwrite
      exact .inl hwrite
    · split at h
      · rename_i hcompound
        exact .inr hcompound
      · cases h

/-- The tags that go by patterns alone. -/
def patternTags : List (List String × Tag) :=
  [(senderPatterns, ⟨"msg::sender()", .evmContext, .low⟩),
    (originPatterns, ⟨"tx::origin()", .evmContext, .low⟩),
    (valuePatterns, ⟨"msg::value()", .evmContext, .low⟩),
    (blockPatterns, ⟨"block_info", .evmContext, .low⟩),
    (eventPatterns, ⟨"event_emit", .event, .medium⟩),
    (callPatterns, ⟨"external_call", .externalCall, .high⟩),
    (cryptoPatterns, ⟨"crypto_hash", .crypto, .medium⟩)]

/-- A text shows a read, a write or one of the patterns. -/
theorem mem_tagsOf_iff {text : String} {tag : Tag} : tag ∈ tagsOf text ↔
    (∃ kind, storageRead? text = some kind ∧
        tag = ⟨"storage_read (" ++ kind ++ ")", .storageRead, .high⟩) ∨
      (∃ kind, storageWrite? text = some kind ∧
        tag = ⟨"storage_write (" ++ kind ++ ")", .storageWrite, .high⟩) ∨
      ∃ row ∈ patternTags, hasAny text row.1 = true ∧ tag = row.2 := by
  have htags : tagsOf text = (storageRead? text).toList.map
        (fun kind => ⟨"storage_read (" ++ kind ++ ")", .storageRead, .high⟩)
      ++ (storageWrite? text).toList.map
        (fun kind => ⟨"storage_write (" ++ kind ++ ")", .storageWrite, .high⟩)
      ++ patternTags.flatMap fun (patterns, tag) => if hasAny text patterns then [tag] else [] := by
    simp [tagsOf, patternTags]
  rw [htags]
  simp only [List.mem_append, List.mem_map, Option.mem_toList, List.mem_flatMap,
    List.mem_ite_nil_right, List.mem_singleton, or_assoc, eq_comm (b := tag)]

/-- What a text shows, a longer text shows in the same category, unless it is a bare field. -/
theorem exists_tag_of_within {inner outer : String} (hin : Within inner outer) {tag : Tag}
    (htag : tag ∈ tagsOf inner) :
    tag = ⟨"storage_read (direct)", .storageRead, .high⟩ ∨
      ∃ tag' ∈ tagsOf outer, tag'.category = tag.category := by
  rcases mem_tagsOf_iff.1 htag with ⟨kind, hkind, rfl⟩ | ⟨kind, hkind, rfl⟩ | ⟨row, hrow, hhas, rfl⟩
  · by_cases hdirect : kind = "direct"
    · subst hdirect
      exact .inl rfl
    · obtain ⟨hself, hread⟩ := storageRead?_eq_some hkind hdirect
      obtain ⟨kind', hkind'⟩ := isSome_storageRead? (hin.has hself) (hasAny_of_within hin hread)
      exact .inr ⟨_, mem_tagsOf_iff.2 (.inl ⟨kind', hkind', rfl⟩), rfl⟩
  · obtain ⟨hself, hwrite⟩ := storageWrite?_eq_some hkind
    obtain ⟨kind', hkind'⟩ := isSome_storageWrite? (hin.has hself)
      (hwrite.imp (hasAny_of_within hin) (hasAny_of_within hin))
    exact .inr ⟨_, mem_tagsOf_iff.2 (.inr (.inl ⟨kind', hkind', rfl⟩)), rfl⟩
  · have hhas' := hasAny_of_within hin hhas
    exact .inr ⟨row.2, mem_tagsOf_iff.2 (.inr (.inr ⟨row, hrow, hhas', rfl⟩)), rfl⟩

end InkGauge.Cost
