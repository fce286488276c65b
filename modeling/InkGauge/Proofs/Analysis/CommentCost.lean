import InkGauge.Proofs.Analysis.Columns
import InkGauge.Proofs.Contract.Commented

/-!
The report on a contract does not change when a block comment is put in, as long as the comment gets
into no text that is kept. Beside the tree a report owes something to the text: the words that mark
overrides are looked for in all of it.
-/

namespace InkGauge.Peg.Insertion

/-- Does the place lie inside a word? -/
def splitsWord (i : Insertion) : Bool :=
  i.before.getLast?.any Text.isIdentPart && i.behind.head?.any Text.isIdentPart

end InkGauge.Peg.Insertion

namespace InkGauge.Analysis

open Contract Settings Text
open Peg (Insertion)

/-- A word in two texts put together is in one of them, unless the seam is inside a word. -/
theorem infix_of_word {w a b : List Char} (hw : ∀ c ∈ w, isIdentPart c = true)
    (hseam : (a.getLast?.any isIdentPart && b.head?.any isIdentPart) = false) (h : w <:+: a ++ b) :
    w <:+: a ∨ w <:+: b := by
  obtain ⟨s, t, hst⟩ := h
  rcases List.append_eq_append_iff.1 hst with ⟨u, ha, -⟩ | ⟨u, hsw, hb⟩
  · exact .inl ⟨s, u, ha.symm⟩
  · rcases List.append_eq_append_iff.1 hsw with ⟨v, ha, hv⟩ | ⟨v, -, hu⟩
    · rcases v.eq_nil_or_concat with rfl | ⟨v, c, rfl⟩
      · exact .inr ⟨[], t, by simp [hb, hv]⟩
      · cases u with
        | nil => exact .inl ⟨s, [], by simp [ha, hv]⟩
        | cons d u =>
          have hc := hw c (by simp [hv])
          have hd := hw d (by simp [hv])
          simp [ha, hb, hc, hd] at hseam
    · exact .inr ⟨v, t, by rw [hb, hu]⟩

theorem marks_of_blockComment {s : List Char} (h : IsBlockComment s) :
    s.head? = some '/' ∧ s.getLast? = some '/' := by
  obtain ⟨u, rfl, htail⟩ := h
  obtain ⟨v, rfl, -⟩ := htail.reads
  have hclose : '/' :: '*' :: (v ++ ['*', '/']) = '/' :: '*' :: v ++ ['*'] ++ ['/'] := by simp
  rw [hclose, List.getLast?_concat]
  exact ⟨rfl, rfl⟩

/-- A word that is not in the comment is in the text with the comment if it is in the text. -/
theorem occursIn_commented {i : Insertion} (hcomment : IsBlockComment i.added)
    (hsplit : i.splitsWord = false) {w : List Char} (hw : ∀ c ∈ w, isIdentPart c = true)
    (hnone : occursIn w i.added = false) :
    occursIn w (i.before ++ i.behind) = occursIn w (i.before ++ (i.added ++ i.behind)) := by
  obtain ⟨hfirst, hlast⟩ := marks_of_blockComment hcomment
  have hne : i.added ≠ [] := by
    rintro he
    simp [he] at hfirst
  rw [Bool.eq_iff_iff, occursIn_iff, occursIn_iff]
  constructor
  · intro h
    rcases infix_of_word hw hsplit h with h | h
    · exact h.trans (List.prefix_append _ _).isInfix
    · exact h.trans ((List.suffix_append i.added _).trans (List.suffix_append i.before _)).isInfix
  · intro h
    have hopen : ((i.added ++ i.behind).head?.any isIdentPart) = false := by
      simp [List.head?_append, hfirst]
      decide
    have hclose : (i.added.getLast?.any isIdentPart) = false := by
      rw [hlast]
      decide
    rcases infix_of_word hw (by rw [hopen, Bool.and_false]) h with h | h
    · exact h.trans (List.prefix_append _ _).isInfix
    · rcases infix_of_word hw (by rw [hclose, Bool.false_and]) h with h | h
      · rw [(occursIn_iff _ _).2 h] at hnone
        cases hnone
      · exact h.trans (List.suffix_append _ _).isInfix

/-- A comment that fits in changes nothing in the report but columns. -/
theorem analyze_commented {i : Insertion} (hcomment : IsBlockComment i.added)
    (hline : '\n' ∉ i.added) (hmarker : occursIn "assert_overrides".toList i.added = false)
    (hfits : fits i = true) (hsplit : i.splitsWord = false) {config : Config} {file : String}
    {target : Option String} {r : ContractReport}
    (h : analyze config (i.before ++ i.behind) file target = .ok r) :
    ∃ r', analyze config (i.before ++ (i.added ++ i.behind)) file target = .ok r' ∧
      r'.functions.map FunctionReport.uncolumned = r.functions.map FunctionReport.uncolumned := by
  have hmarkers : ∀ m ∈ overrideMarkers, occursIn m.toList (i.before ++ i.behind) =
      occursIn m.toList (i.before ++ (i.added ++ i.behind)) := by
    intro m hm
    have hword : ∀ c ∈ m.toList, isIdentPart c = true := by
      simp only [overrideMarkers, List.mem_cons, List.not_mem_nil, or_false] at hm
      rcases hm with rfl | rfl <;> decide
    have hlong : "assert_overrides".toList <:+: m.toList := by
      simp only [overrideMarkers, List.mem_cons, List.not_mem_nil, or_false] at hm
      rw [← occursIn_iff]
      rcases hm with rfl | rfl <;> decide
    refine occursIn_commented hcomment hsplit hword (Bool.eq_false_iff.2 fun hin => ?_)
    rw [(occursIn_iff _ _).2 (hlong.trans ((occursIn_iff _ _).1 hin))] at hmarker
    cases hmarker
  unfold analyze at h ⊢
  cases hparse : parse (i.before ++ i.behind) file with
  | error fault =>
    rw [hparse] at h
    cases h
  | ok tree =>
    obtain ⟨tree', hparse', hitems⟩ := parse_commented hcomment hline hfits hparse
    obtain ⟨-, -, -, htext, -⟩ := parse_eq_ok_iff.1 hparse
    obtain ⟨-, -, -, htext', -⟩ := parse_eq_ok_iff.1 hparse'
    rw [hparse] at h
    rw [hparse']
    have hshifted (s : Span) : (Grammar.shifted i s).line = s.line := rfl
    have hrough (s : Span) : (Grammar.rough s).line = s.line := rfl
    refine analyzeTree_ok hshifted hrough hitems ?_ h
    rw [htext, htext']
    exact hmarkers

/-- Is there a report on the text, and does it pass a check? -/
def reportsTo (text : List Char) (check : ContractReport → Bool) : Bool :=
  match analyze .default text "" none with
  | .ok r => check r
  | .error _ => false

theorem exists_of_reportsTo {text : List Char} {check : ContractReport → Bool}
    (h : reportsTo text check = true) :
    ∃ r, analyze .default text "" none = .ok r ∧ check r = true := by
  unfold reportsTo at h
  split at h
  · rename_i r hr
    exact ⟨r, hr, h⟩
  · cases h

/-- A comment that names a hash function, among the arguments of a call. -/
def commentedRead : Insertion where
  before := "impl A\x7bpub fn f(&self)\x7bself.m.get(".toList
  added := "/* sha256 */".toList
  behind := "k);\x7d\x7d".toList

theorem isBlockComment_commentedRead : IsBlockComment commentedRead.added := by
  refine ⟨_, rfl, ?_⟩
  repeat refine .char (by decide) (by decide) ?_
  exact .close

/-- Is every operation of the report a storage read, and is there one? -/
def onlyReads (r : ContractReport) : Bool :=
  r.functions.any (!·.operations.isEmpty) &&
    r.functions.all (·.operations.all (·.category == .storageRead))

theorem analyze_commented_commentedRead :
    IsBlockComment commentedRead.added ∧ '\n' ∉ commentedRead.added ∧
      occursIn "assert_overrides".toList commentedRead.added = false ∧
      fits commentedRead = true ∧ commentedRead.splitsWord = false ∧
      ∃ r r', analyze .default (commentedRead.before ++ commentedRead.behind) "" none = .ok r ∧
        analyze .default (commentedRead.before ++ (commentedRead.added ++ commentedRead.behind)) ""
          none = .ok r' ∧
        onlyReads r = true ∧
        r'.functions.map FunctionReport.uncolumned = r.functions.map FunctionReport.uncolumned := by
  have hline : '\n' ∉ commentedRead.added := by decide
  have hmarker : occursIn "assert_overrides".toList commentedRead.added = false := by decide
  have hfits : fits commentedRead = true := by decide +kernel
  have hsplit : commentedRead.splitsWord = false := by decide
  have hreport : reportsTo (commentedRead.before ++ commentedRead.behind) onlyReads = true := by
    decide +kernel
  obtain ⟨r, h, hreads⟩ := exists_of_reportsTo hreport
  obtain ⟨r', h', hsame⟩ :=
    analyze_commented isBlockComment_commentedRead hline hmarker hfits hsplit h
  exact ⟨isBlockComment_commentedRead, hline, hmarker, hfits, hsplit, r, r', h, h', hreads, hsame⟩

end InkGauge.Analysis
