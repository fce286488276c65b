import InkGauge.Proofs.Contract.Fault
import InkGauge.Proofs.Text.Lines

/-!
A fault is numbered by line feeds and its line is looked up among the lines between boundaries.
Where the two disagree an earlier line is quoted; a boundary inside the line cuts it short.
-/

namespace InkGauge.Text

/-- What is put behind a text is trimmed away if it is blank, and only then. -/
theorem trimRight_append_iff (s t : List Char) :
    trimRight s = trimRight (s ++ t) ↔ ∀ c ∈ t, isBlank c = true := by
  constructor
  · intro heq c hc
    by_contra hblank
    obtain ⟨i, hi⟩ := List.mem_iff_getElem?.1 hc
    have hs : (s ++ t)[s.length + i]? = some c := by
      rw [List.getElem?_append_right (by omega), Nat.add_sub_cancel_left, hi]
    have hlt := Contract.lt_length_trimRight hs (Bool.eq_false_iff.2 hblank)
    have hle := (Contract.trimRight_isPrefix s).length_le
    rw [heq] at hle
    omega
  · intro hblank
    have hnil : t.reverse.dropWhile isBlank = [] :=
      List.dropWhile_eq_nil_iff.2 fun c hc => hblank c (List.mem_reverse.1 hc)
    rw [trimRight, trimRight, List.reverse_append, List.dropWhile_append, hnil]
    rfl

end InkGauge.Text

namespace InkGauge.Contract

open Text

/-- The line that is quoted with a fault. It is the line of the fault, without the blanks at its
end, in a text in which only line feeds end lines. In other texts it is that line cut at its first
boundary, as long as no boundary before the line is anything but a line feed; else it is a line
that ends before. -/
theorem parse_sourceLine {text : List Char} {filename : String} {f : Fault}
    (h : parse text filename = .error f) :
    f.diagnostic.location.line = lineAt text f.place.offset ∧
    (feedsOnly text = true →
      f.diagnostic.sourceLine = String.ofList (trimRight (wholeLine text f.place.offset))) ∧
    if feedsOnly (beforeLine text f.place.offset) then
      f.diagnostic.sourceLine = String.ofList
        (trimRight ((wholeLine text f.place.offset).takeWhile (!isLineBoundary ·))) ∧
      (f.diagnostic.sourceLine = String.ofList (trimRight (wholeLine text f.place.offset)) ↔
        ∀ c ∈ (wholeLine text f.place.offset).dropWhile (!isLineBoundary ·), isBlank c = true)
    else ∃ line,
      (lines (beforeLine text f.place.offset))[lineAt text f.place.offset - 1]? = some line ∧
      f.diagnostic.sourceLine = String.ofList (trimRight line) := by
  obtain ⟨-, hplace, -, -⟩ := fault_at h
  obtain ⟨-, -, -, heq⟩ := parse_eq_error h
  have htext : f.text = text := by rw [heq]
  have hquoted : f.diagnostic.sourceLine = String.ofList
      (trimRight ((lines text)[(text.take f.place.offset).count '\n']?.getD [])) := by
    change lineText f.text f.place.line = _
    rw [lineText, htext, hplace.line, lineAt, Nat.add_sub_cancel_left]
  have hwhole := trimRight_append_iff
    ((wholeLine text f.place.offset).takeWhile (!isLineBoundary ·))
    ((wholeLine text f.place.offset).dropWhile (!isLineBoundary ·))
  rw [List.takeWhile_append_dropWhile] at hwhole
  have hline := lines_at text f.place.offset
  refine ⟨by rw [← hplace.line]; rfl, fun hfeeds => ?_, ?_⟩
  · rw [eq_beforeLine_append text f.place.offset, feedsOnly_append (fed_beforeLine _ _),
      Bool.and_eq_true] at hfeeds
    rw [if_pos hfeeds.1] at hline
    rw [hquoted, hline, hwhole.2 (isBlank_of_feedsOnly (not_mem_wholeLine _ _) hfeeds.2)]
  · split
    · rename_i hfeeds
      rw [if_pos hfeeds] at hline
      rw [hquoted, hline]
      exact ⟨rfl, String.ofList_inj.trans hwhole⟩
    · rename_i hfeeds
      rw [if_neg hfeeds] at hline
      obtain ⟨line, hbefore, hall⟩ := hline
      rw [lineAt, Nat.add_sub_cancel_left]
      exact ⟨line, hbefore, by rw [hquoted, hall, Option.getD_some]⟩

/-- A separator in a comment shifts the lines: the fault is on the second line, `fn (`, and what is
quoted is the rest of the comment. -/
theorem parse_sourceLine_separator : ∃ f, parse "// a\u2028b\nfn (".toList "" = .error f ∧
    f.diagnostic.location.line = 2 ∧
    wholeLine "// a\u2028b\nfn (".toList f.place.offset = "fn (".toList ∧
    f.diagnostic.sourceLine = "b" := by
  obtain ⟨f, hf, -, hplace⟩ := exists_of_faultOffsets?
    "// a\u2028b\nfn (" (p := 7) (q := 10) (by decide +kernel)
  obtain ⟨hline, -, hquoted⟩ := parse_sourceLine hf
  rw [hplace] at hline hquoted
  rw [if_neg (by decide)] at hquoted
  obtain ⟨line, hbefore, hquoted⟩ := hquoted
  have hb : (lines (beforeLine "// a\u2028b\nfn (".toList 10))[
      lineAt "// a\u2028b\nfn (".toList 10 - 1]? = some ['b'] := by decide
  cases hbefore.symm.trans hb
  exact ⟨f, hf, hline, by rw [hplace]; decide, hquoted⟩

end InkGauge.Contract
