import InkGauge.Text.Lines
import InkGauge.Text.Spacing
import Mathlib.Data.List.DropRight

/-!
Lines are numbered by line feeds, but a text is cut into lines at every line boundary. The two agree
as long as each boundary before a line is a line feed, or a carriage return with one behind it. A
single other boundary shifts the numbers.
-/

namespace InkGauge.Text

/-- Is every line boundary a line feed, or a carriage return right before one? -/
def feedsOnly : List Char → Bool
  | [] => true
  | '\r' :: '\n' :: s => feedsOnly s
  | c :: s => (c == '\n' || !isLineBoundary c) && feedsOnly s

/-- The text before the line that holds an offset. -/
def beforeLine (text : List Char) (offset : Nat) : List Char :=
  (text.take offset).rdropWhile (· != '\n')

/-- The line that holds an offset, from behind the last line feed before it to the next one. -/
def wholeLine (text : List Char) (offset : Nat) : List Char :=
  (text.take offset).rtakeWhile (· != '\n') ++ (text.drop offset).takeWhile (· != '\n')

/-- Nothing or a text that ends with a line feed. -/
def Fed (s : List Char) : Prop := s = [] ∨ s.getLast? = some '\n'

theorem Fed.tail {c : Char} {s : List Char} (h : Fed (c :: s)) : Fed s := by
  cases s with
  | nil => exact .inl rfl
  | cons d s => simpa [Fed] using h

theorem Fed.boundary {c : Char} {s : List Char} (h : Fed (c :: s)) (hs : s = []) :
    isLineBoundary c = true := by
  subst hs
  obtain rfl : c = '\n' := by simpa [Fed] using h
  decide

/-- A carriage return that ends no line feed is still none with more text behind. -/
theorem Fed.not_crossed {c : Char} {s : List Char} (hs : Fed (c :: s))
    (h : ∀ t, c = '\r' → s = '\n' :: t → False) (rest t : List Char) :
    c = '\r' → s ++ rest = '\n' :: t → False := by
  rintro rfl heq
  cases s with
  | nil => simp [Fed] at hs
  | cons d s =>
    cases heq
    exact h s rfl rfl

/-- The lines before a line feed do not depend on what comes behind it. -/
theorem linesFrom_fed {s : List Char} (hs : Fed s) (line rest : List Char)
    (hline : s = [] → line = []) :
    linesFrom line (s ++ rest) = linesFrom line s ++ lines rest := by
  fun_induction linesFrom line s with
  | case1 => rfl
  | case2 line hne => exact absurd (hline rfl) hne
  | case3 line s ih =>
    rw [List.cons_append, List.cons_append, linesFrom, ih hs.tail.tail fun _ => rfl,
      List.cons_append]
  | case4 line c s hc hboundary ih =>
    rw [List.cons_append, linesFrom, if_pos hboundary, ih hs.tail fun _ => rfl, List.cons_append]
    exact hs.not_crossed hc rest
  | case5 line c s hc hboundary ih =>
    rw [List.cons_append, linesFrom, if_neg hboundary, ih hs.tail]
    · exact fun h => absurd (hs.boundary h) hboundary
    · exact hs.not_crossed hc rest

/-- Line feeds are counted by the lines they end, and other boundaries come on top. -/
theorem length_linesFrom {s : List Char} (hs : Fed s) (line : List Char)
    (hline : s = [] → line = []) :
    if feedsOnly s then (linesFrom line s).length = s.count '\n'
    else s.count '\n' < (linesFrom line s).length := by
  fun_induction linesFrom line s with
  | case1 => rfl
  | case2 line hne => exact absurd (hline rfl) hne
  | case3 line s ih =>
    have hrest := ih hs.tail.tail fun _ => rfl
    rw [feedsOnly, List.length_cons, List.count_cons_of_ne (by decide), List.count_cons_self]
    split at hrest <;> simp_all
  | case4 line c s hc hboundary ih =>
    have hrest := ih hs.tail fun _ => rfl
    have hfeeds : feedsOnly (c :: s) = ((c == '\n') && feedsOnly s) := by
      rw [feedsOnly, hboundary, Bool.not_true, Bool.or_false]
      exact hc
    rw [hfeeds, List.length_cons, List.count_cons]
    cases hfeed : c == '\n' with
    | true => split at hrest <;> simp_all
    | false =>
      rw [Bool.false_and, if_neg (by decide), if_neg (by decide)]
      split at hrest <;> omega
  | case5 line c s hc hboundary ih =>
    have hrest := ih hs.tail fun h => absurd (hs.boundary h) hboundary
    have hfeeds : feedsOnly (c :: s) = feedsOnly s := by
      rw [feedsOnly, Bool.eq_false_iff.2 hboundary, Bool.not_false, Bool.or_true, Bool.true_and]
      exact hc
    have hfeed : c ≠ '\n' := by
      rintro rfl
      exact hboundary (by decide)
    rw [hfeeds, List.count_cons_of_ne hfeed]
    exact hrest

/-- The first line of a text ends at its first boundary. -/
theorem head_linesFrom (line s : List Char) :
    (linesFrom line s)[0]?.getD [] = line.reverse ++ s.takeWhile (!isLineBoundary ·) := by
  fun_induction linesFrom line s with
  | case1 => rfl
  | case2 line hne => simp
  | case3 line s ih =>
    have hreturn : isLineBoundary '\r' = true := by decide
    simp [hreturn]
  | case4 line c s hc hboundary ih => simp [hboundary]
  | case5 line c s hc hboundary ih => simp [ih, hboundary]

theorem fed_beforeLine (text : List Char) (offset : Nat) : Fed (beforeLine text offset) := by
  by_cases hnil : beforeLine text offset = []
  · exact .inl hnil
  · refine .inr ?_
    have hlast : ¬((beforeLine text offset).getLast hnil != '\n') = true :=
      List.rdropWhile_last_not _ _ hnil
    rw [List.getLast?_eq_some_getLast hnil]
    simpa using hlast

theorem count_beforeLine (text : List Char) (offset : Nat) :
    (beforeLine text offset).count '\n' = (text.take offset).count '\n' := by
  have hsplit : beforeLine text offset ++ (text.take offset).rtakeWhile (· != '\n') =
      text.take offset :=
    List.rdropWhile_append_rtakeWhile
  have hnone : ((text.take offset).rtakeWhile (· != '\n')).count '\n' = 0 :=
    List.count_eq_zero.2 fun hmem => absurd (List.mem_rtakeWhile_imp hmem) (by decide)
  rw [← hsplit, List.count_append, hnone]
  rfl

theorem eq_beforeLine_append (text : List Char) (offset : Nat) :
    text = beforeLine text offset ++
      (wholeLine text offset ++ (text.drop offset).dropWhile (· != '\n')) := by
  rw [wholeLine, List.append_assoc, List.takeWhile_append_dropWhile, ← List.append_assoc,
    beforeLine, List.rdropWhile_append_rtakeWhile, List.take_append_drop]

theorem not_mem_wholeLine (text : List Char) (offset : Nat) : '\n' ∉ wholeLine text offset := by
  intro hmem
  rcases List.mem_append.1 hmem with hmem | hmem
  · exact absurd (List.mem_rtakeWhile_imp hmem) (by decide)
  · exact absurd (List.mem_takeWhile_imp hmem) (by decide)

theorem takeWhile_behindLine (s : List Char) :
    (s.dropWhile (· != '\n')).takeWhile (!isLineBoundary ·) = [] := by
  cases hs : s.dropWhile (· != '\n') with
  | nil => rfl
  | cons c t =>
    have hc := List.head?_dropWhile_not (· != '\n') s
    obtain rfl : c = '\n' := by simpa [hs] using hc
    rfl

/-- A line ends at its first boundary, or else where a line feed follows. -/
theorem takeWhile_wholeLine (text : List Char) (offset : Nat) :
    (wholeLine text offset ++ (text.drop offset).dropWhile (· != '\n')).takeWhile
      (!isLineBoundary ·) = (wholeLine text offset).takeWhile (!isLineBoundary ·) := by
  rw [List.takeWhile_append, takeWhile_behindLine, List.append_nil]
  split
  · rename_i hlength
    exact (((List.takeWhile_prefix _).eq_of_length hlength)).symm
  · rfl

/-- The line with the number of an offset: the line of the offset if only line feeds end lines
before it, and a line that ends before it otherwise. -/
theorem lines_at (text : List Char) (offset : Nat) :
    if feedsOnly (beforeLine text offset) then
      (lines text)[(text.take offset).count '\n']?.getD [] =
        (wholeLine text offset).takeWhile (!isLineBoundary ·)
    else ∃ line, (lines (beforeLine text offset))[(text.take offset).count '\n']? = some line ∧
      (lines text)[(text.take offset).count '\n']? = some line := by
  have hcut : lines text = lines (beforeLine text offset) ++
      lines (wholeLine text offset ++ (text.drop offset).dropWhile (· != '\n')) := by
    conv_lhs => rw [eq_beforeLine_append text offset]
    exact linesFrom_fed (fed_beforeLine text offset) [] _ fun _ => rfl
  have hlength : if feedsOnly (beforeLine text offset) then
      (lines (beforeLine text offset)).length = (beforeLine text offset).count '\n'
      else (beforeLine text offset).count '\n' < (lines (beforeLine text offset)).length :=
    length_linesFrom (fed_beforeLine text offset) [] fun _ => rfl
  rw [hcut, ← count_beforeLine]
  split at hlength
  · rename_i hfeeds
    rw [if_pos hfeeds, ← hlength, List.getElem?_append_right (Nat.le_refl _), Nat.sub_self]
    exact (head_linesFrom [] _).trans (takeWhile_wholeLine text offset)
  · rename_i hfeeds
    rw [if_neg hfeeds, List.getElem?_append_left hlength]
    exact ⟨_, List.getElem?_eq_getElem hlength, List.getElem?_eq_getElem hlength⟩

theorem feedsOnly_append {s : List Char} (hs : Fed s) (rest : List Char) :
    feedsOnly (s ++ rest) = (feedsOnly s && feedsOnly rest) := by
  fun_induction feedsOnly s with
  | case1 => simp
  | case2 s ih =>
    rw [List.cons_append, List.cons_append, feedsOnly, ih hs.tail.tail]
  | case3 c s hc ih =>
    rw [List.cons_append, feedsOnly, ih hs.tail, Bool.and_assoc]
    exact hs.not_crossed hc rest

/-- In a line only a carriage return at its end is a boundary. -/
theorem isBlank_of_feedsOnly {line rest : List Char} (hline : '\n' ∉ line)
    (h : feedsOnly (line ++ rest) = true) :
    ∀ c ∈ line.dropWhile (!isLineBoundary ·), isBlank c = true := by
  induction line with
  | nil => simp
  | cons c line ih =>
    simp only [List.mem_cons, not_or] at hline
    rw [List.cons_append] at h
    unfold feedsOnly at h
    split at h
    · rename_i heq
      cases heq
    · rename_i t heq
      obtain ⟨rfl, heq⟩ := List.cons.inj heq
      -- The line feed behind the carriage return is not in the line, so the line ends here.
      cases line with
      | nil =>
        have hreturn : isLineBoundary '\r' = true := by decide
        have hblank : isBlank '\r' = true := by decide
        simp [hreturn, hblank]
      | cons d line =>
        cases heq
        exact absurd List.mem_cons_self hline.2
    · rename_i heq
      cases heq
      obtain ⟨hc, hrest⟩ := Bool.and_eq_true_iff.1 h
      have hinside : (!isLineBoundary c) = true := by
        simpa [Ne.symm hline.1] using hc
      rw [List.dropWhile_cons, if_pos hinside]
      exact ih hline.2 hrest

end InkGauge.Text
