import InkGauge.Proofs.Probe.FeatureOff

/-!
A storage read is taken apart and put together again: its value stands once more, with a semicolon
of its own. What stands there is all that was written up to the statement's semicolon without the
blanks at the end, comments included.
-/

namespace InkGauge.Probe

open Contract Number Text

/-- A stretch of the text that ends on a character that is not blank, with only blanks from there to
`hi`, is the text up to `hi` without the blanks at the end. -/
theorem slice_eq_trimRight {text : List Char} {s : Span} {hi : Nat} (hlt : s.start < s.stop)
    (hink : Inked text (s.stop - 1)) (hb : BlankBetween text s.stop hi) :
    slice text s = trimRight ((text.take hi).drop s.start) := by
  obtain ⟨hle, hblank⟩ := hb
  obtain ⟨c, hc, hcb⟩ := hink
  have hlow : s.stop - 1 - s.start < (trimRight ((text.take hi).drop s.start)).length := by
    refine lt_length_trimRight (c := c) ?_ hcb
    rw [List.getElem?_drop, List.getElem?_take_of_lt (by omega), ← hc]
    congr 1
    omega
  have hhigh : (trimRight ((text.take hi).drop s.start)).length ≤ s.stop - s.start := by
    by_contra hgt
    have hne : trimRight ((text.take hi).drop s.start) ≠ [] := by
      intro he
      rw [he] at hlow
      simp at hlow
    obtain ⟨d, hd, hdb⟩ := last_trimRight hne
    rw [List.getElem?_drop] at hd
    have hlen := (List.getElem?_eq_some_iff.1 hd).1
    rw [List.length_take] at hlen
    rw [List.getElem?_take_of_lt (by omega)] at hd
    exact hblank ⟨_, by omega, by omega, d, hd, hdb⟩
  have hlength : (trimRight ((text.take hi).drop s.start)).length = s.stop - s.start := by omega
  rw [List.prefix_iff_eq_take.1 (trimRight_isPrefix ((text.take hi).drop s.start)), hlength, slice,
    List.drop_take, List.take_take, Nat.min_eq_left (by omega)]

theorem block_mem_children (pattern : Fragment) (type : Option Fragment) (init : Option Expr)
    (b : Block) (attrs : List Attribute) (span : Span) :
    .block b ∈ (Node.stmt (.letBind pattern type init (some b) attrs span)).children := by
  simp [Node.children, Stmt.children, Node.block?]

/-- What a statement computes is a node below it, written up to the semicolon or an `else`. -/
theorem written_computed {text : List Char} {s : Stmt} {e : Expr} (h : Laid text (.stmt s))
    (hsimple : s.isSimple = true) (he : computed? s = some e) :
    Laid text (.expr e) ∧ ∃ stop, e.WrittenTo text stop ∧ stop < s.span.stop ∧
      (text[stop]? = some ';' ∧ stop + 1 = s.span.stop ∨ "else".toList <+: text.drop stop) := by
  obtain ⟨hlast, hwritten⟩ := h.closed hsimple
  have hpos : 0 < s.span.stop := Nat.zero_lt_of_lt h.marks.nonempty
  cases s with
  | letBind pattern type init orElse attrs span =>
    cases he
    refine ⟨h.inner _ (by simp [Node.children, Stmt.children, Node.expr?, Node.exprs]), ?_⟩
    cases orElse with
    | none =>
      exact ⟨span.stop - 1, hwritten, Nat.sub_one_lt_of_lt hpos,
        .inl ⟨hlast, Nat.sub_add_cancel hpos⟩⟩
    | some b =>
      obtain ⟨_, mid, hmid, hle, helse⟩ := hwritten
      have hb := block_mem_children pattern type (some e) b attrs span
      have hin := (h.within hb).2
      have hlt := (h.inner _ hb).marks.nonempty
      exact ⟨mid, hmid, Nat.lt_of_le_of_lt hle (Nat.lt_of_lt_of_le hlt hin), .inr helse⟩
  | expr e' semi attrs span =>
    simp only [computed?, Option.ite_none_right_eq_some] at he
    cases he.2
    refine ⟨h.inner _ (by simp [Node.children, Stmt.children]), ?_⟩
    exact ⟨span.stop - 1, hwritten, Nat.sub_one_lt_of_lt hpos,
      .inl ⟨hlast, Nat.sub_add_cancel hpos⟩⟩
  | item => cases he
  | empty => cases he

/-- The block behind an `else` was written up to the semicolon. -/
theorem slice_orElse {text : List Char} {pattern : Fragment} {type : Option Fragment} {e : Expr}
    {b : Block} {attrs : List Attribute} {span : Span}
    (h : Laid text (.stmt (.letBind pattern type (some e) (some b) attrs span))) :
    slice text b.span = trimRight ((text.take (span.stop - 1)).drop b.span.start) := by
  have hb := h.inner _ (block_mem_children pattern type (some e) b attrs span)
  exact slice_eq_trimRight hb.marks.nonempty hb.ink (h.closed rfl).2.1

theorem caught_mem_lines {s : Site} (h : s.target.kind = .storageRead) (id : Nat)
    (text : List Char) :
    .profiled (("let __ink_result_" ++ natText id ++ Site.ascription s.target.stmt ++ " = ").toList
      ++ slice text s.target.value.span ++ [';']) ∈ s.lines id text := by
  rw [Site.lines, if_pos h]
  simp [Site.caughtLines]

/-- The value of a storage read is caught as it was written: up to the semicolon or the `else` that
followed it, without the blanks at the end but with the comments, or up to the literal that it ends
with. The block of an `else` is put back in the same way. -/
theorem caught_as_written {source : List Char} {filename : String} {tree : SourceFile}
    (h : parse source filename = .ok tree) {s : Site} (hs : s ∈ sites tree)
    (hkind : s.target.kind = .storageRead) (id : Nat) : ∃ code stop,
      .profiled (("let __ink_result_" ++ natText id ++ Site.ascription s.target.stmt
        ++ " = ").toList ++ code ++ [';']) ∈ s.lines id source ∧
      s.target.value.span.stop ≤ stop ∧ stop < s.target.stmt.span.stop ∧
      (source[stop]? = some ';' ∧ stop + 1 = s.target.stmt.span.stop ∨
        "else".toList <+: source.drop stop) ∧
      (s.target.value.lastLiteral? = none →
        code = trimRight ((source.take stop).drop s.target.value.span.start)) ∧
      (∀ t, s.target.value.lastLiteral? = some t →
        code = slice source s.target.value.span ∧ t.toList <:+ code) ∧
      ∀ pattern type b attrs span,
        s.target.stmt = .letBind pattern type (some s.target.value) (some b) attrs span →
        slice source b.span = trimRight ((source.take (span.stop - 1)).drop b.span.start) := by
  have hmem : s.target ∈ targetsOf (sites tree) := List.mem_map.2 ⟨s, hs, rfl⟩
  have hlined := lined_sites h
  have hlaid := hlined.laid hmem
  have hfound := hlined.found _ hmem
  obtain ⟨hvalue, stop, hwritten, hstop, hend⟩ :=
    written_computed hlaid (isSimple_of_target? hfound) (computed_of_target? hfound)
  refine ⟨slice source s.target.value.span, stop, caught_mem_lines hkind id source, hwritten.le,
    hstop, hend, ?_, ?_, ?_⟩
  · intro hnone
    exact slice_eq_trimRight hvalue.marks.nonempty hvalue.ink (hwritten.blank hnone)
  · intro t ht
    have hsuffix := hwritten.literal t ht
    rw [List.drop_take] at hsuffix
    exact ⟨rfl, hsuffix⟩
  · intro pattern type b attrs span hstmt
    rw [hstmt] at hlaid
    exact slice_orElse hlaid

end InkGauge.Probe
