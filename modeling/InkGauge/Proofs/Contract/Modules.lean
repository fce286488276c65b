import InkGauge.Proofs.Contract.SpanInvariant
import InkGauge.Proofs.Contract.Walk
import Mathlib.Data.List.Pairwise

/-!
In a file that was read the walk comes by the impl blocks one behind the other, so that each is
found once and can be told from the others by its span.
-/

namespace InkGauge.Contract

variable {text : List Char}

/-- The items of a module stand inside it. -/
theorem Laid.row_inner {i : Item} (h : Laid text (.item i)) :
    Row text i.span.start i.span.stop ((Node.items i.inner).map .node) := by
  have hrow := h.row
  obtain ⟨attrs, visibility, span, kind⟩ := i
  unfold Item.inner
  split
  · rename_i heq
    cases heq
    rw [Node.children, List.map_append] at hrow
    exact hrow.sublist (List.sublist_append_right _ _)
  · exact hrow.le

theorem ImplBlock.WrittenAs.inner_eq_nil {b : ImplBlock} {i : Item} (h : b.WrittenAs i) :
    i.inner = [] := by
  obtain ⟨-, -, traitType, hkind⟩ := h
  rw [Item.inner, hkind]

/-- A block holds no other, and what is in a module stays inside it. -/
theorem inOrder_walkFrom {stack : List Item} {lo hi : Nat}
    (h : Row text lo hi ((Node.items stack).map .node)) :
    InOrder lo hi (((walkFrom stack).filterMap Item.implBlock?).map ImplBlock.span) := by
  fun_induction walkFrom stack generalizing lo with
  | case1 => exact h
  | case2 i stack ih =>
    obtain ⟨hlo, hlaid, hstack⟩ := h
    cases himpl : i.implBlock? with
    | none =>
      rw [List.filterMap_cons_none himpl]
      apply ih
      rw [Node.items, List.map_append, List.map_append]
      exact (hlaid.row_inner.mono hlo (Nat.le_refl _)).append hstack
    | some b =>
      have hb := implBlock?_eq_some_iff.1 himpl
      have hnil := hb.inner_eq_nil
      rw [hnil, List.nil_append] at ih
      rw [List.filterMap_cons_some himpl, hnil, List.nil_append, List.map_cons, InOrder, ← hb.2.1]
      exact ⟨hlo, ih hstack⟩

theorem Row.item_within {items : List Item} {lo hi : Nat}
    (hrow : Row text lo hi ((Node.items items).map .node)) {i : Item} (h : i ∈ items) :
    lo ≤ i.span.start ∧ i.span.stop ≤ hi := by
  refine (hrow.inOrder.within ?_).2 _ (List.mem_map.2 ⟨_, List.mem_map_of_mem h, rfl⟩)
  intro s hs
  obtain ⟨n, hn, rfl⟩ := List.mem_map.1 hs
  exact (hrow.laid hn).marks.nonempty

/-- An item lies inside the span of the item of the list that it stands in. -/
theorem Nested.within {items : List Item} {depth lo hi : Nat} {i : Item}
    (h : Nested items depth i) (hrow : Row text lo hi ((Node.items items).map .node)) :
    i.span.start < i.span.stop ∧ lo ≤ i.span.start ∧ i.span.stop ≤ hi := by
  induction h generalizing lo hi with
  | here h => exact ⟨(hrow.laid (List.mem_map_of_mem h)).marks.nonempty, hrow.item_within h⟩
  | inside hm _ ih =>
    obtain ⟨hlt, hstart, hstop⟩ := ih (hrow.laid (List.mem_map_of_mem hm)).row_inner
    obtain ⟨hlo, hhi⟩ := hrow.item_within hm
    exact ⟨hlt, hlo.trans hstart, hstop.trans hhi⟩

/-- Items that stand in one list and share a part of the text are one item. -/
theorem Row.item_eq {items : List Item} {lo hi : Nat}
    (hrow : Row text lo hi ((Node.items items).map .node)) {i j : Item} (hi : i ∈ items)
    (hj : j ∈ items) {s : Span} (hs : s.start < s.stop) (his : s.Within i.span)
    (hjs : s.Within j.span) : i = j := by
  have hpairs : items.Pairwise fun i j => i.span.Before j.span ∨ j.span.Before i.span := by
    have hbefore := hrow.inOrder.pairwise fun s hs => by
      obtain ⟨n, hn, rfl⟩ := List.mem_map.1 hs
      exact (hrow.laid hn).marks.nonempty
    rw [Node.items, List.map_map, List.pairwise_map] at hbefore
    exact hbefore.imp .inl
  have hsymm : Std.Symm fun i j : Item => i.span.Before j.span ∨ j.span.Before i.span :=
    ⟨fun _ _ => Or.symm⟩
  by_contra hne
  have hapart := hpairs.forall hi hj hne
  unfold Span.Before at hapart
  unfold Span.Within at his hjs
  omega

/-- Items that are no modules and have one span are one item, at one place. -/
theorem Nested.eq_of_span {items : List Item} {lo hi d d' : Nat} {i j : Item}
    (hrow : Row text lo hi ((Node.items items).map .node)) (h : Nested items d i)
    (h' : Nested items d' j) (hleaf : i.inner = []) (hleaf' : j.inner = [])
    (hspan : i.span = j.span) :
    i = j ∧ d = d' := by
  induction h generalizing lo hi d' with
  | here h =>
    obtain ⟨hlt, -⟩ := (Nested.here h).within hrow
    cases h' with
    | here h' =>
      refine ⟨hrow.item_eq h h' hlt ⟨Nat.le_refl _, Nat.le_refl _⟩ ?_, rfl⟩
      rw [hspan]
      exact ⟨Nat.le_refl _, Nat.le_refl _⟩
    | inside hm h' =>
      obtain ⟨hlt', hwithin⟩ := h'.within (hrow.laid (List.mem_map_of_mem hm)).row_inner
      rw [← hspan] at hlt' hwithin
      cases hrow.item_eq hm h hlt' hwithin ⟨Nat.le_refl _, Nat.le_refl _⟩
      exact absurd hleaf h'.ne_nil
  | inside hm hn ih =>
    have hlaid := hrow.laid (List.mem_map_of_mem hm)
    obtain ⟨hlt, hwithin⟩ := hn.within hlaid.row_inner
    cases h' with
    | here h' =>
      rw [hspan] at hlt hwithin
      cases hrow.item_eq hm h' hlt hwithin ⟨Nat.le_refl _, Nat.le_refl _⟩
      exact absurd hleaf' hn.ne_nil
    | inside hm' hn' =>
      have hwithin' := (hn'.within (hrow.laid (List.mem_map_of_mem hm')).row_inner).2
      rw [← hspan] at hwithin'
      cases hrow.item_eq hm hm' hlt hwithin hwithin'
      obtain ⟨heq, hdepth⟩ := ih hlaid.row_inner hn' hleaf hspan
      exact ⟨heq, congrArg (· + 1) hdepth⟩

end InkGauge.Contract
