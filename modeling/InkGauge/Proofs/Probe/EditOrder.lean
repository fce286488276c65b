import InkGauge.Probe.Edit
import Mathlib.Data.List.Nodup
import Mathlib.Data.List.Sort

/-!
Edits are made from the back of a text to its front, and each is only held against the one made
before it. Going through the text from front to back tells the same: either some edit reaches into
the next one, and then the last such edit is refused, or the outcome is what lies between the edits
with their replacements put in. If no two edits start together, it does not matter in which order
they are given.
-/

namespace InkGauge.Probe

/-- The text from `lo` on, with edits in the place of what they stand for. -/
def spliced (text : List Char) (lo : Nat) : List Edit → List Char
  | [] => text.drop lo
  | e :: es => (text.take e.start.toNat).drop lo ++ e.replacement ++ spliced text e.stop.toNat es

/-- Where the next edit starts, or the end of the text if there is none. -/
def nextStart (hi : Int) : List Edit → Int
  | [] => hi
  | e :: _ => e.start

/-- Some edit reaches beyond the start of the next one, or the last one beyond the end. -/
def Overlapping (hi : Int) : List Edit → Prop
  | [] => False
  | e :: es => nextStart hi es < e.stop ∨ Overlapping hi es

/-- Of the edits that reach too far, there is one behind which none does. -/
theorem Overlapping.exists_last {hi : Int} {es : List Edit} (h : Overlapping hi es) :
    ∃ front e back, es = front ++ e :: back ∧ nextStart hi back < e.stop ∧
      ¬Overlapping hi back := by
  induction es with
  | nil => cases h
  | cons e es ih =>
    by_cases hes : Overlapping hi es
    · obtain ⟨front, e', back, rfl, hreach, hback⟩ := ih hes
      exact ⟨e :: front, e', back, rfl, hreach, hback⟩
    · exact ⟨[], e, es, rfl, h.resolve_right hes, hes⟩

theorem perm_backToFront (edits : List Edit) : (backToFront edits).Perm edits :=
  List.mergeSort_perm _ _

theorem pairwise_backToFront (edits : List Edit) :
    (backToFront edits).Pairwise fun a b => b.start ≤ a.start :=
  List.pairwise_mergeSort' (fun a b => b.start ≤ a.start) edits

/-- Edits that start at different places can be put in order. -/
theorem exists_ordered {edits : List Edit} (hstarts : (edits.map Edit.start).Nodup) :
    ∃ ordered : List Edit, ordered.Perm edits ∧
      ordered.Pairwise fun a b => a.start < b.start := by
  refine ⟨(backToFront edits).reverse, (List.reverse_perm _).trans (perm_backToFront edits), ?_⟩
  have hne := ((perm_backToFront edits).map Edit.start).nodup_iff.2 hstarts
  rw [List.Nodup, List.pairwise_map] at hne
  rw [List.pairwise_reverse]
  apply ((pairwise_backToFront edits).and hne).imp
  intro a b hab
  have hle := hab.1
  have hne := hab.2
  omega

/-- The edits from the back to the front do not depend on the order in which they are given. -/
theorem backToFront_eq_reverse {ordered edits : List Edit} (hperm : ordered.Perm edits)
    (hlt : ordered.Pairwise fun a b => a.start < b.start) :
    backToFront edits = ordered.reverse := by
  have hnodup : (ordered.map Edit.start).Nodup := by
    rw [List.Nodup, List.pairwise_map]
    exact hlt.imp Int.ne_of_lt
  have hall : (backToFront edits).Perm ordered.reverse :=
    (perm_backToFront edits).trans (hperm.symm.trans (List.reverse_perm _).symm)
  -- Two edits that start together are the same edit, so the order is one of the edits themselves.
  have hanti : ∀ a b, a ∈ backToFront edits → b ∈ ordered.reverse → b.start ≤ a.start →
      a.start ≤ b.start → a = b := by
    intro a b ha hb hab hba
    apply List.inj_on_of_nodup_map hnodup (List.mem_reverse.1 (hall.subset ha))
      (List.mem_reverse.1 hb)
    exact Int.le_antisymm hba hab
  have hreverse : ordered.reverse.Pairwise fun a b => b.start ≤ a.start := by
    rw [List.pairwise_reverse]
    exact hlt.imp Int.le_of_lt
  exact hall.eq_of_pairwise hanti (pairwise_backToFront edits) hreverse

/-- An edit behind which everything is done copies what lies before it. -/
theorem splice_spliced {text : List Char} {e : Edit} {lo : Nat} (hlo : lo ≤ e.start)
    (hspan : e.start ≤ e.stop) (hstop : e.stop ≤ text.length) (es : List Edit) :
    e.splice (text.take e.stop.toNat ++ spliced text e.stop.toNat es) =
      text.take lo ++ spliced text lo (e :: es) := by
  have hlength : (text.take e.stop.toNat).length = e.stop.toNat :=
    List.length_take_of_le (by omega)
  have htake : (text.take e.stop.toNat ++ spliced text e.stop.toNat es).take e.start.toNat =
      text.take e.start.toNat := by
    rw [List.take_append_of_le_length (by omega), List.take_take, Nat.min_eq_left (by omega)]
  have hdrop : (text.take e.stop.toNat ++ spliced text e.stop.toNat es).drop e.stop.toNat =
      spliced text e.stop.toNat es := List.drop_left' hlength
  have hgap : text.take lo ++ (text.take e.start.toNat).drop lo = text.take e.start.toNat := by
    have hl : text.take lo = (text.take e.start.toNat).take lo := by
      rw [List.take_take, Nat.min_eq_left (by omega)]
    rw [hl, List.take_append_drop]
  have hstart' : ¬e.start < 0 := by omega
  have hstop' : ¬e.stop < 0 := by omega
  simp only [Edit.splice, charsBefore, if_neg hstart', if_neg hstop']
  rw [htake, hdrop, spliced, ← List.append_assoc, ← List.append_assoc, hgap]

theorem nextStart_nonneg {hi : Int} (hhi : 0 ≤ hi) {es : List Edit}
    (hspans : ∀ e ∈ es, 0 ≤ e.start ∧ e.start ≤ e.stop) : 0 ≤ nextStart hi es := by
  cases es with
  | nil => exact hhi
  | cons e es => exact (hspans e (by simp)).1

theorem nextStart_le {hi : Int} {es : List Edit} (hspans : ∀ e ∈ es, e.start ≤ e.stop)
    (h : ¬Overlapping hi es) : nextStart hi es ≤ hi := by
  induction es with
  | nil => exact Int.le_refl hi
  | cons e es ih =>
    obtain ⟨hreach, hes⟩ := not_or.1 h
    have hspan := hspans e (by simp)
    have hrest := ih (fun e' he' => hspans e' (by simp [he'])) hes
    simp only [nextStart]
    omega

/-- The edits behind some place do not move what stands before it. -/
theorem spliceAll_reverse {text : List Char} {es : List Edit}
    (hspans : ∀ e ∈ es, 0 ≤ e.start ∧ e.start ≤ e.stop) (h : ¬Overlapping text.length es)
    (lo : Nat) (hlo : lo ≤ nextStart text.length es) (rest : List Edit) :
    spliceAll text.length text (es.reverse ++ rest) =
      spliceAll (nextStart text.length es) (text.take lo ++ spliced text lo es) rest := by
  induction es generalizing lo rest with
  | nil => simp [spliced, nextStart]
  | cons e es ih =>
    obtain ⟨hreach, hes⟩ := not_or.1 h
    obtain ⟨hnonneg, hspan⟩ := hspans e (by simp)
    have hspans' : ∀ e' ∈ es, 0 ≤ e'.start ∧ e'.start ≤ e'.stop :=
      fun e' he' => hspans e' (by simp [he'])
    have hend := nextStart_le (fun e' he' => (hspans' e' he').2) hes
    have hmid : (e.stop.toNat : Int) ≤ nextStart text.length es := by omega
    rw [List.reverse_cons, List.append_assoc, List.singleton_append, ih hspans' hes _ hmid,
      spliceAll, if_neg hreach, splice_spliced hlo hspan (by omega)]
    rfl

section

variable {text : List Char} {ordered edits : List Edit} (hperm : ordered.Perm edits)
  (hlt : ordered.Pairwise fun a b => a.start < b.start)
  (hspans : ∀ e ∈ ordered, 0 ≤ e.start ∧ e.start ≤ e.stop)

include hperm hlt hspans

/-- Edits that stand one behind the other can all be made. -/
theorem applyEdits_eq_spliced (h : ¬Overlapping text.length ordered) :
    applyEdits text edits = .ok (spliced text 0 ordered) := by
  have hstart := nextStart_nonneg (Int.natCast_nonneg text.length) hspans
  have hmade := spliceAll_reverse hspans h 0 hstart []
  rw [List.append_nil, List.take_zero, List.nil_append] at hmade
  rw [applyEdits, backToFront_eq_reverse hperm hlt, hmade, spliceAll]

/-- Of the edits that reach too far, the last one is refused. -/
theorem applyEdits_eq_error {front back : List Edit} {e : Edit}
    (heq : ordered = front ++ e :: back) (hreach : nextStart text.length back < e.stop)
    (hback : ¬Overlapping text.length back) : applyEdits text edits = .error ⟨e.start⟩ := by
  have hspans' : ∀ e' ∈ back, 0 ≤ e'.start ∧ e'.start ≤ e'.stop :=
    fun e' he' => hspans e' (by simp [heq, he'])
  have hstart := nextStart_nonneg (Int.natCast_nonneg text.length) hspans'
  have hmade := spliceAll_reverse hspans' hback 0 hstart (e :: front.reverse)
  have hreverse : ordered.reverse = back.reverse ++ e :: front.reverse := by simp [heq]
  rw [applyEdits, backToFront_eq_reverse hperm hlt, hreverse, hmade, spliceAll, if_pos hreach]

end

/-- What comes of edits, told by the order in which they stand in the text. -/
structure SplicesAs (text : List Char) (edits ordered : List Edit) : Prop where
  perm : ordered.Perm edits
  inOrder : ordered.Pairwise fun a b => a.start < b.start
  refused_iff : (∃ o, applyEdits text edits = .error o) ↔ Overlapping text.length ordered
  /-- The refusal names the last edit that reaches too far. -/
  refused : ∀ o, applyEdits text edits = .error o → ∃ front e back, ordered = front ++ e :: back ∧
    o.offset = e.start ∧ nextStart text.length back < e.stop ∧ ¬Overlapping text.length back
  made : ¬Overlapping text.length ordered → applyEdits text edits = .ok (spliced text 0 ordered)
  anyOrder : ∀ edits' : List Edit, edits'.Perm edits →
    applyEdits text edits' = applyEdits text edits

/-- Edits that start at different places come out by their order in the text, in whatever order
they are given. -/
theorem applyEdits_splicesAs {edits : List Edit}
    (hspans : ∀ e ∈ edits, 0 ≤ e.start ∧ e.start ≤ e.stop)
    (hstarts : (edits.map Edit.start).Nodup) (text : List Char) :
    ∃ ordered, SplicesAs text edits ordered := by
  obtain ⟨ordered, hperm, hlt⟩ := exists_ordered hstarts
  have hspans' : ∀ e ∈ ordered, 0 ≤ e.start ∧ e.start ≤ e.stop :=
    fun e he => hspans e (hperm.subset he)
  have hmade : ¬Overlapping text.length ordered →
      applyEdits text edits = .ok (spliced text 0 ordered) :=
    applyEdits_eq_spliced hperm hlt hspans'
  have hoverlap : ∀ o, applyEdits text edits = .error o → Overlapping text.length ordered := by
    intro o ho
    by_contra h
    rw [hmade h] at ho
    cases ho
  refine ⟨ordered, hperm, hlt, ⟨fun ⟨o, ho⟩ => hoverlap o ho, ?_⟩, ?_, hmade, ?_⟩
  · intro h
    obtain ⟨front, e, back, heq, hreach, hback⟩ := h.exists_last
    exact ⟨_, applyEdits_eq_error hperm hlt hspans' heq hreach hback⟩
  · intro o ho
    obtain ⟨front, e, back, heq, hreach, hback⟩ := (hoverlap o ho).exists_last
    rw [applyEdits_eq_error hperm hlt hspans' heq hreach hback] at ho
    cases ho
    exact ⟨front, e, back, heq, rfl, hreach, hback⟩
  · intro edits' hperm'
    rw [applyEdits, applyEdits, backToFront_eq_reverse hperm hlt,
      backToFront_eq_reverse (hperm.trans hperm'.symm) hlt]

/-- A change at the end, a deletion at the start and an insertion right behind it. -/
def sampleEdits : List Edit :=
  [⟨4, 6, "Y".toList⟩, ⟨0, 2, []⟩, ⟨2, 2, "xyz".toList⟩]

theorem applyEdits_splicesAs_sampleEdits :
    (∀ e ∈ sampleEdits, 0 ≤ e.start ∧ e.start ≤ e.stop) ∧ (sampleEdits.map Edit.start).Nodup ∧
      (∃ ordered, SplicesAs "abcdef".toList sampleEdits ordered) ∧
      applyEdits "abcdef".toList sampleEdits = .ok "xyzcdY".toList := by
  have hspans : ∀ e ∈ sampleEdits, 0 ≤ e.start ∧ e.start ≤ e.stop := by decide
  have hstarts : (sampleEdits.map Edit.start).Nodup := by decide
  have hperm : (sampleEdits.drop 1 ++ sampleEdits.take 1).Perm sampleEdits :=
    List.perm_append_comm
  refine ⟨hspans, hstarts, applyEdits_splicesAs hspans hstarts _, ?_⟩
  rw [applyEdits, backToFront_eq_reverse hperm (by decide)]
  decide

end InkGauge.Probe
