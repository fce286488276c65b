import InkGauge.Analysis.Function
import Mathlib.Data.List.Sort

/-!
The operations above a threshold are listed from the most to the least expensive, those of the same
cost in the order in which they were met, and numbered from one on. There is only one such list.
-/

namespace InkGauge.Analysis

open Cost

section

variable {α : Type} (key : α → Int)

/-- Members with the same key keep their order. -/
theorem filter_mergeSort (xs : List α) (k : Int) :
    (xs.mergeSort fun a b => decide (key b ≤ key a)).filter (fun a => decide (key a = k)) =
      xs.filter fun a => decide (key a = k) := by
  have htrans : ∀ a b c, decide (key b ≤ key a) = true → decide (key c ≤ key b) = true →
      decide (key c ≤ key a) = true := by
    intro a b c hab hbc
    simp only [decide_eq_true_eq] at hab hbc ⊢
    omega
  have htotal : ∀ a b, (decide (key b ≤ key a) || decide (key a ≤ key b)) = true := by
    intro a b
    simp only [Bool.or_eq_true, decide_eq_true_eq]
    omega
  -- Members with one key are sorted as they stand, so a stable sort leaves them in their order.
  have hequal : (xs.filter fun a => decide (key a = k)).Pairwise
      fun a b => decide (key b ≤ key a) = true := by
    apply List.pairwise_of_forall_mem_list
    intro a ha b hb
    simp only [List.mem_filter, decide_eq_true_eq] at ha hb ⊢
    omega
  have hsub := List.sublist_mergeSort htrans htotal hequal List.filter_sublist
  have hkept := hsub.filter fun a => decide (key a = k)
  have hperm := (List.mergeSort_perm xs fun a b => decide (key b ≤ key a)).filter
    fun a => decide (key a = k)
  simp only [List.filter_filter, Bool.and_self] at hkept
  exact (hkept.eq_of_length hperm.length_eq.symm).symm

variable {key} {xs ys : List α}

theorem mem_of_filter_eq
    (h : ∀ k, xs.filter (fun a => decide (key a = k)) = ys.filter fun a => decide (key a = k))
    {a : α} (ha : a ∈ xs) : a ∈ ys := by
  have hkey : a ∈ xs.filter fun b => decide (key b = key a) := by simp [ha]
  rw [h] at hkey
  exact List.mem_of_mem_filter hkey

/-- A list in falling order is told by its members of each key. -/
theorem eq_of_filter_eq (hx : xs.Pairwise fun a b => key b ≤ key a)
    (hy : ys.Pairwise fun a b => key b ≤ key a)
    (h : ∀ k, xs.filter (fun a => decide (key a = k)) = ys.filter fun a => decide (key a = k)) :
    xs = ys := by
  induction xs generalizing ys with
  | nil =>
    symm
    apply List.eq_nil_iff_forall_not_mem.2
    intro a ha
    cases mem_of_filter_eq (fun k => (h k).symm) ha
  | cons x xs ih =>
    cases ys with
    | nil => cases mem_of_filter_eq h List.mem_cons_self
    | cons y ys =>
      obtain ⟨hx', hxs⟩ := List.pairwise_cons.1 hx
      obtain ⟨hy', hys⟩ := List.pairwise_cons.1 hy
      have hle : key x ≤ key y := by
        rcases List.mem_cons.1 (mem_of_filter_eq h List.mem_cons_self) with hxy | hxy
        · rw [hxy]
        · exact hy' x hxy
      have hge : key y ≤ key x := by
        rcases List.mem_cons.1 (mem_of_filter_eq (fun k => (h k).symm) List.mem_cons_self)
          with hxy | hxy
        · rw [hxy]
        · exact hx' y hxy
      -- Both lists start with a greatest key, and so with the same member of that key.
      have hkey : key y = key x := Int.le_antisymm hge hle
      have hfirst := h (key x)
      rw [List.filter_cons_of_pos (by simp), List.filter_cons_of_pos (by simp [hkey])] at hfirst
      obtain ⟨rfl, -⟩ := List.cons.inj hfirst
      congr 1
      apply ih hxs hys
      intro k
      have hk := h k
      by_cases hxk : key x = k
      · rw [List.filter_cons_of_pos (by simp [hxk]), List.filter_cons_of_pos (by simp [hxk])] at hk
        exact (List.cons.inj hk).2
      · rwa [List.filter_cons_of_neg (by simp [hxk]), List.filter_cons_of_neg (by simp [hxk])] at hk

end

/-- The operations above a threshold. -/
def aboveThreshold (threshold : Int) (ops : List Operation) : List Operation :=
  ops.filter fun op => decide (threshold < op.ink)

/-- What a hotspot tells of its operation. -/
def Hotspot.figures (h : Hotspot) : Int × Int × String := (h.line, h.ink, h.operation)

/-- What there is to tell of an operation. -/
def hotFigures (op : Operation) : Int × Int × String := (op.line, op.ink, op.operation)

/-- The hotspots are the operations above a threshold, the most expensive first. -/
structure Ranking (threshold : Int) (ops : List Operation) (hs : List Hotspot) : Prop where
  /-- The ranks are 1, 2 and so on. -/
  ranks : hs.map (·.rank) = (List.range' 1 hs.length).map fun i : Nat => (i : Int)
  /-- Every operation above the threshold is told as often as it occurs, and no other. -/
  members : (hs.map Hotspot.figures).Perm ((aboveThreshold threshold ops).map hotFigures)
  descending : hs.Pairwise fun a b => b.ink ≤ a.ink
  /-- Operations of the same cost stand in the order in which they were met. -/
  ties : ∀ ink, (hs.filter fun h => decide (h.ink = ink)).map Hotspot.figures =
    ((aboveThreshold threshold ops).filter fun op => decide (op.ink = ink)).map hotFigures

theorem figures_rankHotspots (threshold : Int) (ops : List Operation) :
    (rankHotspots threshold ops).map Hotspot.figures =
      ((aboveThreshold threshold ops).mergeSort fun a b => decide (b.ink ≤ a.ink)).map
        hotFigures := by
  rw [rankHotspots, List.map_map, ← aboveThreshold]
  generalize (aboveThreshold threshold ops).mergeSort _ = hot
  calc hot.zipIdx.map _ = (hot.zipIdx.map Prod.fst).map hotFigures := by rw [List.map_map]; rfl
    _ = hot.map hotFigures := by rw [List.zipIdx_map_fst]

theorem ranks_rankHotspots (threshold : Int) (ops : List Operation) :
    (rankHotspots threshold ops).map (·.rank) =
      (List.range' 1 (rankHotspots threshold ops).length).map fun i : Nat => (i : Int) := by
  rw [rankHotspots]
  generalize (ops.filter fun op => decide (threshold < op.ink)).mergeSort _ = hot
  apply List.ext_getElem
  · simp
  · intro i _ _
    simp [Int.add_comm]

theorem filter_figures (hs : List Hotspot) (ink : Int) :
    (hs.filter fun h => decide (h.ink = ink)).map Hotspot.figures =
      (hs.map Hotspot.figures).filter fun f => decide (f.2.1 = ink) := by
  rw [List.filter_map]
  rfl

theorem pairwise_figures {hs : List Hotspot} :
    ((hs.map Hotspot.figures).Pairwise fun f g => g.2.1 ≤ f.2.1) ↔
      hs.Pairwise fun a b => b.ink ≤ a.ink :=
  List.pairwise_map

/-- The hotspots that are found are ranked. -/
theorem ranking_rankHotspots (threshold : Int) (ops : List Operation) :
    Ranking threshold ops (rankHotspots threshold ops) := by
  have hfigures := figures_rankHotspots threshold ops
  refine ⟨ranks_rankHotspots threshold ops, ?_, ?_, ?_⟩
  · rw [hfigures]
    exact (List.mergeSort_perm _ _).map hotFigures
  · rw [← pairwise_figures, hfigures, List.pairwise_map]
    exact List.pairwise_mergeSort' (fun a b : Operation => b.ink ≤ a.ink) _
  · intro ink
    rw [filter_figures, hfigures, List.filter_map]
    exact congrArg (List.map hotFigures) (filter_mergeSort Operation.ink _ ink)

/-- The operations have only one ranking. -/
theorem Ranking.eq {threshold : Int} {ops : List Operation} {hs hs' : List Hotspot}
    (h : Ranking threshold ops hs) (h' : Ranking threshold ops hs') : hs = hs' := by
  have hfigures : hs.map Hotspot.figures = hs'.map Hotspot.figures := by
    apply eq_of_filter_eq (pairwise_figures.2 h.descending) (pairwise_figures.2 h'.descending)
    intro ink
    rw [← filter_figures, ← filter_figures, h.ties, h'.ties]
  have hlength : hs.length = hs'.length := by simpa using congrArg List.length hfigures
  have hranks : hs.map (·.rank) = hs'.map (·.rank) := by rw [h.ranks, h'.ranks, hlength]
  have hzip : ∀ l : List Hotspot, (l.map Hotspot.figures).zip (l.map (·.rank)) =
      l.map fun s => (s.figures, s.rank) := fun _ => List.zip_map'
  have hboth : hs.map (fun s => (s.figures, s.rank)) = hs'.map fun s => (s.figures, s.rank) := by
    rw [← hzip, ← hzip, hfigures, hranks]
  apply List.map_injective_iff.2 _ hboth
  intro s s' hs
  cases s
  cases s'
  simp only [Hotspot.figures, Prod.mk.injEq] at hs
  obtain ⟨⟨rfl, rfl, rfl⟩, rfl⟩ := hs
  rfl

/-- Exactly one list is a ranking of the operations above a threshold, and it is the one found. -/
theorem rankHotspots_ranked (threshold : Int) (ops : List Operation) (hs : List Hotspot) :
    hs = rankHotspots threshold ops ↔ Ranking threshold ops hs := by
  constructor
  · intro h
    rw [h]
    exact ranking_rankHotspots threshold ops
  · intro h
    exact h.eq (ranking_rankHotspots threshold ops)

end InkGauge.Analysis
