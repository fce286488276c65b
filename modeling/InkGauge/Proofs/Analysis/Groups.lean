import InkGauge.Analysis.Function
import Mathlib.Data.List.Induction

/-!
The ink of a function is collected by category, and the lines of its reads by field. Both times a
value goes to the group of its key, and a key that is new comes last. So the keys stand in the order
in which they are first met, a group has the values of its key in their order, and no value is lost.
-/

namespace InkGauge.Analysis

open Cost

section

variable {α κ ν : Type} [DecidableEq κ]

theorem eraseDups_concat (ks : List κ) (k : κ) :
    (ks ++ [k]).eraseDups = if k ∈ ks then ks.eraseDups else ks.eraseDups ++ [k] := by
  rw [List.eraseDups_append]
  by_cases h : k ∈ ks <;> simp [List.removeAll, h, List.eraseDups_cons]

theorem nodup_eraseDups (ks : List κ) : ks.eraseDups.Nodup := by
  induction ks using List.reverseRecOn with
  | nil => exact .nil
  | append_singleton ks k ih =>
    rw [eraseDups_concat]
    split
    · exact ih
    · rename_i hk
      refine List.nodup_append.2 ⟨ih, List.pairwise_singleton _ k, ?_⟩
      intro a ha b hb hab
      rw [hab, List.mem_singleton.1 hb, List.mem_eraseDups] at ha
      exact hk ha

/-- Names that tell keys apart may stand for them. -/
theorem map_eraseDups {μ : Type} [DecidableEq μ] {name : κ → μ} {ks : List κ}
    (h : ∀ a ∈ ks, ∀ b ∈ ks, name a = name b → a = b) :
    ks.eraseDups.map name = (ks.map name).eraseDups := by
  induction ks using List.reverseRecOn with
  | nil => rfl
  | append_singleton ks k ih =>
    have hks := ih fun a ha b hb => h a (List.mem_append_left _ ha) b (List.mem_append_left _ hb)
    have hmem : name k ∈ ks.map name ↔ k ∈ ks := by
      constructor
      · intro hk
        obtain ⟨a, ha, hak⟩ := List.mem_map.1 hk
        rwa [← h a (List.mem_append_left _ ha) k (by simp) hak]
      · exact List.mem_map_of_mem
    rw [List.map_append, List.map_singleton, eraseDups_concat, eraseDups_concat]
    simp only [hmem]
    split
    · exact hks
    · rw [List.map_append, List.map_singleton, hks]

/-- Adds a value to the group of a key; a key that is new comes last. -/
def addTo (k : κ) (v : ν) : List (κ × List ν) → List (κ × List ν)
  | [] => [(k, [v])]
  | (k', vs) :: rest => if k' = k then (k', vs ++ [v]) :: rest else (k', vs) :: addTo k v rest

/-- The values of a list under their keys, in the order in which the keys are first met. -/
def groups (key : α → κ) (value : α → ν) (xs : List α) : List (κ × List ν) :=
  (xs.map key).eraseDups.map fun k => (k, (xs.filter fun x => decide (key x = k)).map value)

theorem addTo_of_not_mem {k : κ} {ks : List κ} (hk : k ∉ ks) (v : ν) (vs : κ → List ν) :
    addTo k v (ks.map fun k' => (k', vs k')) = ks.map (fun k' => (k', vs k')) ++ [(k, [v])] := by
  induction ks with
  | nil => rfl
  | cons k' ks ih =>
    have hne : k' ≠ k := fun he => hk (by simp [he])
    have hks : k ∉ ks := fun hmem => hk (List.mem_cons_of_mem _ hmem)
    rw [List.map_cons, addTo, if_neg hne, ih hks, List.cons_append]

theorem addTo_of_mem {k : κ} {ks : List κ} (hnodup : ks.Nodup) (hk : k ∈ ks) (v : ν)
    (vs : κ → List ν) :
    addTo k v (ks.map fun k' => (k', vs k')) =
      ks.map fun k' => (k', if k' = k then vs k' ++ [v] else vs k') := by
  induction ks with
  | nil => cases hk
  | cons k' ks ih =>
    obtain ⟨hnot, hnodup⟩ := List.nodup_cons.1 hnodup
    rw [List.map_cons, List.map_cons, addTo]
    by_cases hkk : k' = k
    · -- The key is not met again, so the other groups stay as they are.
      subst hkk
      rw [if_pos rfl, if_pos rfl]
      congr 1
      refine List.map_congr_left fun a ha => ?_
      have hne : a ≠ k' := fun he => hnot (he ▸ ha)
      rw [if_neg hne]
    · have hmem : k ∈ ks := (List.mem_cons.1 hk).resolve_left (Ne.symm hkk)
      rw [if_neg hkk, if_neg hkk, ih hnodup hmem]

variable (key : α → κ) (value : α → ν)

theorem addTo_groups (xs : List α) (x : α) :
    addTo (key x) (value x) (groups key value xs) = groups key value (xs ++ [x]) := by
  have hkeys : (xs ++ [x]).map key = xs.map key ++ [key x] := by simp
  rw [groups, groups, hkeys, eraseDups_concat]
  by_cases hx : key x ∈ xs.map key
  · rw [if_pos hx, addTo_of_mem (nodup_eraseDups _) (List.mem_eraseDups.2 hx)]
    refine List.map_congr_left fun k _ => ?_
    by_cases hk : k = key x
    · simp [hk]
    · simp [hk, Ne.symm hk]
  · have hnew : key x ∉ (xs.map key).eraseDups := fun h => hx (List.mem_eraseDups.1 h)
    rw [if_neg hx, addTo_of_not_mem hnew, List.map_append, List.map_singleton]
    congr 1
    · refine List.map_congr_left fun k hk => ?_
      have hne : key x ≠ k := fun he => hnew (he ▸ hk)
      simp [hne]
    · have hnone : (xs.filter fun y => decide (key y = key x)) = [] := by
        refine List.filter_eq_nil_iff.2 fun y hy he => hx ?_
        rw [← of_decide_eq_true he]
        exact List.mem_map_of_mem hy
      simp [hnone]

/-- Values that are added one by one come to stand in groups. -/
theorem foldl_addTo (xs : List α) :
    xs.foldl (fun gs x => addTo (key x) (value x) gs) [] = groups key value xs := by
  induction xs using List.reverseRecOn with
  | nil => rfl
  | append_singleton xs x ih =>
    rw [List.foldl_append, List.foldl_cons, List.foldl_nil, ih]
    exact addTo_groups key value xs x

theorem perm_addTo (k : κ) (v : ν) (gs : List (κ × List ν)) :
    ((addTo k v gs).map Prod.snd).flatten.Perm (v :: (gs.map Prod.snd).flatten) := by
  induction gs with
  | nil => exact .refl _
  | cons g gs ih =>
    rw [addTo]
    split
    · simp
    · simpa using (ih.append_left g.2).trans List.perm_middle

/-- The groups together have the values of the list. -/
theorem perm_groups (xs : List α) :
    ((groups key value xs).map Prod.snd).flatten.Perm (xs.map value) := by
  induction xs using List.reverseRecOn with
  | nil => exact .refl _
  | append_singleton xs x ih =>
    rw [← addTo_groups, List.map_append, List.map_singleton]
    calc ((addTo (key x) (value x) (groups key value xs)).map Prod.snd).flatten.Perm _ :=
          perm_addTo _ _ _
      List.Perm _ (value x :: xs.map value) := ih.cons _
      List.Perm _ (xs.map value ++ [value x]) := (List.perm_append_singleton _ _).symm

variable {key value}

theorem mem_groups {xs : List α} {k : κ} {vs : List ν} (h : (k, vs) ∈ groups key value xs) :
    k ∈ xs.map key ∧ vs = (xs.filter fun x => decide (key x = k)).map value := by
  obtain ⟨k', hk', he⟩ := List.mem_map.1 h
  cases he
  exact ⟨List.mem_eraseDups.1 hk', rfl⟩

/-- A group starts with the value of a member of the list. -/
theorem head_of_mem_groups {xs : List α} {k : κ} {vs : List ν} (h : (k, vs) ∈ groups key value xs) :
    ∃ x ∈ xs, vs.head? = some (value x) := by
  obtain ⟨hk, rfl⟩ := mem_groups h
  obtain ⟨x, hx, hkey⟩ := List.mem_map.1 hk
  have hmem : x ∈ xs.filter fun y => decide (key y = k) := List.mem_filter.2 ⟨hx, by simp [hkey]⟩
  obtain ⟨y, ys, hys⟩ := List.exists_cons_of_ne_nil (List.ne_nil_of_mem hmem)
  have hy : y ∈ xs := (List.mem_filter.1 (hys ▸ List.mem_cons_self)).1
  exact ⟨y, hy, by rw [hys]; rfl⟩

end

theorem addInk_eq_addTo (category : Category) (ink : Int) (gs : List (Category × List Int)) :
    addInk category ink gs = addTo category ink gs := by
  induction gs with
  | nil => rfl
  | cons g gs ih => rw [addInk, addTo, ih]

theorem addRead_eq_addTo (entity : String) (line : Int) (gs : List (String × List Int)) :
    addRead entity line gs = addTo entity line gs := by
  induction gs with
  | nil => rfl
  | cons g gs ih => rw [addRead, addTo, ih]

theorem inksByCategory_eq (ops : List Operation) :
    inksByCategory ops = groups Operation.category Operation.ink ops := by
  rw [inksByCategory]
  simp only [addInk_eq_addTo]
  exact foldl_addTo Operation.category Operation.ink ops

theorem readsByEntity_eq (ops : List Operation) :
    readsByEntity ops = groups Operation.entity Operation.line (ops.filter isNamedRead) := by
  rw [readsByEntity]
  simp only [addRead_eq_addTo]
  exact foldl_addTo Operation.entity Operation.line _

end InkGauge.Analysis
