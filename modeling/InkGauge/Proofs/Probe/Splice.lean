import InkGauge.Proofs.Probe.EditOrder
import InkGauge.Proofs.Probe.SiteOrder

/-!
Patches that stand one behind the other do not overlap as edits. So none can fail, and the outcome
is what one gets by going through the text from front to back and copying whatever lies between
them.
-/

namespace InkGauge.Probe

open Contract

/-- A stretch of text, and the lines that take its place. -/
structure Patch where
  start : Nat
  stop : Nat
  /-- What stands before each line but the first. -/
  indent : List Char
  lines : List (List Char)

namespace Patch

def text (p : Patch) : List Char := ('\n' :: p.indent).intercalate p.lines

def edit (p : Patch) : Edit := ⟨p.start, p.stop, p.text⟩

end Patch

/-- Patches that stand one behind the other from `lo` to `hi`. -/
def PatchesInOrder (lo hi : Nat) : List Patch → Prop
  | [] => lo ≤ hi
  | p :: ps => lo ≤ p.start ∧ p.start < p.stop ∧ PatchesInOrder p.stop hi ps

/-- The text from `lo` on, with patches in the place of what they stand for. -/
def patched (text : List Char) (lo : Nat) : List Patch → List Char
  | [] => text.drop lo
  | p :: ps => (text.take p.start).drop lo ++ p.text ++ patched text p.stop ps

/-- Where the first patch starts. -/
def firstStart (hi : Nat) : List Patch → Nat
  | [] => hi
  | p :: _ => p.start

namespace PatchesInOrder

variable {lo hi : Nat} {ps : List Patch}

theorem le_firstStart (h : PatchesInOrder lo hi ps) : lo ≤ firstStart hi ps := by
  cases ps with
  | nil => exact h
  | cons p ps => exact h.1

theorem le (h : PatchesInOrder lo hi ps) : lo ≤ hi := by
  induction ps generalizing lo with
  | nil => exact h
  | cons p ps ih =>
    have hr := ih h.2.2
    have hlo := h.1
    have hlt := h.2.1
    omega

theorem bounds (h : PatchesInOrder lo hi ps) {p : Patch} (hp : p ∈ ps) :
    lo ≤ p.start ∧ p.start < p.stop ∧ p.stop ≤ hi := by
  induction ps generalizing lo with
  | nil => cases hp
  | cons q ps ih =>
    obtain ⟨hlo, hlt, hrest⟩ := h
    rcases List.mem_cons.1 hp with rfl | hp
    · exact ⟨hlo, hlt, hrest.le⟩
    · obtain ⟨h1, h2, h3⟩ := ih hrest hp
      exact ⟨by omega, h2, h3⟩

theorem pairwise (h : PatchesInOrder lo hi ps) : ps.Pairwise fun p q => p.stop ≤ q.start := by
  induction ps generalizing lo with
  | nil => exact .nil
  | cons p ps ih => exact .cons (fun q hq => (bounds h.2.2 hq).1) (ih h.2.2)

theorem pairwise_edits (h : PatchesInOrder lo hi ps) :
    (ps.map Patch.edit).Pairwise fun a b => a.start < b.start := by
  rw [List.pairwise_map]
  apply h.pairwise.imp_of_mem
  intro p q hp _ hpq
  have hb := (h.bounds hp).2.1
  change (p.start : Int) < (q.start : Int)
  omega

theorem not_overlapping (h : PatchesInOrder lo hi ps) : ¬Overlapping hi (ps.map Patch.edit) := by
  induction ps generalizing lo with
  | nil => exact id
  | cons p ps ih =>
    obtain ⟨-, -, hrest⟩ := h
    have hfirst : nextStart hi (ps.map Patch.edit) = firstStart hi ps := by
      cases ps <;> rfl
    have hle := hrest.le_firstStart
    rw [List.map_cons, Overlapping, hfirst]
    refine not_or.2 ⟨?_, ih hrest⟩
    change ¬((firstStart hi ps : Nat) : Int) < (p.stop : Int)
    omega

end PatchesInOrder

theorem spliced_edits (text : List Char) (lo : Nat) (ps : List Patch) :
    spliced text lo (ps.map Patch.edit) = patched text lo ps := by
  induction ps generalizing lo with
  | nil => rfl
  | cons p ps ih =>
    rw [List.map_cons, spliced, patched, ih]
    rfl

/-- Edits that stand one behind the other can all be made. -/
theorem applyEdits_patches {text : List Char} {ps : List Patch}
    (h : PatchesInOrder 0 text.length ps) :
    applyEdits text (ps.map Patch.edit) = .ok (patched text 0 ps) := by
  have hspans : ∀ e ∈ ps.map Patch.edit, 0 ≤ e.start ∧ e.start ≤ e.stop := by
    intro e he
    obtain ⟨p, hp, rfl⟩ := List.mem_map.1 he
    have hb := (h.bounds hp).2.1
    change 0 ≤ (p.start : Int) ∧ (p.start : Int) ≤ (p.stop : Int)
    omega
  rw [applyEdits_eq_spliced (.refl _) h.pairwise_edits hspans h.not_overlapping, spliced_edits]

/-- Patches that put back what was there change nothing. -/
theorem patched_original {text : List Char} {lo : Nat} {ps : List Patch}
    (h : PatchesInOrder lo text.length ps)
    (ho : ∀ p ∈ ps, p.text = (text.drop p.start).take (p.stop - p.start)) :
    patched text lo ps = text.drop lo := by
  induction ps generalizing lo with
  | nil => rfl
  | cons p ps ih =>
    obtain ⟨hlo, hlt, hrest⟩ := h
    have hle := hrest.le
    have hback : (text.drop p.start).take (p.stop - p.start) ++ text.drop p.stop =
        text.drop p.start := by
      have hd : text.drop p.stop = (text.drop p.start).drop (p.stop - p.start) := by
        rw [List.drop_drop]
        congr 1
        omega
      rw [hd, List.take_append_drop]
    have hfront : (text.take p.start).drop lo ++ text.drop p.start = text.drop lo := by
      have hl : lo ≤ (text.take p.start).length := by
        rw [List.length_take]
        omega
      rw [← List.drop_append_of_le_length hl, List.take_append_drop]
    rw [patched, ih hrest fun q hq => ho q (by simp [hq]), ho p (by simp), List.append_assoc, hback,
      hfront]

end InkGauge.Probe
