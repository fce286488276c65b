import InkGauge.Cost.Evidence
import InkGauge.Proofs.Probe.ReadBack
import InkGauge.Proofs.Probe.Session
import Mathlib.Data.List.Perm.Basic
import Mathlib.Data.List.Sort

/-!
Checking a report again finds what was found live.

The lines on overcharges say nothing on the total or the measurements, so these are read back from
every report that was written, whatever the names of the overcharges are. A check looks at no more
than a measurement says. If each probe is met once, the measurements are the records in the order of
the ids, and so are the findings.
-/

namespace InkGauge.Probe

open Number Text

/-- Costs and tolerances that make sense. -/
structure Thresholds.Sound (t : Thresholds) : Prop where
  storageRead : 0 ≤ t.storageRead
  storageWrite : 0 ≤ t.storageWrite
  msgSender : 0 ≤ t.msgSender
  fallback : 0 ≤ t.fallback
  tolerance : 0 ≤ t.tolerance
  perByte : 0 ≤ t.perByte
  sizedMinTolerance : 0 ≤ t.sizedMinTolerance
  sizedToleranceDivisor : 0 < t.sizedToleranceDivisor

namespace Thresholds.Sound

variable {t : Thresholds}

theorem expectedBase_nonneg (h : t.Sound) (operation : String) : 0 ≤ t.expectedBase operation := by
  rw [expectedBase]
  split
  · exact h.storageRead
  split
  · exact h.storageWrite
  split
  · exact h.msgSender
  · exact h.fallback

theorem expectedSized_nonneg (h : t.Sound) (operation : String) {size : Int} (hsize : 0 ≤ size) :
    0 ≤ t.expectedSized operation size := by
  have hbytes : 0 ≤ size * t.perByte := Int.mul_nonneg hsize h.perByte
  have hread := h.storageRead
  have hwrite := h.storageWrite
  rw [expectedSized]
  split <;> omega

theorem not_fails (h : t.Sound) (r : Record) : ¬r.Fails t := by
  rintro ⟨-, -, hzero⟩
  have := h.sizedToleranceDivisor
  omega

theorem taken_eq (h : t.Sound) (rs : List Record) : Tracker.taken t rs = rs :=
  List.filter_eq_self.2 fun r _ => by simpa using h.not_fails r

end Thresholds.Sound

/-- What an overcharge that was found on a record says. -/
structure FoundOn (r : Record) (o : Overcharge) : Prop where
  probeId : o.probeId = r.probeId
  operation : r.operation = some o.operation
  inkCharged : o.inkCharged = r.consumed
  returnSize : o.returnSize = r.returnSize.getD 0
  expected : 0 ≤ o.expected
  amount : o.amount = o.inkCharged - o.expected
  overcharged : o.expected < o.inkCharged

theorem foundOn_of_check {t : Thresholds} (ht : t.Sound) {r : Record} {operation : String}
    (hop : r.operation = some operation) (hsize : r.returnSize = none) {o : Overcharge}
    (h : check t r.probeId operation r.consumed = some o) : FoundOn r o := by
  have hexpected := ht.expectedBase_nonneg operation
  have htolerance := ht.tolerance
  dsimp only [check] at h
  split at h
  · cases h
  · cases h
    exact ⟨rfl, hop, rfl, by rw [hsize]; rfl, hexpected, rfl, by dsimp only; omega⟩

theorem foundOn_of_checkSized {t : Thresholds} (ht : t.Sound) {r : Record} {operation : String}
    (hop : r.operation = some operation) {size : Int} (hsize : r.returnSize = some size)
    (hnonneg : 0 ≤ size) {o : Overcharge}
    (h : checkSized t r.probeId operation r.consumed size = .ok (some o)) : FoundOn r o := by
  have hexpected := ht.expectedSized_nonneg operation hnonneg
  have htolerance := ht.sizedMinTolerance
  dsimp only [checkSized] at h
  split at h
  · cases h
  split at h
  · cases h
  · cases h
    exact ⟨rfl, hop, rfl, by rw [hsize]; rfl, hexpected, rfl, by dsimp only; omega⟩

theorem foundOn_of_finding {t : Thresholds} (ht : t.Sound) {r : Record}
    (hsize : ∀ n ∈ r.returnSize, 0 ≤ n) {o : Overcharge} (h : r.finding t = some o) :
    FoundOn r o := by
  rw [Record.finding] at h
  split at h
  case h_1 => cases h
  case h_2 operation size hop hreturn =>
    split at h
    case h_1 found hcheck =>
      exact foundOn_of_checkSized ht hop hreturn (hsize size hreturn) (h ▸ hcheck)
    case h_2 => cases h
  case h_3 operation hop hreturn =>
    split at h
    case isTrue => exact foundOn_of_check ht hop hreturn h
    case isFalse => cases h

/-- The record that a measurement tells of. -/
def Measurement.record (m : Measurement) : Record :=
  ⟨m.probeId, m.inkBefore, m.inkAfter, m.operation, m.returnSize⟩

namespace Dump

theorem recheck_eq {t : Thresholds} (ht : t.Sound) (d : Dump) :
    d.recheck t = .ok ((d.measurements.map Measurement.record).filterMap (Record.finding t)) := by
  have hcheck : ∀ m : Measurement, checkKnown t m.probeId m.operation m.consumed m.returnSize
      = .ok (m.record.finding t) := fun m =>
    (m.record.checkKnown_eq t).2 (ht.not_fails _)
  have hmap : d.measurements.mapM (fun m => checkKnown t m.probeId m.operation m.consumed
      m.returnSize) = .ok (d.measurements.map fun m => m.record.finding t) := by
    simp only [hcheck]
    exact List.mapM_pure
  rw [recheck, hmap]
  simp [List.filterMap_map, bind, Except.bind, pure, Except.pure]

/-- An overcharge all of whose numbers fit a word. -/
structure HasWords (o : Overcharge) : Prop where
  probeId : IsWord o.probeId
  inkCharged : IsWord o.inkCharged
  returnSize : IsWord o.returnSize
  expected : IsWord o.expected
  amount : IsWord o.amount

/-- A reading in the section on overcharges, with the total and the measurements that it met before. -/
structure InSection (total : Int) (ms : List Measurement) (r : Reading) : Prop where
  inOvercharges : r.inOvercharges = true
  total : r.dump.total = total
  measurements : r.dump.measurements = ms

section InSection

variable {total : Int} {ms : List Measurement} {r : Reading}

theorem InSection.dump_eq (h : InSection total ms r) : r.dump = ⟨total, ms, r.dump.overcharges⟩ := by
  rw [← h.total, ← h.measurements]

theorem InSection.flush (h : InSection total ms r) : InSection total ms r.flush where
  inOvercharges := h.inOvercharges
  total := h.total
  measurements := h.measurements

theorem InSection.take (h : InSection total ms r) (current : Option Overcharge) :
    InSection total ms { r with current := current } where
  inOvercharges := h.inOvercharges
  total := h.total
  measurements := h.measurements

/-- The lines can be read in the section, and do not lead out of it. -/
def StaysIn (ls : List (List Char)) : Prop :=
  ∀ total ms r, InSection total ms r →
    ∃ r', ls.foldlM Reading.line r = .ok r' ∧ InSection total ms r'

theorem StaysIn.append {ls ls' : List (List Char)} (h : StaysIn ls) (h' : StaysIn ls') :
    StaysIn (ls ++ ls') := by
  intro total ms r hr
  obtain ⟨mid, hfirst, hmid⟩ := h total ms r hr
  obtain ⟨last, hsecond, hlast⟩ := h' total ms mid hmid
  exact ⟨last, by rw [foldlM_append_ok hfirst, hsecond], hlast⟩

theorem StaysIn.cons {l : List Char} {ls : List (List Char)} (h : StaysIn [l]) (h' : StaysIn ls) :
    StaysIn (l :: ls) :=
  h.append h'

theorem staysIn_of_line {l : List Char} (h : ∀ {total ms r}, InSection total ms r →
    ∃ r', r.line l = .ok r' ∧ InSection total ms r') : StaysIn [l] := by
  intro total ms r hr
  obtain ⟨r', hline, hr'⟩ := h hr
  exact ⟨r', by rw [foldlM_cons_ok hline]; rfl, hr'⟩

theorem staysIn_entryText (e : Entry) (gap : String) (hne : gap.toList ≠ [])
    (hgap : gap.toList.all isBlank = true) {n : Int} (hn : IsWord n) (tail : String)
    (htail : tail.toList.head?.any isDecimal = false)
    (hlast : tail.toList.getLast?.any (!isBlank ·) = true) :
    StaysIn [(entryText e gap n tail).toList] := by
  apply staysIn_of_line
  intro total ms r h
  obtain ⟨d, inOvercharges, current⟩ := r
  obtain rfl : inOvercharges = true := h.inOvercharges
  cases current with
  | some o =>
    exact ⟨_, line_entryText d o e gap hne hgap hn tail htail hlast, h.take _⟩
  | none =>
    -- Without an overcharge in hand the line is passed over: it is no head of one.
    have hhead : head? (trimRight (entryText e gap n tail).toList) = none := by
      have htrim : trimRight (entryText e gap n tail).toList = (entryText e gap n tail).toList := by
        rw [entryText, String.toList_append]
        exact trimRight_append hlast
      rw [htrim]
      simp only [entryText, String.toList_append, List.append_assoc]
      cases e <;> rfl
    have hsaid : Reading.said ⟨d, true, none⟩ (entryText e gap n tail).toList = .nothing := by
      simp only [Reading.said, if_true, Reading.saidInside, hhead]
    exact ⟨_, by rw [Reading.line, hsaid, Reading.take], h⟩

/-- Behind a character that is not blank only what follows it is trimmed. -/
theorem trimRight_append_of_unblank {s t : List Char} (hs : s.getLast?.any (!isBlank ·) = true) :
    trimRight (s ++ t) = s ++ trimRight t := by
  obtain rfl | ⟨s, c, rfl⟩ := List.eq_nil_or_concat s
  · simp at hs
  have hc : isBlank c = false := by simpa using hs
  rw [trimRight, trimRight, List.reverse_append, List.dropWhile_append]
  split
  case isTrue hempty =>
    rw [List.isEmpty_iff.1 hempty]
    simp [hc]
  case isFalse => simp

theorem head?_of_number {id : Int} (hid : 0 ≤ id) (s : List Char) {found : Numeral × String}
    (h : head? ("🐛 Probe ".toList ++ ((intText id).toList ++ (":".toList ++ s))) = some found) :
    found.1 = .of id := by
  have hmark : ∀ s, head? ("🐛 Probe ".toList ++ s)
      = (headAt? ("Probe ".toList ++ s)).or (headAt? ("🐛 Probe ".toList ++ s)) := fun _ => rfl
  have hnone : ∀ s, headAt? ("🐛 Probe ".toList ++ s) = none := fun _ => rfl
  rw [hmark, hnone, Option.or_none, headAt?, after?_append, Option.bind_eq_bind, Option.bind_some,
    number?_before ":" (by rfl) hid, Option.bind_eq_bind, Option.bind_some] at h
  obtain ⟨rest, -, h⟩ := Option.bind_eq_some_iff.1 h
  split at h
  · cases h
  · exact congrArg Prod.fst (Option.some.inj h).symm

theorem staysIn_head {id : Int} (hid : IsWord id) (operation : String) :
    StaysIn [("🐛 Probe " ++ intText id ++ ": " ++ operation).toList] := by
  apply staysIn_of_line
  intro total ms r h
  have htrim : trimRight ("🐛 Probe " ++ intText id ++ ": " ++ operation).toList
      = "🐛 Probe ".toList ++ ((intText id).toList ++ (":".toList
          ++ trimRight (' ' :: operation.toList))) := by
    have hsplit : ("🐛 Probe " ++ intText id ++ ": " ++ operation).toList
        = ("🐛 Probe ".toList ++ (intText id).toList ++ ":".toList) ++ ' ' :: operation.toList := by
      simp
    rw [hsplit, trimRight_append_of_unblank (by rw [List.getLast?_append]; rfl), List.append_assoc,
      List.append_assoc]
  have hentry : ∀ s, entry? ("🐛 Probe ".toList ++ s) = none := fun _ => rfl
  rw [Reading.line, said_of_entry?_eq_none h.inOvercharges (by rw [htrim, hentry]), htrim]
  cases hhead : head? ("🐛 Probe ".toList ++ ((intText id).toList ++ (":".toList
      ++ trimRight (' ' :: operation.toList)))) with
  | none => exact ⟨r, rfl, h⟩
  | some found =>
    refine ⟨_, ?_, h.flush.take (some ⟨id, found.2, 0, 0, 0, 0⟩)⟩
    rw [Option.elim_some, Reading.take, head?_of_number hid.1 _ hhead, Numeral.toInt_of hid]
    rfl

theorem staysIn_overchargeText {o : Overcharge} (ho : HasWords o) (share : Binary64) :
    StaysIn ((overchargeText o share).map String.toList) := by
  obtain ⟨hshareTail, hshareLast⟩ := shareText_spec share
  have hempty : StaysIn ["".toList] := staysIn_of_line fun h => ⟨_, line_empty h.inOvercharges, h⟩
  exact (staysIn_head ho.probeId o.operation)
    |>.cons <| (staysIn_entryText .charged "   " (by decide) (by rfl) ho.inkCharged " ink" (by rfl)
      (by rfl))
    |>.cons <| (staysIn_entryText .expected "  " (by decide) (by rfl) ho.expected " ink" (by rfl)
      (by rfl))
    |>.cons <| (staysIn_entryText .amount " " (by decide) (by rfl) ho.amount _ hshareTail hshareLast)
    |>.cons <| (staysIn_entryText .returnSize " " (by decide) (by rfl) ho.returnSize " bytes"
      (by rfl) (by rfl))
    |>.cons hempty

end InSection

/-- An overcharge that can be written, though its name may not be read back. -/
structure Writable (o : Overcharge) : Prop where
  words : HasWords o
  oneLine : oneLine o.operation.toList = true

theorem mapM_overchargeLines_of_writable {os : List Overcharge} (h : ∀ o ∈ os, Writable o) :
    ∃ parts, os.mapM overchargeLines = .ok parts ∧ (∀ l ∈ parts.flatten, oneLine l.toList = true)
      ∧ StaysIn (parts.flatten.map String.toList) := by
  induction os with
  | nil => exact ⟨[], rfl, by simp, fun _ _ r hr => ⟨r, rfl, hr⟩⟩
  | cons o os ih =>
    have ho := h o List.mem_cons_self
    obtain ⟨share, hshare⟩ := percentage_eq_ok ho.words.amount
    obtain ⟨parts, hparts, hline, hread⟩ := ih fun o' ho' => h o' (List.mem_cons_of_mem _ ho')
    refine ⟨overchargeText o share :: parts, ?_, fun l hl => ?_, ?_⟩
    · rw [List.mapM_cons, overchargeLines_eq hshare, hparts]
      rfl
    · rcases List.mem_append.1 hl with hl | hl
      · exact oneLine_overchargeText ho.oneLine share l hl
      · exact hline l hl
    · rw [List.flatten_cons, List.map_append]
      exact (staysIn_overchargeText ho.words share).append hread

theorem overchargeSection_of_writable {os : List Overcharge} (h : ∀ o ∈ os, Writable o) :
    ∃ found, overchargeSection os = .ok found ∧ (∀ l ∈ found, oneLine l.toList = true)
      ∧ ∀ total ms, ∃ r os', (found.map String.toList).foldlM Reading.line
          ⟨⟨total, ms, []⟩, false, none⟩ = .ok r ∧ r.flush.dump = ⟨total, ms, os'⟩ := by
  cases os with
  | nil => exact ⟨[], rfl, by simp, fun _ _ => ⟨_, [], rfl, rfl⟩⟩
  | cons o os =>
    obtain ⟨parts, hparts, hline, hread⟩ := mapM_overchargeLines_of_writable h
    refine ⟨sectionOpening ++ parts.flatten, overchargeSection_eq (by simp) hparts, ?_,
      fun total ms => ?_⟩
    · intro l hl
      exact (List.mem_append.1 hl).elim (oneLine_sectionOpening l) (hline l)
    · obtain ⟨r, hr, hend⟩ := hread total ms ⟨⟨total, ms, []⟩, true, none⟩
        ⟨rfl, rfl, rfl⟩
      refine ⟨r, _, ?_, hend.flush.dump_eq⟩
      rw [List.map_append, foldlM_append_ok (foldlM_sectionOpening _), hr]

/-- The total and the measurements are read back from a report, whatever its overcharges are. -/
theorem read_of_writable {d : Dump} (htotal : IsWord d.total)
    (hms : ∀ m ∈ d.measurements, LegibleMeasurement m) (hos : ∀ o ∈ d.overcharges, Writable o) :
    ∃ text os, d.render = .ok text
      ∧ read text.toList = .ok ⟨d.total, d.measurements.map once, os⟩ := by
  obtain ⟨found, hfound, hline, hread⟩ := overchargeSection_of_writable hos
  obtain ⟨r, os, hr, hdump⟩ := hread d.total (d.measurements.map once)
  refine ⟨_, os, render_eq hfound, ?_⟩
  rw [read_reportLines htotal hms hline hr, hdump]

theorem isWord_inkBetween {before after : Int} (hbefore : IsWord before) (hafter : IsWord after) :
    IsWord (inkBetween before after) := by
  rw [IsWord] at *
  rw [inkBetween]
  omega

/-- What is found on a measurement that can be read back costs no more than its ink. -/
theorem writable_of_foundOn {m : Measurement} (hm : LegibleMeasurement m) {o : Overcharge}
    (h : FoundOn m.record o) : Writable o := by
  have hcharged : IsWord o.inkCharged := h.inkCharged ▸ isWord_inkBetween hm.inkBefore hm.inkAfter
  have hexpected := h.expected
  have hover := h.overcharged
  refine ⟨⟨h.probeId ▸ hm.probeId, hcharged, ?_, ?_, ?_⟩, (hm.operation _ h.operation).oneLine⟩
  · rw [h.returnSize]
    cases hsize : m.record.returnSize with
    | none => decide
    | some size => exact hm.returnSize size hsize
  · rw [IsWord] at *
    omega
  · rw [h.amount]
    rw [IsWord] at *
    omega

theorem writable_of_finding {t : Thresholds} (ht : t.Sound) {ms : List Measurement}
    (hms : ∀ m ∈ ms, LegibleMeasurement m) :
    ∀ o ∈ (ms.map Measurement.record).filterMap (Record.finding t), Writable o := by
  intro o ho
  obtain ⟨_, hr, hfound⟩ := List.mem_filterMap.1 ho
  obtain ⟨m, hm, rfl⟩ := List.mem_map.1 hr
  have hlegible := hms m hm
  exact writable_of_foundOn hlegible
    (foundOn_of_finding ht (fun n hn => (hlegible.returnSize n hn).1) hfound)

end Dump

theorem perm_addRecord {r : Record} {ms : List Measurement} (h : ∀ m ∈ ms, m.probeId ≠ r.probeId) :
    (addRecord r ms).Perm (r.measurement :: ms) := by
  induction ms with
  | nil => exact .refl _
  | cons m ms ih =>
    have hne := h m List.mem_cons_self
    rw [addRecord]
    split
    case isTrue => exact .refl _
    case isFalse =>
      rw [if_neg hne.symm]
      exact ((ih fun m' hm' => h m' (List.mem_cons_of_mem _ hm')).cons m).trans (.swap ..)

/-- If each probe is met once, its measurement is its record. -/
theorem perm_foldl_addRecord {rs : List Record} (h : (rs.map Record.probeId).Nodup) :
    (rs.foldl (fun ms r => addRecord r ms) []).Perm (rs.map Record.measurement) := by
  induction rs using List.reverseRecOn with
  | nil => exact .refl _
  | append_singleton rs r ih =>
    rw [List.map_append, List.map_singleton, List.nodup_append] at h
    obtain ⟨hrest, -, hdisjoint⟩ := h
    have hperm := ih hrest
    have hnew : ∀ m ∈ rs.foldl (fun ms r => addRecord r ms) [], m.probeId ≠ r.probeId := by
      intro m hm
      obtain ⟨r', hr', rfl⟩ := List.mem_map.1 (hperm.mem_iff.1 hm)
      exact hdisjoint _ (List.mem_map_of_mem hr') _ (List.mem_singleton_self _)
    rw [List.foldl_append, List.map_append]
    calc (addRecord r (rs.foldl (fun ms r => addRecord r ms) [])).Perm _ := perm_addRecord hnew
      List.Perm _ (r.measurement :: rs.map Record.measurement) := hperm.cons _
      List.Perm _ (rs.map Record.measurement ++ [r.measurement]) := (List.perm_append_singleton _ _).symm

/-- A list in the order of ids that are all different is the result of sorting by them. -/
theorem eq_mergeSort_of_perm {found live : List Overcharge} (hperm : found.Perm live)
    (h : found.Pairwise (·.probeId < ·.probeId)) :
    found = live.mergeSort fun a b => a.probeId ≤ b.probeId := by
  have hnodup : (found.map Overcharge.probeId).Nodup :=
    List.pairwise_map.2 (h.imp fun hlt => Int.ne_of_lt hlt)
  have hsorted : (live.mergeSort fun a b => a.probeId ≤ b.probeId).Pairwise
      fun a b => a.probeId ≤ b.probeId := by
    have hle : (live.mergeSort fun a b => a.probeId ≤ b.probeId).Pairwise
        fun a b => decide (a.probeId ≤ b.probeId) = true :=
      List.pairwise_mergeSort (fun a b c hab hbc => by simp only [decide_eq_true_eq] at *; omega)
        (fun a b => by simp only [Bool.or_eq_true, decide_eq_true_eq]; omega) live
    simpa using hle
  have hsort := hperm.trans (List.mergeSort_perm live fun a b => a.probeId ≤ b.probeId).symm
  refine hsort.eq_of_pairwise (fun a b ha hb hab hba => ?_) (h.imp Int.le_of_lt) hsorted
  exact List.inj_on_of_nodup_map hnodup ha (hsort.mem_iff.2 hb) (Int.le_antisymm hab hba)

/-- A record as a probe that was put into a contract makes it. -/
structure Record.Probed (r : Record) : Prop where
  probeId : Dump.IsWord r.probeId
  inkBefore : Dump.IsWord r.inkBefore
  inkAfter : Dump.IsWord r.inkAfter
  returnSize : ∀ size ∈ r.returnSize, Dump.IsWord size
  operation : ∀ name ∈ r.operation, ∃ c : Cost.ProbeClass, name = c.name

theorem Record.Probed.legible {r : Record} (h : r.Probed) :
    Dump.LegibleMeasurement r.measurement where
  probeId := h.probeId
  inkBefore := h.inkBefore
  inkAfter := h.inkAfter
  returnSize := h.returnSize
  operation name hname := by
    obtain ⟨c, rfl⟩ := h.operation name hname
    cases c <;> exact ⟨by decide, by decide, by decide, by decide⟩

namespace Tracker

/-- What is found again in the measurements of a session is what was found live, in the order of the
ids. -/
theorem findings_eq_mergeSort {t : Thresholds} (ht : t.Sound) {rs : List Record}
    (hrs : ∀ r ∈ rs, r.Probed) (h : (rs.map Record.probeId).Nodup) :
    ((rs.foldl (fun ms r => addRecord r ms) []).map Measurement.record).filterMap (Record.finding t)
      = (rs.filterMap (Record.finding t)).mergeSort fun a b => a.probeId ≤ b.probeId := by
  have hperm : ((rs.foldl (fun ms r => addRecord r ms) []).map Measurement.record).Perm rs := by
    have := (perm_foldl_addRecord h).map Measurement.record
    rwa [List.map_map, show Measurement.record ∘ Record.measurement = id from rfl, List.map_id] at this
  have hid : ∀ r ∈ rs, ∀ o, r.finding t = some o → o.probeId = r.probeId := fun r hr o ho =>
    (foundOn_of_finding ht (fun n hn => ((hrs r hr).returnSize n hn).1) ho).probeId
  have hordered : ((rs.foldl (fun ms r => addRecord r ms) []).map Measurement.record).Pairwise
      (·.probeId < ·.probeId) := List.pairwise_map.2 (foldl_addRecord rs).1
  refine eq_mergeSort_of_perm (hperm.filterMap _) (List.pairwise_filterMap.2 ?_)
  refine hordered.imp_of_mem fun {a b} ha hb hlt o ho o' ho' => ?_
  rw [hid a (hperm.mem_iff.1 ha) o ho, hid b (hperm.mem_iff.1 hb) o' ho']
  exact hlt

/-- Reading back the report of a session and checking it again gives what was found live, in the
order of the ids. -/
theorem recheck_dump {t : Thresholds} (ht : t.Sound) {counter : Nat → Int}
    (hcounter : ∀ n, Dump.IsWord (counter n)) (pre post : List Call) (hpost : Call.init ∉ post)
    (hrecords : ∀ r ∈ handedIn counter (readings pre + 1) post, r.Probed)
    (honce : ((handedIn counter (readings pre + 1) post).map Record.probeId).Nodup) :
    ∃ text d, ((new t).run counter 0 (pre ++ .init :: post)).dump
        (counter (readings (pre ++ .init :: post))) = .ok text
      ∧ Dump.read text.toList = .ok d
      ∧ d.recheck t = .ok (((new t).run counter 0 (pre ++ .init :: post)).overcharges.mergeSort
          fun a b => a.probeId ≤ b.probeId) := by
  rw [run_since_init hpost, foldl_take, ht.taken_eq, List.nil_append]
  generalize handedIn counter (readings pre + 1) post = rs at hrecords honce
  have htotal : Dump.IsWord (inkBetween (counter (readings pre))
      (counter (readings (pre ++ .init :: post)))) :=
    Dump.isWord_inkBetween (hcounter _) (hcounter _)
  generalize hms : rs.foldl (fun ms r => addRecord r ms) [] = ms
  have hlegible : ∀ m ∈ ms, Dump.LegibleMeasurement m := by
    intro m hm
    obtain ⟨r, hr, rfl⟩ := List.mem_map.1 ((perm_foldl_addRecord honce).mem_iff.1 (hms ▸ hm))
    exact (hrecords r hr).legible
  have hfound := hms ▸ findings_eq_mergeSort ht hrecords honce
  have hwritable : ∀ o ∈ rs.filterMap (Record.finding t), Dump.Writable o := by
    intro o ho
    refine Dump.writable_of_finding ht hlegible o ?_
    rw [hfound]
    exact (List.mergeSort_perm _ _).mem_iff.2 ho
  obtain ⟨text, os, hrender, hread⟩ := Dump.read_of_writable
    (d := ⟨_, ms, rs.filterMap (Record.finding t)⟩) htotal hlegible hwritable
  refine ⟨text, _, hrender, hread, ?_⟩
  rw [Dump.recheck_eq ht, List.map_map, show Measurement.record ∘ Dump.once = Measurement.record from rfl,
    hfound]
  rfl

/-- Two probes that are met against the order of their ids, each at too high a cost. -/
def sampleSession : List Call :=
  [.measure ⟨7, 2000000, 100, some "storage_read", none⟩,
    .measure ⟨3, 2000000, 100, some "storage_write", some 64⟩, .after 5 500 none]

theorem sound_default : Thresholds.default.Sound := by constructor <;> decide

theorem probed_sampleSession (n : Nat) :
    ∀ r ∈ handedIn (fun _ => 100) n sampleSession, r.Probed := by
  have hrecords : handedIn (fun _ => 100) n sampleSession
      = [⟨7, 2000000, 100, some "storage_read", none⟩,
        ⟨3, 2000000, 100, some "storage_write", some 64⟩, ⟨5, 500, 100, none, none⟩] := rfl
  rw [hrecords]
  simp only [List.forall_mem_cons, List.not_mem_nil, false_implies, implies_true, and_true]
  refine ⟨⟨by decide, by decide, by decide, by simp, ?_⟩,
    ⟨by decide, by decide, by decide, by simp [Dump.IsWord], ?_⟩,
    ⟨by decide, by decide, by decide, by simp, by simp⟩⟩
  · rintro _ ⟨⟩
    exact ⟨.storageRead, rfl⟩
  · rintro _ ⟨⟩
    exact ⟨.storageWrite, rfl⟩

theorem recheck_dump_sampleSession :
    Thresholds.default.Sound ∧ (∀ r ∈ handedIn (fun _ => 100) 2 sampleSession, r.Probed)
    ∧ ((new .default).run (fun _ => 100) 0 (.after 1 2 none :: .init :: sampleSession)).overcharges
      = [⟨7, "storage_read", 1999900, 0, 650000, 1349900⟩,
        ⟨3, "storage_write", 1999900, 64, 901920, 1097980⟩]
    ∧ ∃ text d, ((new .default).run (fun _ => 100) 0 (.after 1 2 none :: .init :: sampleSession)).dump
        100 = .ok text
      ∧ Dump.read text.toList = .ok d
      ∧ d.recheck .default = .ok (((new .default).run (fun _ => 100) 0
          (.after 1 2 none :: .init :: sampleSession)).overcharges.mergeSort
            fun a b => a.probeId ≤ b.probeId) :=
  ⟨sound_default, probed_sampleSession 2, by decide,
    recheck_dump sound_default (fun _ => by decide) [.after 1 2 none] sampleSession (by decide)
      (probed_sampleSession _) (by decide)⟩

end Tracker

end InkGauge.Probe
