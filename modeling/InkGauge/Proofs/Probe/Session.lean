import InkGauge.Probe.Dump
import Mathlib.Algebra.Ring.Nat
import Mathlib.Data.List.Basic
import Mathlib.Data.List.Induction
import Mathlib.Tactic.Common

/-!
Since its last start a tracker has taken the records that were handed in, those apart whose check
failed. It has one measurement for each probe of these records, in the order of the ids, and what
was found on the records, in the order in which they came.
-/

namespace InkGauge.Probe

open Number

namespace Tracker

/-- A call of a tracker. -/
inductive Call where
  | init
  | measure (r : Record)
  | after (probeId inkBefore : Int) (operation : Option String)
  | afterSized (probeId inkBefore size : Int) (operation : Option String)
  deriving DecidableEq

namespace Call

/-- How often a call reads the counter. -/
def readings : Call → Nat
  | measure _ => 0
  | init | after .. | afterSized .. => 1

/-- The record that a call hands in at a reading of the counter. -/
def record? (now : Int) : Call → Option Record
  | init => none
  | measure r => some r
  | after id before operation => some ⟨id, before, now, operation, none⟩
  | afterSized id before size operation => some ⟨id, before, now, operation, some size⟩

theorem record?_eq_none_iff {now : Int} {c : Call} : c.record? now = none ↔ c = init := by
  cases c <;> simp [record?]

end Call

/-- The tracker after a record was handed in, whether or not its check failed. -/
def take (t : Tracker) (r : Record) : Tracker := (t.record r).2

def step (t : Tracker) (now : Int) (c : Call) : Tracker :=
  match c.record? now with
  | none => t.init now
  | some r => t.take r

/-- The tracker after calls, the counter having been read `n` times before. -/
def run (counter : Nat → Int) (n : Nat) (t : Tracker) : List Call → Tracker
  | [] => t
  | c :: cs => (t.step (counter n) c).run counter (n + c.readings) cs

/-- How often calls read the counter. -/
def readings (cs : List Call) : Nat := (cs.map Call.readings).sum

/-- The records that calls hand in, the counter having been read `n` times before. -/
def handedIn (counter : Nat → Int) (n : Nat) : List Call → List Record
  | [] => []
  | c :: cs => (c.record? (counter n)).toList ++ handedIn counter (n + c.readings) cs

theorem run_append (counter : Nat → Int) (n : Nat) (t : Tracker) (cs ds : List Call) :
    t.run counter n (cs ++ ds) = (t.run counter n cs).run counter (n + readings cs) ds := by
  induction cs generalizing n t with
  | nil => rfl
  | cons c cs ih =>
    have hsum : n + readings (c :: cs) = n + c.readings + readings cs := by
      rw [readings, List.map_cons, List.sum_cons, ← Nat.add_assoc]
      rfl
    rw [List.cons_append, run, ih, hsum, run]

/-- Calls that do not start over only hand in records. -/
theorem run_of_init_not_mem {cs : List Call} (h : Call.init ∉ cs) (counter : Nat → Int) (n : Nat)
    (t : Tracker) : t.run counter n cs = (handedIn counter n cs).foldl take t := by
  induction cs generalizing n t with
  | nil => rfl
  | cons c cs ih =>
    obtain ⟨hc, hcs⟩ := List.ne_and_not_mem_of_not_mem_cons h
    obtain ⟨r, hr⟩ : ∃ r, c.record? (counter n) = some r :=
      Option.ne_none_iff_exists'.1 fun hnone => hc (Call.record?_eq_none_iff.1 hnone).symm
    have hstep : t.step (counter n) c = t.take r := by rw [step, hr]
    rw [run, ih hcs, hstep, handedIn, hr, Option.toList_some, List.singleton_append,
      List.foldl_cons]

end Tracker

namespace Record

/-- The check of a sized operation fails if its tolerance is no number. -/
def Fails (t : Thresholds) (r : Record) : Prop :=
  r.operation.isSome ∧ r.returnSize.isSome ∧ t.sizedToleranceDivisor = 0

instance (t : Thresholds) (r : Record) : Decidable (r.Fails t) :=
  inferInstanceAs (Decidable (_ ∧ _ ∧ _))

def consumed (r : Record) : Int := inkBetween r.inkBefore r.inkAfter

/-- What is found on a record whose check does not fail. -/
def finding (t : Thresholds) (r : Record) : Option Overcharge :=
  match r.operation, r.returnSize with
  | none, _ => none
  | some operation, some size =>
    match checkSized t r.probeId operation r.consumed size with
    | .ok found => found
    | .error _ => none
  | some operation, none =>
    if shouldCheck operation then check t r.probeId operation r.consumed else none

theorem checkSized_eq_error_iff {t : Thresholds} {id : Int} {operation : String}
    {ink size : Int} :
    (∃ e, checkSized t id operation ink size = .error e) ↔ t.sizedToleranceDivisor = 0 := by
  by_cases h : t.sizedToleranceDivisor = 0
  · simp [checkSized, h]
  · simp only [checkSized, h, if_false, iff_false, not_exists]
    intro e
    split <;> exact nofun

theorem checkKnown_eq (t : Thresholds) (r : Record) :
    (r.Fails t → ∃ e, checkKnown t r.probeId r.operation r.consumed r.returnSize = .error e)
    ∧ (¬r.Fails t →
      checkKnown t r.probeId r.operation r.consumed r.returnSize = .ok (r.finding t)) := by
  obtain ⟨id, before, after, operation, size⟩ := r
  cases operation with
  | none => simp [Fails, checkKnown, finding]
  | some operation =>
    cases size with
    | none => simp [Fails, checkKnown, finding]
    | some size =>
      refine ⟨fun h => checkSized_eq_error_iff.2 h.2.2, fun h => ?_⟩
      cases hcheck : checkSized t id operation (inkBetween before after) size with
      | error e =>
        exact absurd ⟨rfl, rfl, checkSized_eq_error_iff.1 ⟨e, hcheck⟩⟩ h
      | ok found => simp [checkKnown, finding, consumed, hcheck]

end Record

namespace Tracker

theorem record_of_fails {t : Tracker} {r : Record} (h : r.Fails t.thresholds) :
    ∃ e, t.record r = (.error e, t) := by
  obtain ⟨e, he⟩ := (r.checkKnown_eq t.thresholds).1 h
  exact ⟨e, by rw [record, ← Record.consumed, he]⟩

theorem record_eq_error_iff {t : Tracker} {r : Record} :
    (∃ e, (t.record r).1 = .error e) ↔ r.Fails t.thresholds := by
  by_cases h : r.Fails t.thresholds
  · obtain ⟨e, he⟩ := record_of_fails h
    exact iff_of_true ⟨e, by rw [he]⟩ h
  · refine iff_of_false ?_ h
    rw [record, ← Record.consumed, (r.checkKnown_eq t.thresholds).2 h]
    rintro ⟨e, he⟩
    cases hs : t.session <;> rw [hs] at he <;> cases he

/-- A record whose check fails leaves the tracker as it was. -/
theorem take_of_fails {t : Tracker} {r : Record} (h : r.Fails t.thresholds) : t.take r = t := by
  obtain ⟨e, he⟩ := record_of_fails h
  rw [take, he]

theorem take_of_not_started {t : Tracker} (h : t.session = none) (r : Record) : t.take r = t := by
  by_cases hr : r.Fails t.thresholds
  · exact take_of_fails hr
  · have hcheck := (r.checkKnown_eq t.thresholds).2 hr
    rw [take, record, ← Record.consumed, hcheck, h]

theorem take_of_started {t : Thresholds} {r : Record} (h : ¬r.Fails t) (start : Int)
    (ms : List Measurement) (os : List Overcharge) :
    take ⟨t, some ⟨start, ms, os⟩⟩ r
      = ⟨t, some ⟨start, addRecord r ms, os ++ (r.finding t).toList⟩⟩ := by
  have hcheck := (r.checkKnown_eq t).2 h
  rw [take, record, ← Record.consumed, hcheck]

/-- The records that are taken. -/
def taken (t : Thresholds) (rs : List Record) : List Record := rs.filter (¬Record.Fails t ·)

/-- Records that are handed in to a tracker that was started. -/
theorem foldl_take (t : Thresholds) (start : Int) (rs : List Record) (ms : List Measurement)
    (os : List Overcharge) :
    rs.foldl take ⟨t, some ⟨start, ms, os⟩⟩
      = ⟨t, some ⟨start, (taken t rs).foldl (fun ms r => addRecord r ms) ms,
          os ++ (taken t rs).filterMap (Record.finding t)⟩⟩ := by
  induction rs generalizing ms os with
  | nil => simp [taken]
  | cons r rs ih =>
    by_cases h : r.Fails t
    · have hrest : taken t (r :: rs) = taken t rs := List.filter_cons_of_neg (by simpa using h)
      rw [List.foldl_cons, take_of_fails h, ih, hrest]
    · have hrest : taken t (r :: rs) = r :: taken t rs :=
        List.filter_cons_of_pos (by simpa using h)
      have hfound : (r.finding t).toList ++ (taken t rs).filterMap (Record.finding t)
          = (r :: taken t rs).filterMap (Record.finding t) := by
        rw [List.filterMap_cons]
        cases r.finding t <;> rfl
      rw [List.foldl_cons, take_of_started h, ih, hrest, List.foldl_cons, List.append_assoc, hfound]

end Tracker

/-- What the records of one probe come to. -/
def summary (rs : List Record) : Option Measurement := do
  let first ← rs.head?
  let last ← rs.getLast?
  return {
    probeId := first.probeId
    inkBefore := last.inkBefore
    inkAfter := last.inkAfter
    count := rs.length
    returnSize := (rs.filterMap Record.returnSize).getLast?
    operation := first.operation }

theorem summary_concat (rs : List Record) (r : Record) :
    summary (rs ++ [r]) = some ((summary rs).elim r.measurement (·.update r)) := by
  have hsize : ((rs ++ [r]).filterMap Record.returnSize).getLast?
      = r.returnSize.or (rs.filterMap Record.returnSize).getLast? := by
    rw [List.filterMap_append, List.getLast?_append]
    cases h : r.returnSize <;> simp [h]
  cases rs with
  | nil =>
    rw [summary, hsize]
    simp [summary, Record.measurement]
  | cons first rs =>
    rw [summary, hsize, List.getLast?_concat, summary, List.getLast?_cons]
    simp [Measurement.update]

/-- The measurement of a probe. -/
def measurementOf (ms : List Measurement) (id : Int) : Option Measurement :=
  ms.find? (·.probeId = id)

theorem measurementOf_cons (m : Measurement) (ms : List Measurement) (id : Int) :
    measurementOf (m :: ms) id = if m.probeId = id then some m else measurementOf ms id := by
  rw [measurementOf, List.find?_cons]
  by_cases h : m.probeId = id <;> simp [h, measurementOf]

theorem measurementOf_eq_none {ms : List Measurement} {id : Int}
    (h : ∀ m ∈ ms, m.probeId ≠ id) : measurementOf ms id = none :=
  List.find?_eq_none.2 fun m hm => by simpa using h m hm

/-- One measurement to an id, in the order of the ids. -/
def Ordered (ms : List Measurement) : Prop := ms.Pairwise (·.probeId < ·.probeId)

theorem mem_iff_measurementOf {ms : List Measurement} (h : Ordered ms) {m : Measurement} :
    m ∈ ms ↔ measurementOf ms m.probeId = some m := by
  induction ms with
  | nil => simp [measurementOf]
  | cons m' ms ih =>
    obtain ⟨hfirst, hrest⟩ := List.pairwise_cons.1 h
    rw [measurementOf_cons, List.mem_cons]
    split
    case isTrue hid =>
      have hnot : m ∉ ms := fun hm => Int.ne_of_lt (hfirst m hm) hid
      simp [hnot, eq_comm]
    case isFalse hid =>
      have hne : m ≠ m' := fun hm => hid (hm ▸ rfl)
      simp [hne, ih hrest]

theorem mem_addRecord {r : Record} {ms : List Measurement} {m : Measurement}
    (h : m ∈ addRecord r ms) : m.probeId = r.probeId ∨ m ∈ ms := by
  induction ms with
  | nil => exact .inl (by rw [List.mem_singleton.1 h]; rfl)
  | cons m' ms ih =>
    rw [addRecord] at h
    split at h
    case isTrue =>
      rcases List.mem_cons.1 h with rfl | h
      · exact .inl rfl
      · exact .inr h
    case isFalse =>
      split at h <;> rcases List.mem_cons.1 h with rfl | h
      case isTrue.inl hid => exact .inl hid.symm
      case isTrue.inr => exact .inr (List.mem_cons_of_mem _ h)
      case isFalse.inl => exact .inr List.mem_cons_self
      case isFalse.inr => exact (ih h).imp_right (List.mem_cons_of_mem _)

theorem ordered_addRecord {ms : List Measurement} (h : Ordered ms) (r : Record) :
    Ordered (addRecord r ms) := by
  induction ms with
  | nil => exact List.pairwise_singleton _ _
  | cons m ms ih =>
    obtain ⟨hfirst, hrest⟩ := List.pairwise_cons.1 h
    rw [addRecord]
    split
    case isTrue hlt =>
      refine List.pairwise_cons.2 ⟨fun m' hm' => ?_, h⟩
      rcases List.mem_cons.1 hm' with rfl | hm'
      · exact hlt
      · exact Int.lt_trans hlt (hfirst m' hm')
    case isFalse hlt =>
      split
      case isTrue => exact List.pairwise_cons.2 ⟨hfirst, hrest⟩
      case isFalse hne =>
        refine List.pairwise_cons.2 ⟨fun m' hm' => ?_, ih hrest⟩
        rcases mem_addRecord hm' with hid | hm'
        · omega
        · exact hfirst m' hm'

/-- A record goes into the measurement of its probe and changes no other. -/
theorem measurementOf_addRecord {ms : List Measurement} (h : Ordered ms) (r : Record) (id : Int) :
    measurementOf (addRecord r ms) id
      = if r.probeId = id then some ((measurementOf ms id).elim r.measurement (·.update r))
        else measurementOf ms id := by
  induction ms with
  | nil =>
    rw [addRecord, measurementOf_cons]
    rfl
  | cons m ms ih =>
    obtain ⟨hfirst, hrest⟩ := List.pairwise_cons.1 h
    rw [addRecord]
    split
    case isTrue hlt =>
      -- The ids of the measurements are all above that of the record.
      have hnone : r.probeId = id → measurementOf (m :: ms) id = none := fun hid =>
        measurementOf_eq_none fun m' hm' => by
          rcases List.mem_cons.1 hm' with rfl | hm'
          · omega
          · have := hfirst m' hm'
            omega
      rw [measurementOf_cons, show r.measurement.probeId = r.probeId from rfl]
      by_cases hid : r.probeId = id
      · rw [if_pos hid, if_pos hid, hnone hid]
        rfl
      · rw [if_neg hid, if_neg hid]
    case isFalse hlt =>
      split
      case isTrue heq =>
        rw [measurementOf_cons, measurementOf_cons, show (m.update r).probeId = m.probeId from rfl,
          heq]
        split <;> rfl
      case isFalse hne =>
        rw [measurementOf_cons, measurementOf_cons, ih hrest]
        by_cases hid : m.probeId = id
        · rw [if_pos hid, if_neg (by omega), if_pos hid]
        · rw [if_neg hid, if_neg hid]

/-- The records of a probe. -/
def recordsOf (rs : List Record) (id : Int) : List Record := rs.filter (·.probeId = id)

/-- The invariant of a session: each probe has what its records come to. -/
theorem foldl_addRecord (rs : List Record) :
    Ordered (rs.foldl (fun ms r => addRecord r ms) [])
    ∧ ∀ id, measurementOf (rs.foldl (fun ms r => addRecord r ms) []) id
      = summary (recordsOf rs id) := by
  induction rs using List.reverseRecOn with
  | nil => exact ⟨List.Pairwise.nil, fun _ => rfl⟩
  | append_singleton rs r ih =>
    obtain ⟨hordered, hsum⟩ := ih
    rw [List.foldl_append, List.foldl_cons, List.foldl_nil]
    refine ⟨ordered_addRecord hordered r, fun id => ?_⟩
    have hof : recordsOf (rs ++ [r]) id = recordsOf rs id ++ recordsOf [r] id :=
      List.filter_append ..
    rw [measurementOf_addRecord hordered, hsum, hof]
    by_cases hid : r.probeId = id
    · rw [if_pos hid, show recordsOf [r] id = [r] from List.filter_cons_of_pos (by simpa using hid),
        summary_concat]
    · rw [if_neg hid, show recordsOf [r] id = [] from List.filter_cons_of_neg (by simpa using hid),
        List.append_nil]

namespace Tracker

/-- What a tracker holds that has taken records since it was started. -/
structure Holds (thresholds : Thresholds) (t : Tracker) (rs : List Record) : Prop where
  ordered : t.measurements.Pairwise (·.probeId < ·.probeId)
  measurements : ∀ m, m ∈ t.measurements ↔ summary (recordsOf rs m.probeId) = some m
  overcharges : t.overcharges = rs.filterMap (Record.finding thresholds)

theorem holds_foldl_take (t : Thresholds) (start : Int) (rs : List Record) :
    Holds t (rs.foldl take ⟨t, some ⟨start, [], []⟩⟩) (taken t rs) := by
  obtain ⟨hordered, hsum⟩ := foldl_addRecord (taken t rs)
  rw [foldl_take]
  exact ⟨hordered, fun m => by rw [← hsum, ← mem_iff_measurementOf hordered]; rfl, rfl⟩

theorem foldl_take_of_not_started {t : Tracker} (h : t.session = none) (rs : List Record) :
    rs.foldl take t = t := by
  induction rs with
  | nil => rfl
  | cons r rs ih => rw [List.foldl_cons, take_of_not_started h, ih]

theorem thresholds_take (t : Tracker) (r : Record) : (t.take r).thresholds = t.thresholds := by
  obtain ⟨thresholds, _ | s⟩ := t
  · rw [take_of_not_started rfl]
  · by_cases h : r.Fails thresholds
    · rw [take_of_fails h]
    · rw [take_of_started h]

theorem thresholds_run (counter : Nat → Int) (n : Nat) (t : Tracker) (cs : List Call) :
    (t.run counter n cs).thresholds = t.thresholds := by
  induction cs generalizing n t with
  | nil => rfl
  | cons c cs ih =>
    rw [run, ih, step]
    cases c.record? (counter n) with
    | none => rfl
    | some r => exact thresholds_take t r

/-- The calls since the last start hand in records to a tracker that holds nothing yet. -/
theorem run_since_init {post : List Call} (h : Call.init ∉ post) (t : Thresholds)
    (counter : Nat → Int) (pre : List Call) :
    (new t).run counter 0 (pre ++ .init :: post)
      = (handedIn counter (readings pre + 1) post).foldl take
          ⟨t, some ⟨counter (readings pre), [], []⟩⟩ := by
  have hstart : ((new t).run counter 0 pre).init (counter (readings pre))
      = ⟨t, some ⟨counter (readings pre), [], []⟩⟩ := by
    rw [init, thresholds_run]
    rfl
  rw [run_append, Nat.zero_add, run, ← hstart, ← run_of_init_not_mem h]
  rfl

/-- Until it is started a tracker is empty. After that it holds what its records since the last
start come to, and a record fails exactly if its operation and size are given and the divisor is
zero; it then leaves the tracker as it was. -/
theorem run_holds (t : Thresholds) (counter : Nat → Int) (calls : List Call) :
    (Call.init ∉ calls → ((new t).run counter 0 calls).measurements = []
      ∧ ((new t).run counter 0 calls).overcharges = []
      ∧ ∀ now, ((new t).run counter 0 calls).dump now = .ok "\x7b\x7d")
    ∧ (∀ pre post, calls = pre ++ .init :: post → Call.init ∉ post →
      Holds t ((new t).run counter 0 calls) (taken t (handedIn counter (readings pre + 1) post)))
    ∧ ∀ (tracker : Tracker) (r : Record),
      ((∃ e, (tracker.record r).1 = .error e) ↔ r.Fails tracker.thresholds)
      ∧ (r.Fails tracker.thresholds → (tracker.record r).2 = tracker) := by
  refine ⟨fun h => ?_, fun pre post hcalls h => ?_, fun tracker r => ?_⟩
  · rw [run_of_init_not_mem h, foldl_take_of_not_started rfl]
    exact ⟨rfl, rfl, fun _ => rfl⟩
  · rw [hcalls, run_since_init h]
    exact holds_foldl_take _ _ _
  · exact ⟨record_eq_error_iff, take_of_fails⟩

/-- A probe that is met twice before and once after a record whose check fails, and another. -/
def sampleCalls : List Call :=
  [.measure ⟨4, 2000000, 100, some "storage_read", none⟩, .after 4 99 none,
    .afterSized 4 99 8 (some "storage_read"), .afterSized 4 99 32 none, .after 2 50 none]

theorem run_holds_sampleCalls :
    Call.init ∉ sampleCalls
    ∧ ((new .default).run (100 - ·) 0 sampleCalls).measurements = []
    ∧ Holds { Thresholds.default with sizedToleranceDivisor := 0 }
        ((new { Thresholds.default with sizedToleranceDivisor := 0 }).run (100 - ·) 0
          (.after 4 7 none :: .init :: sampleCalls))
        [⟨4, 2000000, 100, some "storage_read", none⟩, ⟨4, 99, 98, none, none⟩,
          ⟨4, 99, 96, none, some 32⟩, ⟨2, 50, 95, none, none⟩]
    ∧ ((new { Thresholds.default with sizedToleranceDivisor := 0 }).record
        ⟨4, 99, 97, some "storage_read", some 8⟩).2
      = new { Thresholds.default with sizedToleranceDivisor := 0 } :=
  ⟨by decide, ((run_holds _ _ _).1 (by decide)).1,
    (run_holds _ _ _).2.1 [.after 4 7 none] sampleCalls rfl (by decide),
    ((run_holds { Thresholds.default with sizedToleranceDivisor := 0 } (100 - ·) []).2.2 _ _).2
      (by decide)⟩

end Tracker

end InkGauge.Probe
