import InkGauge.Probe.Check

/-!
The tracker: what the probes of a running contract have measured.

The ink counter goes down. A tracker takes no records until it is started, and starting it again
discards what it has. Its measurements are in the order of the probe ids, one to an id.
-/

namespace InkGauge.Probe

open Number

/-- The latest measurement of a probe. -/
structure Measurement where
  probeId : Int
  inkBefore : Int
  inkAfter : Int
  /-- How often the probe was met. -/
  count : Nat
  returnSize : Option Int
  operation : Option String
  deriving DecidableEq

/-- The ink between two readings of the counter. -/
def inkBetween (before after : Int) : Int := max (before - after) 0

def Measurement.consumed (m : Measurement) : Int := inkBetween m.inkBefore m.inkAfter

/-- What is measured when a probe is met once. -/
structure Record where
  probeId : Int
  inkBefore : Int
  inkAfter : Int
  operation : Option String
  returnSize : Option Int
  deriving DecidableEq

def Record.measurement (r : Record) : Measurement :=
  ⟨r.probeId, r.inkBefore, r.inkAfter, 1, r.returnSize, r.operation⟩

/-- A later record of the same probe. Its first operation stays, and so does a size unless the
record has one. -/
def Measurement.update (m : Measurement) (r : Record) : Measurement :=
  { m with
    inkBefore := r.inkBefore
    inkAfter := r.inkAfter
    count := m.count + 1
    returnSize := r.returnSize.or m.returnSize }

/-- Takes a record into measurements that are in the order of their ids. -/
def addRecord (r : Record) : List Measurement → List Measurement
  | [] => [r.measurement]
  | m :: ms =>
    if r.probeId < m.probeId then r.measurement :: m :: ms
    else if r.probeId = m.probeId then m.update r :: ms
    else m :: addRecord r ms

/-- What has been measured since the start. -/
structure Session where
  startInk : Int
  measurements : List Measurement
  overcharges : List Overcharge

structure Tracker where
  thresholds : Thresholds
  session : Option Session

namespace Tracker

def new (t : Thresholds) : Tracker := ⟨t, none⟩

/-- Starts over at a reading of the counter. -/
def init (t : Tracker) (now : Int) : Tracker := { t with session := some ⟨now, [], []⟩ }

def measurements (t : Tracker) : List Measurement :=
  match t.session with
  | some s => s.measurements
  | none => []

def overcharges (t : Tracker) : List Overcharge :=
  match t.session with
  | some s => s.overcharges
  | none => []

/-- Takes a record. What the check found, or why it failed, comes with the tracker behind it: a
check that fails leaves it as it was. -/
def record (t : Tracker) (r : Record) : Except ArithError (Option Overcharge) × Tracker :=
  match checkKnown t.thresholds r.probeId r.operation (inkBetween r.inkBefore r.inkAfter)
      r.returnSize with
  | .error e => (.error e, t)
  | .ok found =>
    match t.session with
    | none => (.ok none, t)
    | some s =>
      (.ok found, { t with session := some { s with
        measurements := addRecord r s.measurements
        overcharges := s.overcharges ++ found.toList } })

end Tracker

end InkGauge.Probe
