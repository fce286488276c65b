import InkGauge.Number.Binary64
import InkGauge.Probe.Thresholds

/-!
A measurement is flagged if it is above what its operation may cost and a tolerance. If the size of
what was returned is known, the expected cost and the tolerance go by it.
-/

namespace InkGauge.Probe

open Number

/-- A probed operation that cost more than expected. -/
structure Overcharge where
  probeId : Int
  operation : String
  inkCharged : Int
  returnSize : Int
  /-- What it was expected to cost. -/
  expected : Int
  amount : Int
  deriving DecidableEq

/-- The overcharge as a share of the expected cost. -/
def Overcharge.percentage (o : Overcharge) : Except ArithError Binary64 :=
  if o.expected ≤ 0 then .ok (.zero false) else Binary64.percentage o.amount o.expected

/-- Is an operation of this label checked if the size of its result is not known? -/
def shouldCheck (operation : String) : Bool :=
  ["storage_read", "storage_write", "msg_", "block_"].any operation.has

/-- Checks a measurement against the expected cost of its operation. -/
def check (t : Thresholds) (probeId : Int) (operation : String) (inkCharged : Int) :
    Option Overcharge :=
  let expected := t.expectedBase operation
  if inkCharged ≤ expected + t.tolerance then none
  else some ⟨probeId, operation, inkCharged, 0, expected, inkCharged - expected⟩

/-- The expected cost of an operation that returned some bytes. -/
def Thresholds.expectedSized (t : Thresholds) (operation : String) (size : Int) : Int :=
  (if operation.has "storage_read" then t.storageRead else t.storageWrite) + size * t.perByte

/-- Checks a measurement against a cost that grows with the size of the result. -/
def checkSized (t : Thresholds) (probeId : Int) (operation : String) (inkCharged size : Int) :
    Except ArithError (Option Overcharge) :=
  let expected := t.expectedSized operation size
  if t.sizedToleranceDivisor = 0 then .error .divisionByZero
  else
    let tolerance := max t.sizedMinTolerance (expected.fdiv t.sizedToleranceDivisor)
    if inkCharged ≤ expected + tolerance then .ok none
    else .ok (some ⟨probeId, operation, inkCharged, size, expected, inkCharged - expected⟩)

/-- The check that fits what is known of a measurement. A record that comes in and a measurement
that was read back from a report go through the same cases. -/
def checkKnown (t : Thresholds) (probeId : Int) (operation : Option String) (inkCharged : Int)
    (size : Option Int) : Except ArithError (Option Overcharge) :=
  match operation, size with
  | none, _ => .ok none
  | some operation, some size => checkSized t probeId operation inkCharged size
  | some operation, none =>
    .ok (if shouldCheck operation then check t probeId operation inkCharged else none)

end InkGauge.Probe
