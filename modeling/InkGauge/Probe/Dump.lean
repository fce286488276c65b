import InkGauge.Number.Literal
import InkGauge.Probe.Tracker
import InkGauge.Text.Digit
import InkGauge.Text.Lines

/-!
The report that a tracker writes, and reading it back.

The text has the total, a line per measurement, and a section on the overcharges if there are any.
Reading passes over lines that it does not know.
-/

namespace InkGauge.Probe

open Number Text

/-- What a report says. -/
structure Dump where
  total : Int
  measurements : List Measurement
  overcharges : List Overcharge
  deriving DecidableEq

namespace Dump

def overchargeHeader : String := "=== DRY NIB OVERCHARGE BUGS DETECTED ==="

/-- What stands for an operation that is not known. -/
def unknownOperation : String := "?"

def operationText (operation : Option String) : String :=
  match operation with
  | none | some "" => unknownOperation
  | some name => name

def measurementLine (m : Measurement) : String :=
  "Probe #" ++ intText m.probeId ++ " (" ++ operationText m.operation ++ "): "
    ++ intText m.consumed ++ " ink consumed (before=" ++ intText m.inkBefore ++ ", after="
    ++ intText m.inkAfter ++ ")"
    ++ match m.returnSize with
      | some size => " [return size=" ++ intText size ++ " bytes]"
      | none => ""

def overchargeLines (o : Overcharge) : Except ArithError (List String) := do
  let pct ← o.percentage
  return [
    "🐛 Probe " ++ intText o.probeId ++ ": " ++ o.operation,
    "   Charged:   " ++ intText o.inkCharged ++ " ink",
    "   Expected:  " ++ intText o.expected ++ " ink",
    "   Overcharge: " ++ intText o.amount ++ " ink (" ++ pct.fixed 1 ++ "%)",
    "   Return size: " ++ intText o.returnSize ++ " bytes",
    ""]

def overchargeSection (os : List Overcharge) : Except ArithError (List String) := do
  if os.isEmpty then return []
  let parts ← os.mapM overchargeLines
  return ["", overchargeHeader,
      "These are cases where real ink used >> expected fair cost",
      "(likely buffer padding / allocation waste on small returns)", ""]
    ++ parts.flatten

/-- The report as text. -/
def render (d : Dump) : Except ArithError String := do
  let found ← overchargeSection d.overcharges
  let all := ["Total ink used: ~" ++ intText d.total ++ " (start → current)", "",
      "Probe measurements:"]
    ++ d.measurements.map measurementLine ++ found
  return "\n".intercalate all ++ "\n"

/-- A number as it is written. -/
structure Numeral where
  digits : List Char
  deriving DecidableEq

def Numeral.value (n : Numeral) : Int := natOfDigits n.digits

/-- The number, unless it is written with too many digits. Zeros in front count like any others. -/
def Numeral.toInt (n : Numeral) : Except ArithError Int :=
  if maxDigits < n.digits.length then .error (.tooManyDigits n.digits.length) else .ok n.value

/-- A number at the start of a text, and what follows it. -/
def number? (s : List Char) : Option (Numeral × List Char) :=
  match s.takeWhile isDecimal with
  | [] => none
  | ds => some (⟨ds⟩, s.dropWhile isDecimal)

/-- What follows a fixed text at the start of another. -/
def after? (t : String) (s : List Char) : Option (List Char) := dropPrefix? t.toList s

def total? (line : List Char) : Option Numeral := do
  return (← number? (← after? "Total ink used: ~" line)).1

/-- The size at the end of the line of a measurement. -/
def size? (s : List Char) : Option Numeral := do
  let (n, rest) ← number? (← after? " [return size=" s)
  let _ ← after? " bytes]" rest
  return n

/-- A measurement as it is written. -/
structure MeasurementText where
  probeId : Numeral
  inkBefore : Numeral
  inkAfter : Numeral
  returnSize : Option Numeral
  operation : Option String
  deriving DecidableEq

def MeasurementText.toMeasurement (m : MeasurementText) : Except ArithError Measurement := do
  let probeId ← m.probeId.toInt
  let inkBefore ← m.inkBefore.toInt
  let inkAfter ← m.inkAfter.toInt
  let returnSize ← m.returnSize.mapM Numeral.toInt
  return ⟨probeId, inkBefore, inkAfter, 1, returnSize, m.operation⟩

def measurement? (line : List Char) : Option MeasurementText := do
  let (id, s) ← number? (← after? "Probe #" line)
  let s ← after? " (" s
  let operation := String.ofList (s.takeWhile (· != ')'))
  let (_, s) ← number? (← after? "): " (s.dropWhile (· != ')')))
  let (before, s) ← number? (← after? " ink consumed (before=" s)
  let (after, s) ← number? (← after? ", after=" s)
  let s ← after? ")" s
  return {
    probeId := id
    inkBefore := before
    inkAfter := after
    returnSize := size? s
    operation := if operation = unknownOperation then none else some operation }

/-- The number and the operation behind the word at the head of an overcharge. -/
def headAt? (s : List Char) : Option (Numeral × String) := do
  let (id, s) ← number? (← after? "Probe " s)
  let s ← after? ": " s
  if s.isEmpty then none else return (id, String.ofList s)

/-- The head of an overcharge: a mark, as long as it can be, comes before it. -/
def head? : List Char → Option (Numeral × String)
  | [] => none
  | c :: s => (if isBlank c then none else head? s).or (headAt? (trimLeft (c :: s)))

/-- A number of an overcharge. -/
inductive Entry where
  | charged | expected | amount | returnSize
  deriving DecidableEq

def Entry.label : Entry → String
  | .charged => "Charged" | .expected => "Expected" | .amount => "Overcharge"
  | .returnSize => "Return size"

def Entry.set (e : Entry) (n : Int) (o : Overcharge) : Overcharge :=
  match e with
  | .charged => { o with inkCharged := n }
  | .expected => { o with expected := n }
  | .amount => { o with amount := n }
  | .returnSize => { o with returnSize := n }

/-- The text without the blanks in front, of which there must be one. -/
def skipBlanks? (s : List Char) : Option (List Char) :=
  if s.head?.any isBlank then some (trimLeft s) else none

def entryAt? (s : List Char) (e : Entry) : Option (Entry × Numeral) := do
  let s ← after? (e.label ++ ":") s
  return (e, (← number? (← skipBlanks? s)).1)

def entry? (line : List Char) : Option (Entry × Numeral) := do
  let s ← skipBlanks? line
  [Entry.charged, .expected, .amount, .returnSize].findSome? (entryAt? s)

/-- What a line says. -/
inductive Said where
  | total (n : Numeral)
  | measurement (m : MeasurementText)
  /-- The section on overcharges begins. -/
  | header
  | entry (e : Entry) (n : Numeral)
  | head (id : Numeral) (operation : String)
  | nothing
  deriving DecidableEq

/-- A report that is being read. -/
structure Reading where
  dump : Dump
  /-- Has the section on overcharges begun? -/
  inOvercharges : Bool
  /-- The overcharge whose numbers are being read. -/
  current : Option Overcharge

namespace Reading

def start : Reading := ⟨⟨0, [], []⟩, false, none⟩

/-- What a line before the section on overcharges says. -/
def saidOutside (line : List Char) : Said :=
  match total? line with
  | some n => .total n
  | none =>
    match measurement? line with
    | some m => .measurement m
    | none => if trim line = overchargeHeader.toList then .header else .nothing

/-- What a line in the section on overcharges says. -/
def saidInside (r : Reading) (line : List Char) : Said :=
  match r.current, entry? line with
  | some _, some (e, n) => .entry e n
  | _, _ =>
    match head? line with
    | some (id, operation) => .head id operation
    | none => .nothing

def said (r : Reading) (line : List Char) : Said :=
  let line := trimRight line
  if r.inOvercharges then r.saidInside line else saidOutside line

/-- Puts the overcharge in hand among the others. -/
def flush (r : Reading) : Reading :=
  { r with
    dump.overcharges := r.dump.overcharges ++ r.current.toList
    current := none }

/-- Takes in what a line says. Every number of the line is made out, whatever becomes of it. -/
def take (r : Reading) : Said → Except ArithError Reading
  | .total n => do return { r with dump.total := ← n.toInt }
  | .measurement m => do
    return { r with dump.measurements := r.dump.measurements ++ [← m.toMeasurement] }
  | .header => .ok { r with inOvercharges := true }
  | .entry e n => do
    let n ← n.toInt
    return { r with current := r.current.map (e.set n) }
  | .head id operation => do
    return { r.flush with current := some ⟨← id.toInt, operation, 0, 0, 0, 0⟩ }
  | .nothing => .ok r

def line (r : Reading) (line : List Char) : Except ArithError Reading := r.take (r.said line)

end Reading

/-- What a text says, as far as it is a report. The first number of too many digits ends the
reading. -/
def read (text : List Char) : Except ArithError Dump := do
  let r ← (lines text).foldlM Reading.line .start
  return r.flush.dump

/-- Applies the checks to the measurements of a report. -/
def recheck (t : Thresholds) (d : Dump) : Except ArithError (List Overcharge) := do
  let found ← d.measurements.mapM fun m =>
    checkKnown t m.probeId m.operation m.consumed m.returnSize
  return found.filterMap id

end Dump

/-- The report of a tracker at a reading of the counter. -/
def Tracker.dump (t : Tracker) (now : Int) : Except ArithError String :=
  match t.session with
  | none => .ok "\x7b\x7d"
  | some s => Dump.render ⟨inkBetween s.startInk now, s.measurements, s.overcharges⟩

end InkGauge.Probe
