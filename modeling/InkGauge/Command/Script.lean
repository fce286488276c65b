import InkGauge.Files.Disk
import InkGauge.Log
import InkGauge.Number.Binary64
import InkGauge.Probe.Edit

namespace InkGauge.Command

open Files Number

/-- A part of what goes to the error stream. -/
inductive Message where
  | log (entry : Log.Entry)
  | text (s : String)

def Message.render (time : String) (verbosity : Nat) : Message → String
  | .log entry => if entry.level.isShown verbosity then entry.line time else ""
  | .text s => s

/-- Why a run breaks off. -/
inductive Crash where
  /-- A number came up that cannot be computed with. -/
  | arith (e : ArithError)
  | overlap (o : Probe.Overlap)
  /-- A path holds the character zero, with which no file can be named. -/
  | zeroInPath
  /-- The form of a report was left open. -/
  | noFormat
  /-- The ink from which operations are marked was left open, and there is one to compare. -/
  | noThreshold
  deriving DecidableEq

def Crash.message : Crash → String
  | .arith e => e.message
  | .overlap o => o.message
  | .zeroInPath => "embedded null byte"
  | .noFormat => "unhashable type: 'list'"
  | .noThreshold => "'>=' not supported between instances of 'int' and 'list'"

/-- How a run of the tool ends. -/
inductive Outcome where
  | exit (code : Nat) (output : String) (messages : List Message)
  | crash (cause : Crash)

inductive Script where
  | done (outcome : Outcome)
  | read (path : String) (next : Except FileError (List UInt8) → Script)
  | write (path : String) (bytes : List UInt8) (next : Except FileError Unit → Script)

/-- Runs a script on a disk. -/
def Script.runOn (d : Disk) : Script → Outcome × Disk
  | .done outcome => (outcome, d)
  | .read path next => (next (d.read path)).runOn d
  | .write path bytes next =>
    match d.write path bytes with
    | .ok d => (next (.ok ())).runOn d
    | .error e => (next (.error e)).runOn d

end InkGauge.Command
