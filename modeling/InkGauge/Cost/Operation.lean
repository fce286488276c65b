import InkGauge.Number.Binary64

namespace InkGauge.Cost

open Number

/-- What kind of step an operation is. -/
inductive Category where
  | storageRead | storageWrite | evmContext | event | externalCall | crypto | assignment
  | controlFlow
  | other (name : String)
  deriving DecidableEq

namespace Category

def name : Category → String
  | .storageRead => "storage_read"
  | .storageWrite => "storage_write"
  | .evmContext => "evm_context"
  | .event => "event"
  | .externalCall => "external_call"
  | .crypto => "crypto"
  | .assignment => "assignment"
  | .controlFlow => "control_flow"
  | .other name => name

def known : List Category :=
  [.storageRead, .storageWrite, .evmContext, .event, .externalCall, .crypto, .assignment,
    .controlFlow]

/-- The category of a name. -/
def ofName (name : String) : Category :=
  (known.find? (·.name = name)).getD (.other name)

end Category

inductive Severity where
  | low | medium | high
  | other (name : String)
  deriving DecidableEq

namespace Severity

def name : Severity → String
  | .low => "low" | .medium => "medium" | .high => "high" | .other name => name

def ofName (name : String) : Severity :=
  ([low, medium, high].find? (·.name = name)).getD (.other name)

end Severity

/-- One step, where it was found and what it is expected to cost. -/
structure Operation where
  line : Int
  column : Int
  /-- The canonical text of the step. -/
  code : String
  operation : String
  /-- The storage field that is touched, if it can be told. -/
  entity : String
  ink : Int
  category : Category
  severity : Severity
  /-- The share in the cost of the function. -/
  percentage : Binary64

/-- The ink of all operations together. -/
def totalInk (ops : List Operation) : Int := ops.foldr (fun op rest => op.ink + rest) 0

end InkGauge.Cost
