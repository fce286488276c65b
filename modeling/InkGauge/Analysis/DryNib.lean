import InkGauge.Cost.Entity
import InkGauge.Cost.Evidence
import InkGauge.Settings.Setting

/-!
Dry nibs: host operations that are charged for a padded buffer rather than for the bytes they
return.

Three passes go over the operations of a function: every storage access whose estimated charge is
too far above the fair one, every field that is read repeatedly, and every nested read. One line
can come up in more than one of them.
-/

namespace InkGauge.Analysis

open Cost Settings

/-- The constants of the three passes. -/
structure DryNibConfig where
  readBase : Int
  writeBase : Int
  returnSize : Int
  perByte : Int
  perWord : Int
  overchargeThreshold : Int
  highSeverityThreshold : Int
  nestedGetCount : Int
  repeatedReadCount : Int
  readWaste : Int
  repeatedBuffer : Int
  hostRoundTrip : Int
  coldAccessGas : Int
  warmAccessGas : Int
  nestedBuffer : Int
  deriving DecidableEq

namespace DryNibConfig

def default : DryNibConfig where
  readBase := 800000
  writeBase := 1000000
  returnSize := 32
  perByte := 100
  perWord := 1000
  overchargeThreshold := 150000
  highSeverityThreshold := 800000
  nestedGetCount := 2
  repeatedReadCount := 3
  readWaste := 1200000
  repeatedBuffer := 64
  hostRoundTrip := 840000
  coldAccessGas := 2100
  warmAccessGas := 100
  nestedBuffer := 64

def fields : List (Setting DryNibConfig) :=
  [intSetting "read_base" readBase fun n c => { c with readBase := n },
    intSetting "write_base" writeBase fun n c => { c with writeBase := n },
    intSetting "return_size" returnSize fun n c => { c with returnSize := n },
    intSetting "per_byte" perByte fun n c => { c with perByte := n },
    intSetting "per_word" perWord fun n c => { c with perWord := n },
    intSetting "overcharge_threshold" overchargeThreshold
      fun n c => { c with overchargeThreshold := n },
    intSetting "high_severity_threshold" highSeverityThreshold
      fun n c => { c with highSeverityThreshold := n },
    intSetting "nested_get_count" nestedGetCount fun n c => { c with nestedGetCount := n },
    intSetting "repeated_read_count" repeatedReadCount
      fun n c => { c with repeatedReadCount := n },
    intSetting "read_waste" readWaste fun n c => { c with readWaste := n },
    intSetting "repeated_buffer" repeatedBuffer fun n c => { c with repeatedBuffer := n },
    intSetting "host_round_trip" hostRoundTrip fun n c => { c with hostRoundTrip := n },
    intSetting "cold_access_gas" coldAccessGas fun n c => { c with coldAccessGas := n },
    intSetting "warm_access_gas" warmAccessGas fun n c => { c with warmAccessGas := n },
    intSetting "nested_buffer" nestedBuffer fun n c => { c with nestedBuffer := n }]

end DryNibConfig

/-- An operation that is suspected of being charged for more than it returns. -/
structure DryNib where
  line : Int
  operation : String
  category : Category
  inkCharged : Int
  returnSize : Int
  bufferAllocated : Int
  fairCost : Int
  overcharge : Int
  severity : Severity
  mitigation : String

/-- The buffer that the host is taken to allocate for a return of some bytes. -/
def bufferFor (size : Int) : Int :=
  if size ≤ 8 then 32
  else if size ≤ 32 then 64
  else if size ≤ 64 then 128
  else (size + 63).fdiv 64 * 64

/-- Advice on an operation, going by its name. -/
def mitigationFor (operation : String) : String :=
  if operation.has "storage_read" || operation.has "storage_write" then
    "Storage operations have buffer overhead. Cache repeated reads in local variables. "
      ++ "For nested maps like self.balances.get(addr), the outer .get() call allocates a buffer "
      ++ "even though it just returns a storage pointer. Consider restructuring to minimize map "
      ++ "nesting depth."
  else if operation.has "msg::sender" then
    "Cache msg::sender() result in a local variable if used multiple times. "
      ++ "The 20-byte address is often charged for 32+ bytes of overhead."
  else if operation.has "block::" then
    "Cache block properties in local variables. Even small values like block.number (u64) "
      ++ "may be charged for full 32-byte word overhead."
  else "Minimize host calls by batching operations and caching results where possible."

/-- The number of lookups in the code of an operation. -/
def getCount (op : Operation) : Int := occurrences op.code ".get("

def isNamedRead (op : Operation) : Bool :=
  op.category == .storageRead && op.entity != unknownEntity

def isNamedAccess (op : Operation) : Bool :=
  (op.category == .storageRead || op.category == .storageWrite) && op.entity != unknownEntity

/-- The first pass, for one operation: the padded charge against the fair one. -/
def overcharged? (cfg : DryNibConfig) (op : Operation) : Option DryNib :=
  if !isNamedAccess op then none
  else
    let base := if op.category = .storageRead then cfg.readBase else cfg.writeBase
    let fair := base + cfg.returnSize * cfg.perByte
    let buffer := bufferFor cfg.returnSize
    let likely := base + (buffer + 31).fdiv 32 * cfg.perWord
    let overcharge := max (likely - fair) 0
    if overcharge ≤ cfg.overchargeThreshold && !decide (cfg.nestedGetCount ≤ getCount op) then none
    else some {
      line := op.line
      operation := op.operation
      category := op.category
      inkCharged := likely
      returnSize := cfg.returnSize
      bufferAllocated := buffer
      fairCost := fair
      overcharge := overcharge
      severity := if cfg.highSeverityThreshold < overcharge then .high else .medium
      mitigation := mitigationFor op.operation }

/-- The storage accesses that are charged too far above the fair cost, or that are nested. -/
def overcharges (cfg : DryNibConfig) (ops : List Operation) : List DryNib :=
  ops.filterMap (overcharged? cfg)

/-- Adds a line to the reads of a field; a field that is new comes last. -/
def addRead (entity : String) (line : Int) : List (String × List Int) → List (String × List Int)
  | [] => [(entity, [line])]
  | (e, lines) :: rest =>
    if e = entity then (e, lines ++ [line]) :: rest else (e, lines) :: addRead entity line rest

/-- The lines on which each field is read, in the order of the first reads. -/
def readsByEntity (ops : List Operation) : List (String × List Int) :=
  (ops.filter isNamedRead).foldl (fun reads op => addRead op.entity op.line reads) []

def repeatedRead? (cfg : DryNibConfig) (entity : String) (lines : List Int) : Option DryNib :=
  let count : Int := lines.length
  if count < cfg.repeatedReadCount then none
  else some {
    line := lines.head?.getD 0
    operation := "repeated storage_read: self." ++ entity
    category := .storageRead
    inkCharged := count * cfg.readWaste
    returnSize := cfg.returnSize
    bufferAllocated := cfg.repeatedBuffer
    fairCost := cfg.readWaste
    overcharge := (count - 1) * cfg.readWaste
    severity := .high
    mitigation := "Cache `self." ++ entity
      ++ "` in a local variable. Repeated host calls are a major "
      ++ "dry-nib source (each .get() incurs buffer allocation overhead)." }

/-- The fields that are read too often. -/
def repeatedReads (cfg : DryNibConfig) (ops : List Operation) : List DryNib :=
  (readsByEntity ops).filterMap fun (entity, lines) => repeatedRead? cfg entity lines

def nestedRead? (cfg : DryNibConfig) (inkPerGas : Int) (op : Operation) : Option DryNib :=
  if !isNamedRead op || getCount op < cfg.nestedGetCount then none
  else
    -- Two round trips and a cold slot, against one trip and a warm slot.
    let estimated := 2 * cfg.hostRoundTrip + cfg.coldAccessGas * inkPerGas
    let fair := cfg.hostRoundTrip + cfg.warmAccessGas * inkPerGas
    some {
      line := op.line
      operation := op.operation
      category := .storageRead
      inkCharged := estimated
      returnSize := cfg.returnSize
      bufferAllocated := cfg.nestedBuffer
      fairCost := fair
      overcharge := max (estimated - fair) 0
      severity := .high
      mitigation := "Nested access on storage field `" ++ op.entity
        ++ "` detected. In Arbitrum Stylus, this triggers multiple host I/O calls. Use `self."
        ++ op.entity ++ ".getter(key)` to cache the intermediate mapping and avoid "
        ++ "redundant WASM-to-Host transitions." }

/-- The reads of a field through another lookup. -/
def nestedReads (cfg : DryNibConfig) (inkPerGas : Int) (ops : List Operation) : List DryNib :=
  ops.filterMap (nestedRead? cfg inkPerGas)

/-- The findings of the three passes, one pass after another. -/
def dryNibs (cfg : DryNibConfig) (inkPerGas : Int) (ops : List Operation) : List DryNib :=
  overcharges cfg ops ++ repeatedReads cfg ops ++ nestedReads cfg inkPerGas ops

end InkGauge.Analysis
