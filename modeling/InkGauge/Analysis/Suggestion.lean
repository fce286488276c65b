import InkGauge.Analysis.DryNib
import InkGauge.Number.Decimal

namespace InkGauge.Analysis

open Cost Number Settings

structure SuggestionConfig where
  redundantReadThreshold : Int
  redundantReadSavings : Int
  redundantReadSavingsPct : Binary64
  cachedReadSavings : Int
  currentCodeWidth : Int
  deriving DecidableEq

namespace SuggestionConfig

def default : SuggestionConfig where
  redundantReadThreshold := 2000000
  redundantReadSavings := 1200000
  redundantReadSavingsPct := .ofDecimal false 50 0
  cachedReadSavings := 1200000
  currentCodeWidth := 80

def fields : List (Setting SuggestionConfig) :=
  [intSetting "redundant_read_threshold" redundantReadThreshold
      fun n c => { c with redundantReadThreshold := n },
    intSetting "redundant_read_savings" redundantReadSavings
      fun n c => { c with redundantReadSavings := n },
    ⟨"redundant_read_savings_pct", .float redundantReadSavingsPct
      fun x c => { c with redundantReadSavingsPct := x }⟩,
    intSetting "cached_read_savings" cachedReadSavings
      fun n c => { c with cachedReadSavings := n },
    intSetting "current_code_width" currentCodeWidth
      fun n c => { c with currentCodeWidth := n }]

end SuggestionConfig

structure Suggestion where
  id : String
  line : Int
  severity : Severity
  title : String
  description : String
  currentCode : String
  suggestedCode : String
  savingsInk : Int
  savingsPct : Binary64
  confidence : String

/-- Code cut to a width, with dots in place of what is cut off. -/
def truncateCode (code : String) (width : Int) : String :=
  if (code.length : Int) ≤ width then code
  else String.ofList (code.toList.take (width - 3).toNat) ++ "..."

/-- An amount of ink in millions, to one place. -/
def millions (ink : Int) : Except ArithError String :=
  (Binary64.ofInt ink).map fun x => (x.divNat 1000000).fixed 1

/-- The suggestion for the operation at an index, if it is a write that costs more than a plain
one. -/
def redundantRead? (cfg : SuggestionConfig) (index : Nat) (op : Operation) :
    Except ArithError (Option Suggestion) :=
  if op.category ≠ .storageWrite || op.ink ≤ cfg.redundantReadThreshold then .ok none
  else do
    let saved ← millions cfg.redundantReadSavings
    return some {
      id := "redundant_read_" ++ natText index
      line := op.line
      severity := .high
      title := "Redundant Storage Read in Write"
      description := "This write operation contains an embedded storage read. Separate the read "
        ++ "into a local variable to save ~" ++ saved ++ "M ink."
      currentCode := truncateCode op.code cfg.currentCodeWidth
      suggestedCode := "// Separate read and write:\n"
        ++ "// let cached = storage.get(key);\n"
        ++ "// storage.set(key, cached + value);"
      savingsInk := cfg.redundantReadSavings
      savingsPct := cfg.redundantReadSavingsPct
      confidence := "high" }

/-- The writes that seem to hold a read. -/
def redundantReads (cfg : SuggestionConfig) (ops : List Operation) :
    Except ArithError (List Suggestion) := do
  let found ← ops.zipIdx.mapM fun (op, index) => redundantRead? cfg index op
  return found.filterMap id

/-- The suggestion for a field, if it is read more than once. -/
def cacheableRead? (cfg : SuggestionConfig) (entity : String) (lines : List Int) :
    Except ArithError (Option Suggestion) :=
  let n := lines.length
  if n < 2 then .ok none
  else do
    let savings := cfg.cachedReadSavings * ((n : Int) - 1)
    let saved ← millions savings
    let share ← Binary64.percentage ((n : Int) - 1) n
    return some {
      id := "cache_" ++ entity
      line := lines.head?.getD 0
      severity := .medium
      title := "Cache repeated storage read: self." ++ entity
      description := "Field `" ++ entity ++ "` is read " ++ natText n
        ++ "× → cache in local variable → save ~" ++ saved ++ "M ink"
      currentCode := "// Reads at lines: [" ++ ", ".intercalate (lines.map intText) ++ "]"
      suggestedCode := "let cached_" ++ entity ++ " = self." ++ entity
        ++ ".get(...);\n// Use cached_" ++ entity ++ " instead"
      savingsInk := savings
      savingsPct := share
      confidence := "high" }

/-- The fields worth keeping in a variable. -/
def cacheableReads (cfg : SuggestionConfig) (ops : List Operation) :
    Except ArithError (List Suggestion) := do
  let found ← (readsByEntity ops).mapM fun (entity, lines) => cacheableRead? cfg entity lines
  return found.filterMap id

def suggestions (cfg : SuggestionConfig) (ops : List Operation) :
    Except ArithError (List Suggestion) := do
  return (← redundantReads cfg ops) ++ (← cacheableReads cfg ops)

end InkGauge.Analysis
