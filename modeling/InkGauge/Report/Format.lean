import InkGauge.Analysis.Contract
import InkGauge.Text.Pad

/-!
The compact form has per function its dry nibs, its hotspots and its suggestions. The detailed form
adds per function a summary by category and the list of operations. The JSON form has everything.
-/

namespace InkGauge.Report

open Analysis Cost Number Text

inductive Format where
  | compact | detailed | json
  deriving DecidableEq

def Format.name : Format → String
  | .compact => "compact" | .detailed => "detailed" | .json => "json"

def Format.all : List Format := [.compact, .detailed, .json]

def Format.ofName? (name : String) : Option Format := Format.all.find? (·.name = name)

/-- Why there is no text. -/
inductive ReportError where
  | unknownFormat (name : String)
  | arith (e : ArithError)

def ReportError.message : ReportError → String
  | .unknownFormat name => "unknown report format: " ++ quoted name.toList
  | .arith e => e.message

def rule : String := String.ofList (List.replicate 60 '=')

/-- The margin of a suggestion. -/
def margin : String := "         |"

/-- Text cut to a width, with dots in place of what is cut off. -/
def cut (width : Nat) (s : String) : String :=
  if s.length ≤ width then s else String.ofList (s.toList.take (width - 3)) ++ "..."

def overchargePct (b : DryNib) : Except ArithError Binary64 :=
  if b.fairCost ≤ 0 then .ok (.zero false) else Binary64.percentage b.overcharge b.fairCost

def dryNibLines (index : Nat) (b : DryNib) : Except ArithError (List String) := do
  let pct ← overchargePct b
  return [
    "  Bug #" ++ natText index ++ ": " ++ b.operation ++ " at line " ++ intText b.line,
    "     |",
    "     | Operation: " ++ b.category.name,
    "     | Actual return size: " ++ intText b.returnSize ++ " bytes",
    "     | Buffer allocated: " ++ intText b.bufferAllocated ++ " bytes",
    "     | Wastage: charged for " ++ intText (max (b.bufferAllocated - b.returnSize) 0)
      ++ " bytes of padding!",
    "     |",
    "     | Ink charged (est): " ++ intText b.inkCharged ++ " ink",
    "     | Fair cost: " ++ intText b.fairCost ++ " ink",
    "     | Overcharge: " ++ intText b.overcharge ++ " ink (" ++ pct.fixed 1 ++ "% overcharge)",
    "     |",
    "     | Mitigation: " ++ b.mitigation,
    ""]

def dryNibSection (bugs : List DryNib) : Except ArithError (List String) := do
  if bugs.isEmpty then return []
  let parts ← bugs.zipIdx.mapM fun (b, i) => dryNibLines (i + 1) b
  return ["", rule, "  DRY NIB BUGS DETECTED - HOST CALL OVERHEAD ISSUES", rule, "",
      "These operations are charged for more buffer space than data actually returned:", ""]
    ++ parts.flatten ++ [rule]

/-- The bar that shows a percentage: a mark for every two percent. -/
def bar (pct : Binary64) : Except ArithError String := do
  return String.ofList (List.replicate (← repeatCount (← (pct.divNat 2).truncate)) '█')

def hotspotLine (total : Int) (h : Hotspot) : Except ArithError String := do
  let pct ← if total = 0 then pure (.zero false) else Binary64.percentage h.ink total
  let bar ← bar pct
  let amount ← millions h.ink
  return "  Line " ++ padLeft 3 (intText h.line) ++ "  |  " ++ padRight 30 (cut 30 h.operation)
    ++ "  " ++ amount ++ "M  " ++ bar ++ "  "
    ++ padLeft 3 (pct.fixed 0) ++ "%"

def hotspotSection (f : FunctionReport) : Except ArithError (List String) := do
  if f.hotspots.isEmpty then return []
  return ["", "HOTSPOTS (Operations > 1M ink)", ""] ++ (← f.hotspots.mapM (hotspotLine f.totalInk))

def suggestionLines (s : Suggestion) : List String :=
  ["  Line " ++ intText s.line ++ " | " ++ s.title,
    margin ++ " " ++ s.description,
    margin,
    margin ++ " Suggestion:"]
  ++ (lines s.suggestedCode.toList).map (fun l => margin ++ "   " ++ String.ofList l)
  ++ [margin,
    margin ++ " Potential savings: ~" ++ intText (s.savingsInk.fdiv 1000) ++ "K ink ("
      ++ s.savingsPct.fixed 0 ++ "% reduction)",
    ""]

def suggestionSection (f : FunctionReport) : List String :=
  if f.suggestions.isEmpty then []
  else ["", rule, "", "OPTIMIZATION OPPORTUNITIES", ""] ++ f.suggestions.flatMap suggestionLines

def functionLines (f : FunctionReport) : Except ArithError (List String) := do
  return ["",
      "Function: " ++ f.signature,
      "Total Ink: " ++ intText f.totalInk ++ " (≈ " ++ intText f.gasEquivalent ++ " gas)",
      "",
      rule]
    ++ (← dryNibSection f.dryNibs) ++ (← hotspotSection f) ++ suggestionSection f ++ [rule]

def compactLines (r : ContractReport) : Except ArithError (List String) := do
  return ["", "INKWELL STAIN REPORT", rule] ++ (← r.functions.mapM functionLines).flatten

def categoryLine (category : String) (s : CategoryStats) : String :=
  padRight 15 category ++ " | " ++ center 10 (intText s.count) ++ " | "
    ++ padLeft 12 (intText s.totalInk) ++ " | " ++ padLeft 4 (s.percentage.fixed 0) ++ "% | "
    ++ padLeft 10 (intText s.avgPerOp)

def categorySection (f : FunctionReport) : List String :=
  if f.categories.isEmpty then []
  else ["", "CATEGORY SUMMARY (" ++ f.name ++ ")", "",
      "Category        | Operations |  Total Ink   |   %   |   Avg/Op  ",
      String.ofList (List.replicate 75 '-')]
    ++ f.categories.map fun (category, s) => categoryLine category s

def operationLine (threshold : Int) (op : Operation) : String :=
  " " ++ (if threshold ≤ op.ink then "*" else " ") ++ " Line " ++ padLeft 3 (intText op.line)
    ++ "  " ++ padRight 36 (cut 36 op.operation) ++ "  " ++ padLeft 10 (intText op.ink) ++ "  "
    ++ padLeft 5 (op.percentage.fixed 1) ++ "%  " ++ cut 40 op.code

def operationSection (threshold : Int) (f : FunctionReport) : List String :=
  if f.operations.isEmpty then []
  else ["", "OPERATIONS (" ++ f.name ++ ", * = at or above " ++ intText threshold ++ " ink)", ""]
    ++ f.operations.map (operationLine threshold)

def detailLines (threshold : Int) (r : ContractReport) : List String :=
  r.functions.flatMap fun f => categorySection f ++ operationSection threshold f

def operationJson (op : Operation) : Json :=
  .obj [("line", .int op.line), ("code", .str op.code), ("operation", .str op.operation),
    ("entity", .str op.entity), ("ink", .int op.ink), ("category", .str op.category.name),
    ("severity", .str op.severity.name), ("column", .int op.column),
    ("percentage", .float op.percentage)]

def statsJson (s : CategoryStats) : Json :=
  .obj [("count", .int s.count), ("total_ink", .int s.totalInk),
    ("percentage", .float s.percentage), ("avg_per_op", .int s.avgPerOp)]

def suggestionJson (s : Suggestion) : Json :=
  .obj [("id", .str s.id), ("line", .int s.line), ("severity", .str s.severity.name),
    ("title", .str s.title), ("description", .str s.description),
    ("current_code", .str s.currentCode), ("suggested_code", .str s.suggestedCode),
    ("estimated_savings_ink", .int s.savingsInk),
    ("estimated_savings_percentage", .float s.savingsPct), ("confidence", .str s.confidence)]

def hotspotJson (h : Hotspot) : Json :=
  .obj [("line", .int h.line), ("ink", .int h.ink), ("operation", .str h.operation),
    ("rank", .int h.rank)]

def dryNibJson (b : DryNib) : Json :=
  .obj [("line", .int b.line), ("operation", .str b.operation), ("category", .str b.category.name),
    ("ink_charged_estimate", .int b.inkCharged), ("actual_return_size", .int b.returnSize),
    ("buffer_allocated", .int b.bufferAllocated), ("expected_fair_cost", .int b.fairCost),
    ("overcharge_estimate", .int b.overcharge), ("severity", .str b.severity.name),
    ("mitigation", .str b.mitigation)]

def functionJson (f : FunctionReport) : Json :=
  .obj [("name", .str f.name), ("signature", .str f.signature), ("line", .int f.line),
    ("impl_type", .str f.implType), ("total_ink", .int f.totalInk),
    ("gas_equivalent", .int f.gasEquivalent), ("operations", .arr (f.operations.map operationJson)),
    ("categories", .obj (f.categories.map fun (name, s) => (name, statsJson s))),
    ("optimizations", .arr (f.suggestions.map suggestionJson)),
    ("hotspots", .arr (f.hotspots.map hotspotJson)),
    ("dry_nib_bugs", .arr (f.dryNibs.map dryNibJson))]

def contractJson (r : ContractReport) : Json :=
  .obj [("contract_name", .str r.contractName), ("file", .str r.file),
    ("functions", .arr (r.functions.map functionJson))]

/-- Lines as a text, each ended by a line feed. -/
def unlines (ls : List String) : String := "\n".intercalate ls ++ "\n"

/-- The operations at or above this ink are marked, if no threshold is given. -/
def defaultThreshold : Int := 1000000

def dropTrailingFeeds (s : String) : String :=
  String.ofList (s.toList.reverse.dropWhile (· == '\n')).reverse

def Format.render (format : Format) (threshold : Option Int) (r : ContractReport) :
    Except ArithError String :=
  match format with
  | .compact => (compactLines r).map unlines
  | .detailed => (compactLines r).map fun ls =>
    unlines (dropTrailingFeeds (unlines ls)
      :: detailLines (threshold.getD defaultThreshold) r)
  | .json => .ok ((contractJson r).pretty 0 ++ "\n")

/-- The report in the form of a name. -/
def render (format : String) (threshold : Option Int) (r : ContractReport) :
    Except ReportError String :=
  match Format.ofName? format with
  | some f => (f.render threshold r).mapError .arith
  | none => .error (.unknownFormat format)

end InkGauge.Report
