import InkGauge.Contract.EntryPoint
import InkGauge.Cost.Classify
import InkGauge.Settings.Config

namespace InkGauge.Analysis

open Contract Cost Number Settings

/-- The operations of one category together. -/
structure CategoryStats where
  count : Int
  totalInk : Int
  percentage : Binary64
  avgPerOp : Int

/-- An operation that costs more than the threshold; rank 1 costs most. -/
structure Hotspot where
  line : Int
  ink : Int
  operation : String
  rank : Int

structure FunctionReport where
  name : String
  signature : String
  line : Int
  implType : String
  totalInk : Int
  gasEquivalent : Int
  operations : List Operation
  categories : List (String × CategoryStats)
  suggestions : List Suggestion
  hotspots : List Hotspot
  dryNibs : List DryNib

/-- A part of a total as a percentage; nothing is a share of a total that is not positive. -/
def shareOf (ink total : Int) : Except ArithError Binary64 :=
  if 0 < total then Binary64.percentage ink total else .ok (.zero false)

/-- The operations with their shares of the total. -/
def withShares (ops : List Operation) : Except ArithError (List Operation) :=
  ops.mapM fun op => do
    return { op with percentage := ← shareOf op.ink (totalInk ops) }

/-- Adds an amount of ink to those of a category; a category that is new comes last. -/
def addInk (category : Category) (ink : Int) :
    List (Category × List Int) → List (Category × List Int)
  | [] => [(category, [ink])]
  | (c, inks) :: rest =>
    if c = category then (c, inks ++ [ink]) :: rest else (c, inks) :: addInk category ink rest

/-- The amounts of ink of each category, in the order in which the categories are first met. -/
def inksByCategory (ops : List Operation) : List (Category × List Int) :=
  ops.foldl (fun groups op => addInk op.category op.ink groups) []

def statsOf (total : Int) (inks : List Int) : Except ArithError CategoryStats := do
  let used := inks.foldr (· + ·) 0
  return {
    count := inks.length
    totalInk := used
    percentage := ← shareOf used total
    avgPerOp := used.fdiv inks.length }

def categoryStats (ops : List Operation) : Except ArithError (List (String × CategoryStats)) :=
  (inksByCategory ops).mapM fun (category, inks) => do
    return (category.name, ← statsOf (totalInk ops) inks)

/-- The operations above a threshold, the most expensive first; equal ones keep their order. -/
def rankHotspots (threshold : Int) (ops : List Operation) : List Hotspot :=
  let hot := (ops.filter fun op => decide (threshold < op.ink)).mergeSort
    fun a b => decide (b.ink ≤ a.ink)
  hot.zipIdx.map fun (op, i) => ⟨op.line, op.ink, op.operation, i + 1⟩

/-- The report on an entry point. -/
def analyzeFunction (config : Config) (e : EntryPoint) : Except ArithError FunctionReport := do
  let fn := e.method.fn
  let ops ← withShares (ofBlock? config.costModel fn.body)
  let total := totalInk ops
  if config.inkPerGas = 0 then throw .divisionByZero
  return {
    name := fn.name
    signature := if fn.signature = "" then "fn " ++ fn.name ++ "(...)" else fn.signature
    line := e.method.item.span.line
    implType := e.implType
    totalInk := total
    gasEquivalent := total.fdiv config.inkPerGas
    operations := ops
    categories := ← categoryStats ops
    suggestions := ← suggestions config.optimizations ops
    hotspots := rankHotspots config.hotspotThreshold ops
    dryNibs := dryNibs config.dryNib config.inkPerGas ops }

end InkGauge.Analysis
