import InkGauge.Analysis.Function
import InkGauge.Contract.Parse

namespace InkGauge.Analysis

open Contract Number Settings Text

structure ContractReport where
  contractName : String
  file : String
  functions : List FunctionReport

def ContractReport.totalInk (r : ContractReport) : Int :=
  r.functions.foldr (fun f rest => f.totalInk + rest) 0

/-- The functions of a name; impl blocks may share one. -/
def ContractReport.find (r : ContractReport) (name : String) : List FunctionReport :=
  r.functions.filter (·.name = name)

/-- Why there is no report. -/
inductive AnalysisError where
  | unparsed (fault : Fault)
  | noEntryPoints (file : String) (selectorConstants implCount candidateCount : Int)
  | unknownFunction (name : String) (available : List String) (file : String)
  | arith (e : ArithError)

/-- The text behind a word and the blanks that must follow it. -/
def afterWord? (word : String) (s : List Char) : Option (List Char) :=
  (dropPrefix? word.toList s).bind fun rest =>
    if rest.head?.any isBlank then some (trimLeft rest) else none

/-- The name of a public struct with braces that starts here. -/
def structName? (s : List Char) : Option (List Char) := do
  let rest ← afterWord? "struct" (← afterWord? "pub" s)
  let name ← match rest with
    | c :: cs => if isIdentStart c then some (c :: cs.takeWhile isAlnum) else none
    | [] => none
  match (rest.drop name.length).dropWhile (fun c => c != '\x7b' && c != ';') with
  | '\x7b' :: _ => some name
  | _ => none

/-- The first name of a public struct; `inWord` says that the text goes on inside a word. -/
def firstStruct? (inWord : Bool) : List Char → Option (List Char)
  | [] => none
  | c :: s =>
    match if inWord then none else structName? (c :: s) with
    | some name => some name
    | none => firstStruct? (isAlnum c) s

/-- The name of the first public struct with braces. -/
def contractName (source : List Char) : String :=
  match firstStruct? false source with
  | some name => String.ofList name
  | none => "Unknown"

def noEntryPointsCauses (selectorConstants implCount : Int) : List String :=
  (if implCount = 0 then ["the file contains no impl blocks"] else [])
    ++ ["no impl block or method carries an #[external]/#[public] marker",
      "no `pub` method takes a self receiver outside the lifecycle blocklist"]
    ++ [if selectorConstants ≠ 0 then
        "the contract is generated by a macro; " ++ intText selectorConstants
          ++ " selector-like constant(s) were seen"
      else "the contract may be generated by a macro that has not been expanded"]

def noEntryPointsDiagnostic (file : String) (selectorConstants implCount candidateCount : Int) :
    Diagnostic where
  code := .noEntryPoints
  message := "no entry points found (" ++ intText implCount ++ " impl block(s), "
    ++ intText candidateCount ++ " method(s) inspected, " ++ intText selectorConstants
    ++ " selector-like constant(s))"
  location := .inFile file
  notes := (noEntryPointsCauses selectorConstants implCount).map (⟨"possible cause", ·⟩)
  hint :=
    if selectorConstants ≠ 0 then
      "selector constants were found; expand the contract macros "
        ++ "(e.g. `cargo expand`) and analyze the expanded source"
    else "mark the contract impl block with #[public] or make the "
      ++ "entry-point methods `pub fn name(&self, ...)`"
  sourceLine := ""

def unknownFunctionDiagnostic (name : String) (available : List String) (file : String) :
    Diagnostic where
  code := .unknownFunction
  message := "function `" ++ name ++ "` is not an entry point of this contract"
  location := .inFile file
  notes :=
    if available.isEmpty then [] else [⟨"note", "entry points: " ++ ", ".intercalate available⟩]
  hint := ""
  sourceLine := ""

/-- What is said about an error, unless it is one of arithmetic. -/
def AnalysisError.diagnostic : AnalysisError → Except ArithError Diagnostic
  | .unparsed fault => .ok fault.diagnostic
  | .noEntryPoints file selectorConstants implCount candidateCount =>
    .ok (noEntryPointsDiagnostic file selectorConstants implCount candidateCount)
  | .unknownFunction name available file => .ok (unknownFunctionDiagnostic name available file)
  | .arith e => .error e

/-- The entry points to report on: all, or those of a given name. -/
def select (file : String) (discovery : Discovery) (target : Option String) :
    Except AnalysisError (List EntryPoint) :=
  let all := discovery.entryPoints
  if all.isEmpty then
    .error (.noEntryPoints file discovery.signals.selectorConstants discovery.implCount
      discovery.candidates.length)
  else
    match target with
    | none => .ok all
    | some name =>
      let chosen := all.filter (·.name = name)
      if chosen.isEmpty then .error (.unknownFunction name (all.map (·.name)) file)
      else .ok chosen

/-- The report on a contract, given its tree. -/
def analyzeTree (config : Config) (tree : SourceFile) (target : Option String) :
    Except AnalysisError ContractReport := do
  let chosen ← select tree.filename tree.discover target
  let functions ← (chosen.mapM (analyzeFunction config)).mapError .arith
  return ⟨contractName tree.text, tree.filename, functions⟩

/-- The report on every entry point of a contract, or on those of one name. -/
def analyze (config : Config) (source : List Char) (file : String) (target : Option String) :
    Except AnalysisError ContractReport := do
  analyzeTree config (← (parse source file).mapError .unparsed) target

end InkGauge.Analysis
