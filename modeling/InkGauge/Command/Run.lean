import InkGauge.Command.Request
import InkGauge.Command.Script
import InkGauge.Probe.Dump
import InkGauge.Probe.Instrument
import InkGauge.Settings.Load

/-!
A run ends with 0 if all went well, with 1 if a contract cannot be analysed, and with 2 if a file
cannot be read or written, or if the configuration or the command line is wrong.
-/

namespace InkGauge.Command

open Analysis Contract Number Probe Report Settings Text

def success (output : String) (messages : List Message) : Script :=
  .done (.exit 0 output messages)

def failure (code : Nat) (log : List Message) (text : String) : Script :=
  .done (.exit code "" (log ++ [.text text]))

def note (level : Log.Level) (topic : Log.Topic) (message : String) : Message :=
  .log ⟨level, topic, message⟩

def treeLog (tree : SourceFile) : List Message :=
  [note .debug .source ("parsed " ++ tree.filename ++ ": " ++ natText tree.items.length
    ++ " top-level item(s)")]

def candidateLog (e : EntryPoint) (isEntry : Bool) : Message :=
  note .debug .entryPoints ((if isEntry then "entry point: " else "skipped: ") ++ e.implType
    ++ "::" ++ e.name)

def discoveryLog (d : Discovery) : List Message :=
  d.candidates.map (fun (e, isEntry) => candidateLog e isEntry)
    ++ [note .info .entryPoints (natText d.entryPoints.length ++ " entry point(s) in "
      ++ natText d.implCount ++ " impl block(s); " ++ natText d.signals.selectorConstants
      ++ " selector-like constant(s)")]

def functionLog (config : Config) (f : FunctionReport) : List Message :=
  (if f.dryNibs.isEmpty then []
    else [note .debug .dryNib ("dry-nib passes found "
      ++ natText (overcharges config.dryNib f.operations).length ++ "/"
      ++ natText (repeatedReads config.dryNib f.operations).length ++ "/"
      ++ natText (nestedReads config.dryNib config.inkPerGas f.operations).length
      ++ " record(s)")])
    ++ [note .info .function ((if f.implType = "" then "?" else f.implType) ++ "::" ++ f.name
      ++ ": " ++ natText f.operations.length ++ " operation(s), " ++ intText f.totalInk
      ++ " ink (~" ++ intText f.gasEquivalent ++ " gas)")]

def reportLog (config : Config) (r : ContractReport) : List Message :=
  r.functions.flatMap (functionLog config)
    ++ [note .info .contract ("analyzed " ++ natText r.functions.length ++ " function(s) of "
      ++ r.contractName)]

def probeLog (probes : List Placement) : List Message :=
  probes.map (fun p => note .debug .probes ("probe " ++ natText p.id ++ " (" ++ p.kind.name
      ++ ") at line " ++ natText p.line ++ " in " ++ p.function))
    ++ [note .info .probes ("inserted " ++ natText probes.length ++ " probe(s)")]

def dumpLog (d : Dump) : List Message :=
  [note .debug .measurements ("parsed runtime report: " ++ natText d.measurements.length
    ++ " probe(s), " ++ natText d.overcharges.length ++ " bug(s)")]

/-- Goes on with the configuration of a path, or with the defaults if there is no path. -/
def withConfig (home : Option String) (path : Option String)
    (next : List Message → Config → Script) : Script :=
  match path with
  | none | some "" => next [] .default
  | some path =>
    let path := expandHome home path
    .read path fun content =>
      match loadConfig path content with
      | (log, .ok config) => next (log.map .log) config
      | (_, .error (.arith e)) => .done (.crash (.arith e))
      | (_, .error .zeroInPath) => .done (.crash .zeroInPath)
      | (log, .error (.config cause path)) =>
        failure 2 (log.map .log) ((cause.diagnostic path).render ++ "\n")

def unreadable (path reason : String) : String :=
  path ++ ": error: cannot read file: " ++ reason ++ "\n"

/-- Goes on with the text of a file. -/
def withText (path : String) (log : List Message) (next : List Char → Script) : Script :=
  .read path fun content =>
    match content with
    | .error .zeroInPath => .done (.crash .zeroInPath)
    | .error e => failure 2 log (unreadable path e.reason)
    | .ok bytes =>
      match textOf bytes with
      | .ok text => next text
      | .error offset =>
        failure 2 log (unreadable path ("not valid UTF-8 (byte " ++ natText offset ++ ")"))

/-- Goes on with the tree of a contract. -/
def withTree (file : String) (log : List Message) (next : List Message → SourceFile → Script) :
    Script :=
  withText file log fun text =>
    match parse text file with
    | .ok tree => next (log ++ treeLog tree ++ discoveryLog tree.discover) tree
    | .error fault => failure 1 log (fault.diagnostic.render ++ "\n")

/-- The function that is asked for. What is left of an option with nothing is no name of any. -/
def target? : Supplied String → Option String
  | .absent => none
  | .nothing => some "[]"
  | .value name => some name

/-- The report in the form that is asked for. A form left with nothing is none, and a threshold left
with nothing does not matter before an operation is to be compared with it. -/
def reportText (format : Supplied Format) (threshold : Supplied Int) (r : ContractReport) :
    Except Crash String := do
  let format ← match format with
    | .absent => .ok Format.compact
    | .nothing => .error .noFormat
    | .value format => .ok format
  let text ← (format.render threshold.toOption r).mapError .arith
  if format = .detailed && threshold = .nothing && r.functions.any (!·.operations.isEmpty) then
    throw .noThreshold
  return text

def dipFile (file : String) (function : Supplied String) (format : Supplied Format)
    (threshold : Supplied Int) (log : List Message) (config : Config) : Script :=
  withTree file log fun log tree =>
    match analyzeTree config tree (target? function) with
    | .error e =>
      match e.diagnostic with
      | .ok d => failure 1 log (d.render ++ "\n")
      | .error e => .done (.crash (.arith e))
    | .ok r =>
      match reportText format threshold r with
      | .ok text => success text (log ++ reportLog config r)
      | .error cause => .done (.crash cause)

/-- The list of the probes that were put in. -/
def listing (probes : List Placement) : String :=
  "Inserted " ++ natText probes.length ++ " probe(s)\n"
    ++ String.join (probes.map fun p =>
      "  #" ++ padRight 3 (natText p.id) ++ " " ++ padRight 14 p.kind.name ++ " line "
        ++ padRight 5 (natText p.line) ++ " " ++ p.function ++ "\n")

/-- Writes a text to a file and the list of probes to the output; without a file the text goes to
the output, and the list to the error stream. -/
def deliver (output : Option String) (text : List Char) (probes : List Placement)
    (log : List Message) : Script :=
  match output with
  | none | some "" => success (String.ofList text) (log ++ [.text (listing probes)])
  | some path =>
    .write path (String.ofList text).toUTF8.toList fun result =>
      match result with
      | .ok () => success (listing probes) (log ++ [note .info .tool ("wrote " ++ path)])
      | .error .zeroInPath => .done (.crash .zeroInPath)
      | .error e => failure 2 log (path ++ ": error: cannot write file: " ++ e.reason ++ "\n")

def instrumentFile (file : String) (output : Option String) (log : List Message)
    (config : Config) : Script :=
  withTree file log fun log tree =>
    match (Instrumentor.fresh config.runtime).runTree tree with
    | (.ok text, i) => deliver output text i.probes (log ++ probeLog i.probes)
    | (.error o, _) => .done (.crash (.overlap o))

def recheckFile (file : String) (log : List Message) (config : Config) : Script :=
  withText file log fun text =>
    match Dump.read text with
    | .error e => .done (.crash (.arith e))
    | .ok d =>
      match (do Dump.render { d with overcharges := ← d.recheck config.runtime }) with
      | .ok text => success text (log ++ dumpLog d)
      | .error e => .done (.crash (.arith e))

def Action.script (home : Option String) : Action → Script
  | .dip file function format threshold config =>
    withConfig home config (dipFile file function format threshold)
  | .instrument file output config => withConfig home config (instrumentFile file output)
  | .report file config => withConfig home config (recheckFile file)

def Request.script (home : Option String) : Request → Script
  | .help page => success page.help []
  | .version => success versionText []
  | .refused page fault =>
    failure 2 [] (page.usage ++ page.invocation ++ ": error: " ++ fault.message ++ "\n")
  | .run _ none => success Page.tool.help []
  | .run _ (some action) => action.script home

/-- How much of the log is shown. -/
def Request.verbosity : Request → Nat
  | .run verbosity _ => verbosity
  | _ => 0

end InkGauge.Command
