import InkGauge.Command.Argument
import InkGauge.Command.Page
import InkGauge.Number.Literal
import InkGauge.Report.Format

namespace InkGauge.Command

open Report (Format)

/-- The value of an option. Two dashes in its place are taken out of the line, and leave the option
with nothing. -/
inductive Supplied (α : Type) where
  | absent
  | nothing
  | value (a : α)
  deriving DecidableEq

/-- The value, where an option that was left with nothing counts as absent. -/
def Supplied.toOption {α : Type} : Supplied α → Option α
  | .value a => some a
  | .absent | .nothing => none

/-- The work that can be asked for. -/
inductive Action where
  /-- Report on the cost of a contract. -/
  | dip (file : String) (function : Supplied String) (format : Supplied Format)
      (threshold : Supplied Int) (config : Option String)
  /-- Put probes into a contract. -/
  | instrument (file : String) (output : Option String) (config : Option String)
  /-- Check the report of a tracker again. -/
  | report (file : String) (config : Option String)

inductive Request where
  | help (page : Page)
  | version
  | refused (page : Page) (fault : ArgFault)
  /-- Without a command there is nothing but help to give. -/
  | run (verbosity : Nat) (action : Option Action)

/-- Reading a command line ends early with an answer, or goes on. -/
abbrev Parse := Except Request

def orRefuse {α : Type} (page : Page) (x : Except ArgFault α) : Parse α :=
  x.mapError (.refused page)

inductive Key where
  | help | function | output | threshold | config
  deriving DecidableEq

def helpFlag : Flag Key := ⟨["-h", "--help"], .help, false⟩
def functionFlag : Flag Key := ⟨["-f", "--function"], .function, true⟩
def outputFlag : Flag Key := ⟨["-o", "--output"], .output, true⟩
def thresholdFlag : Flag Key := ⟨["--threshold"], .threshold, true⟩
def configFlag : Flag Key := ⟨["--config"], .config, true⟩

def flagsOf : Page → List (Flag Key)
  | .tool => []
  | .dip => [helpFlag, functionFlag, outputFlag, thresholdFlag, configFlag]
  | .instrument => [helpFlag, outputFlag, configFlag]
  | .report => [helpFlag, configFlag]

/-- What the words of a command have said so far. -/
structure Answers where
  file : Option String
  function : Supplied String
  output : Supplied String
  format : Supplied Format
  threshold : Supplied Int
  config : Supplied String
  /-- Words that nothing is known about. -/
  extras : List String

def Answers.blank : Answers := ⟨none, .absent, .absent, .absent, .absent, .absent, []⟩

def Answers.extra (a : Answers) (word : String) : Answers := { a with extras := a.extras ++ [word] }

/-- What the text of an option stands for. -/
def supplied {α : Type} (read : String → Parse α) : Option String → Parse (Supplied α)
  | none => .ok .absent
  | some "--" => .ok .nothing
  | some text => (read text).map .value

def readThreshold (page : Page) (text : String) : Parse Int :=
  match Number.integer text.toList with
  | .ok n => .ok n
  | .error _ => .error (.refused page (.badInteger thresholdFlag.title text))

def readFormat (page : Page) (text : String) : Parse Format :=
  match Format.ofName? text with
  | some format => .ok format
  | none => .error (.refused page (.badChoice outputFlag.title text (Format.all.map (·.name))))

/-- Takes in one option. -/
def Answers.set (page : Page) (a : Answers) : Key × Option String → Parse Answers
  | (.help, _) => .error (.help page)
  | (.function, text) => do return { a with function := ← supplied .ok text }
  | (.config, text) => do return { a with config := ← supplied .ok text }
  | (.threshold, text) => do return { a with threshold := ← supplied (readThreshold page) text }
  | (.output, text) => do
    if page = .dip then return { a with format := ← supplied (readFormat page) text }
    else return { a with output := ← supplied .ok text }

/-- Takes in the words of a command. The first plain word is the file; a separator next to it is
passed over. -/
def answers (page : Page) (a : Answers) : List (Word Key) → Parse Answers
  | [] => .ok a
  | .unknown text :: ws => answers page (a.extra text) ws
  | .option _ named :: ws => do
    let uses ← orRefuse page (named.uses (flagsOf page))
    match needsValue? uses with
    | none => answers page (← (keyed uses).foldlM (Answers.set page) a) ws
    | some f =>
      match ws with
      | .plain value :: ws =>
        answers page (← (withValue uses value).foldlM (Answers.set page) a) ws
      | _ => throw (.refused page (.noValue f.title))
  | .plain text :: ws =>
    if a.file.isSome then answers page (a.extra text) ws
    else
      match ws with
      | .separator :: ws => answers page { a with file := some text } ws
      | ws => answers page { a with file := some text } ws
  | .separator :: ws =>
    if a.file.isSome then answers page (a.extra "--") ws
    else
      match ws with
      | .plain text :: ws => answers page { a with file := some text } ws
      | ws => answers page (a.extra "--") ws

/-- The work that a page is about, and the words left over. -/
def actionOf (page : Page) (words : List String) : Parse (Option Action × List String) := do
  let a ← answers page .blank (← orRefuse page (scan (flagsOf page) words))
  match a.file with
  | none => throw (.refused page (.missing "file"))
  | some file =>
    let action := match page with
      | .tool => none
      | .dip => some (.dip file a.function a.format a.threshold a.config.toOption)
      | .instrument => some (.instrument file a.output.toOption a.config.toOption)
      | .report => some (.report file a.config.toOption)
    return (action, a.extras)

inductive ToolKey where
  | help | version | verbose
  deriving DecidableEq

def toolFlags : List (Flag ToolKey) :=
  [⟨["-h", "--help"], .help, false⟩, ⟨["--version"], .version, false⟩,
    ⟨["-v", "--verbose"], .verbose, false⟩]

/-- The names of the commands. -/
def pageNames : List (String × Page) :=
  [("dip", .dip), ("d", .dip), ("analyze", .dip), ("instrument", .instrument),
    ("i", .instrument), ("report", .report)]

def setTool (verbosity : Nat) : ToolKey × Option String → Parse Nat
  | (.help, _) => .error (.help .tool)
  | (.version, _) => .error .version
  | (.verbose, _) => .ok (verbosity + 1)

/-- The end of a command line. -/
def finish (verbosity : Nat) (action : Option Action) (extras : List String) : Parse Request :=
  if extras.isEmpty then .ok (.run verbosity action)
  else .error (.refused .tool (.unrecognized extras))

/-- The command of a name, and the words behind it. -/
def named (verbosity : Nat) (extras : List String) (name : String) (words : List String) :
    Parse Request := do
  match pageNames.find? (·.1 = name) with
  | none =>
    throw (.refused .tool (.badChoice "<command>" name (pageNames.map (·.1))))
  | some (_, page) =>
    let (action, more) ← actionOf page words
    finish verbosity action (extras ++ more)

/-- Takes in the words of the whole line: options, and then the command with all behind it. -/
def toolRequest (verbosity : Nat) (extras : List String) : List (Word ToolKey) → Parse Request
  | [] => finish verbosity none extras
  | .unknown text :: ws => toolRequest verbosity (extras ++ [text]) ws
  | .option _ named :: ws => do
    let uses ← orRefuse .tool (named.uses toolFlags)
    toolRequest (← (keyed uses).foldlM setTool verbosity) extras ws
  | .plain name :: ws => named verbosity extras name (ws.map Word.text)
  | .separator :: ws =>
    if ws.isEmpty then finish verbosity none (extras ++ ["--"])
    else named verbosity extras "--" (ws.map Word.text)

/-- What a command line asks for. -/
def request (words : List String) : Request :=
  match (do toolRequest 0 [] (← orRefuse .tool (scan toolFlags words)) : Parse Request) with
  | .ok r => r
  | .error r => r

end InkGauge.Command
