import InkGauge.Json.Value

namespace InkGauge

open Number

/-- The part of the work that failed. -/
inductive Phase where
  | parse | analysis | config
  deriving DecidableEq

def Phase.name : Phase → String
  | .parse => "parse" | .analysis => "analysis" | .config => "config"

/-- The stable codes of diagnostics. -/
inductive Code where
  | badSyntax | incompleteParse | noEntryPoints | unknownFunction | invalidConfig
  deriving DecidableEq

namespace Code

def number : Code → Nat
  | .badSyntax => 1000 | .incompleteParse => 1001
  | .noEntryPoints => 2000 | .unknownFunction => 2001
  | .invalidConfig => 3000

def phase : Code → Phase
  | .badSyntax | .incompleteParse => .parse
  | .noEntryPoints | .unknownFunction => .analysis
  | .invalidConfig => .config

def title : Code → String
  | .badSyntax => "syntax error"
  | .incompleteParse => "trailing input"
  | .noEntryPoints => "no entry points"
  | .unknownFunction => "unknown function"
  | .invalidConfig => "invalid configuration"

def text (c : Code) : String := "INK-" ++ natText c.number

end Code

/-- A place in a file. Lines and columns count from one; anything less is unknown. -/
structure Location where
  file : String
  line : Int
  column : Int
  deriving DecidableEq

/-- Somewhere in a file. -/
def Location.inFile (file : String) : Location := ⟨file, 0, 0⟩

def Location.text (l : Location) : String :=
  if l.file = "" && l.line = 0 then "<unknown location>"
  else
    let file := if l.file = "" then [] else [l.file]
    let line := if 0 < l.line then [intText l.line] else []
    let column := if 0 < l.line && 0 < l.column then [intText l.column] else []
    ":".intercalate (file ++ line ++ column)

structure Note where
  label : String
  message : String
  deriving DecidableEq

def Note.text (n : Note) : String :=
  if n.label = "" then n.message else n.label ++ ": " ++ n.message

structure Diagnostic where
  code : Code
  message : String
  location : Location
  notes : List Note
  hint : String
  /-- The line of the source that is at fault, if there is one to show. -/
  sourceLine : String
  deriving DecidableEq

namespace Diagnostic

def addNote (d : Diagnostic) (n : Note) : Diagnostic := { d with notes := d.notes ++ [n] }

/-- The source line and a mark below the column, if the column is known. -/
def excerpt (d : Diagnostic) : List String :=
  if d.sourceLine = "" then []
  else
    ("    " ++ d.sourceLine) ::
      (if 0 < d.location.column then
        ["    " ++ String.ofList (List.replicate (d.location.column - 1).toNat ' ') ++ "^"]
      else [])

/-- The diagnostic as text: a headline, the excerpt, the notes and the hint. -/
def render (d : Diagnostic) : String :=
  "\n".intercalate
    ([d.location.text ++ ": error: " ++ d.message ++ " [" ++ d.code.text ++ "]"]
      ++ d.excerpt ++ d.notes.map Note.text
      ++ (if d.hint = "" then [] else ["hint: " ++ d.hint]))

/-- The diagnostic as text, unless its column is too far out for the mark below it. -/
def renderChecked (d : Diagnostic) : Except ArithError String := do
  if d.sourceLine ≠ "" && 0 < d.location.column then
    let _ ← repeatCount (d.location.column - 1)
  return d.render

def toJson (d : Diagnostic) : Json :=
  .obj [
    ("code", .str d.code.text),
    ("phase", .str d.code.phase.name),
    ("message", .str d.message),
    ("location", .obj [("file", .str d.location.file), ("line", .int d.location.line),
      ("column", .int d.location.column)]),
    ("notes", .arr (d.notes.map fun n =>
      .obj [("label", .str n.label), ("message", .str n.message)])),
    ("hint", .str d.hint)]

end Diagnostic

end InkGauge
