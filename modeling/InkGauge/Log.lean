namespace InkGauge.Log

inductive Level where
  | debug | info | warning
  deriving DecidableEq

namespace Level

/-- The name of a level in five characters. -/
def tag : Level → String
  | .debug => "DEBUG" | .info => "INFO " | .warning => "WARNI"

/-- Is a level shown? Every step of verbosity adds one. -/
def isShown (verbosity : Nat) : Level → Bool
  | .warning => true
  | .info => 1 ≤ verbosity
  | .debug => 2 ≤ verbosity

end Level

/-- The parts of the tool that write to the log. -/
inductive Topic where
  | tool | settings | source | entryPoints | dryNib | function | contract | probes | measurements
  deriving DecidableEq

def Topic.name : Topic → String
  | .tool => "inkwell"
  | .settings => "inkwell.config"
  | .source => "inkwell.parser"
  | .entryPoints => "inkwell.entry_points"
  | .dryNib => "inkwell.dry_nib"
  | .function => "inkwell.function_analyzer"
  | .contract => "inkwell.analyzer"
  | .probes => "inkwell.instrumentor"
  | .measurements => "inkwell.runtime"

structure Entry where
  level : Level
  topic : Topic
  message : String
  deriving DecidableEq

/-- The line of an entry, at a time of day. -/
def Entry.line (e : Entry) (time : String) : String :=
  time ++ " [" ++ e.level.tag ++ "] " ++ e.topic.name ++ ": " ++ e.message ++ "\n"

end InkGauge.Log
