namespace InkGauge.Command

/-- The tool as a whole, or one of its commands. -/
inductive Page where
  | tool | dip | instrument | report
  deriving DecidableEq

namespace Page

/-- What the user types to get there. -/
def invocation : Page → String
  | .tool => "inkwell"
  | .dip => "inkwell dip"
  | .instrument => "inkwell instrument"
  | .report => "inkwell report"

def usageLines : Page → List String
  | .tool => ["usage: inkwell [-h] [--version] [-v] <command> ..."]
  | .dip => [
    "usage: inkwell dip [-h] [-f FUNCTION] [-o \x7bcompact,detailed,json\x7d]",
    "                   [--threshold THRESHOLD] [--config CONFIG]",
    "                   file"]
  | .instrument => ["usage: inkwell instrument [-h] [-o OUTPUT] [--config CONFIG] file"]
  | .report => ["usage: inkwell report [-h] [--config CONFIG] file"]

def bodyLines : Page → List String
  | .tool => [
    "Static ink-cost estimator and probe instrumentor for Stylus contracts.",
    "",
    "options:",
    "  -h, --help        show this help message and exit",
    "  --version         show program's version number and exit",
    "  -v, --verbose     Increase log verbosity (-v info, -vv debug)",
    "",
    "commands:",
    "  <command>",
    "    dip (d, analyze)",
    "                    Estimate ink cost per entry point",
    "    instrument (i)  Insert runtime probes",
    "    report          Re-check a dumped runtime report",
    "",
    "examples:",
    "  inkwell dip src/lib.rs",
    "  inkwell dip src/lib.rs -f transfer -o detailed",
    "  inkwell instrument src/lib.rs -o src/lib_profiled.rs",
    "  inkwell report ink-report.txt"]
  | .dip => [
    "positional arguments:",
    "  file                  Contract source file",
    "",
    "options:",
    "  -h, --help            show this help message and exit",
    "  -f FUNCTION, --function FUNCTION",
    "                        Only analyze this entry point",
    "  -o \x7bcompact,detailed,json\x7d, --output \x7bcompact,detailed,json\x7d",
    "                        Report format (default: compact)",
    "  --threshold THRESHOLD",
    "                        Mark operations at or above this ink in the detailed",
    "                        report",
    "  --config CONFIG       JSON file overriding cost and detector constants"]
  | .instrument => [
    "positional arguments:",
    "  file                  Contract source file",
    "",
    "options:",
    "  -h, --help            show this help message and exit",
    "  -o OUTPUT, --output OUTPUT",
    "                        Write the instrumented source here (default: stdout)",
    "  --config CONFIG       JSON file overriding the runtime thresholds"]
  | .report => [
    "positional arguments:",
    "  file             Report text produced by dump_report()",
    "",
    "options:",
    "  -h, --help       show this help message and exit",
    "  --config CONFIG  JSON file overriding the runtime thresholds"]

def usage (p : Page) : String := "\n".intercalate p.usageLines ++ "\n"

def help (p : Page) : String := p.usage ++ "\n" ++ "\n".intercalate p.bodyLines ++ "\n"

end Page

def versionText : String := "inkwell 0.1.0\n"

end InkGauge.Command
