import InkGauge.Command.Run
import Std.Time.Format

namespace InkGauge.Command

open Files

/-- What an error of the system says about a file. -/
def fileError : IO.Error → FileError
  | .noFileOrDirectory .. => .notFound
  | .inappropriateType _ _ "Not a directory" => .notADirectory
  | .inappropriateType _ _ "not a directory" => .notADirectory
  | .inappropriateType .. => .isDirectory
  | .invalidArgument _ _ "File name too long" => .nameTooLong
  | .invalidArgument _ _ "name too long" => .nameTooLong
  | e => .other (toString e)

/-- Does something with the file at a path, if the path can name one. -/
def attempt {α : Type} (path : String) (action : IO α) : IO (Except FileError α) := do
  match checkPath path with
  | .error e => return .error e
  | .ok () =>
    try
      return .ok (← action)
    catch e => return .error (fileError e)

/-- Runs a script on the files of the system. -/
def perform : Script → IO Outcome
  | .done outcome => return outcome
  | .read path next => do
    perform (next ((← attempt path (IO.FS.readBinFile path)).map (·.toList)))
  | .write path bytes next => do
    perform (next (← attempt path (IO.FS.writeBinFile path ⟨bytes.toArray⟩)))

def timeOfDay : IO String := do
  return String.ofList ((toString (← Std.Time.PlainTime.now)).toList.take 8)

end InkGauge.Command

open InkGauge.Command

def main (words : List String) : IO UInt32 := do
  let request := request words
  match ← perform (request.script (← IO.getEnv "HOME")) with
  | .exit code output messages =>
    let time ← timeOfDay
    IO.print output
    IO.eprint (String.join (messages.map (Message.render time request.verbosity)))
    return code.toUInt32
  | .crash cause =>
    IO.eprintln cause.message
    return 1
