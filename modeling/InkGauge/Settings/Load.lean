import InkGauge.Files.Disk
import InkGauge.Log
import InkGauge.Settings.Config
import InkGauge.Text.Utf8

namespace InkGauge.Settings

open Files Text

/-- The text in the bytes of a file, with its line ends as line feeds. -/
def textOf (bytes : List UInt8) : Except Nat (List Char) := (Utf8.decode bytes).map unifyNewlines

/-- The JSON value in what was read from a path. -/
def jsonOf (path : String) (content : Except FileError (List UInt8)) : ConfigM Json := do
  let bytes ← content.mapError fun
    | .zeroInPath => .zeroInPath
    | e => .config (.unreadable e.reason) path
  let text ← (textOf bytes).mapError fun offset => .config (.notUtf8 offset) path
  (Json.read text).mapError fun fault =>
    match fault.cause with
    | .tooManyDigits count => .arith (.tooManyDigits count)
    | cause =>
      let (line, column) := placeOf text fault.left
      .config (.badJson cause line column) path

/-- The configuration in what was read from a path, and what goes to the log. -/
def loadConfig (path : String) (content : Except FileError (List UInt8)) :
    List Log.Entry × ConfigM Config :=
  match jsonOf path content with
  | .error e => ([], .error e)
  | .ok data =>
    let loaded : Log.Entry := ⟨.debug, .settings, "loaded configuration from " ++ path⟩
    match configOf path data with
    | .error e => ([loaded], .error e)
    | .ok config =>
      (loaded :: config.warnings.map fun w => ⟨.warning, .settings, path ++ ": " ++ w.text⟩,
        .ok config)

/-- The path that a leading tilde stands for, if the home directory is known. -/
def expandHome (home : Option String) (path : String) : String :=
  match home, path.toList with
  | some home, ['~'] => expand home []
  | some home, '~' :: '/' :: rest => expand home ('/' :: rest)
  | _, _ => path
where
  expand (home : String) (rest : List Char) : String :=
    let full := (home.toList.reverse.dropWhile (· == '/')).reverse ++ rest
    if full.isEmpty then "/" else String.ofList full

end InkGauge.Settings
