import InkGauge.Analysis.Suggestion
import InkGauge.Cost.Model
import InkGauge.Diagnostic
import InkGauge.Json.Reader
import InkGauge.Probe.Thresholds

/-!
A configuration is read from a JSON object. It starts from the defaults; a key that is not known is
an error, and so are numbers that would make the work meaningless. Numbers that are merely odd are
warned about.
-/

namespace InkGauge.Settings

open Number Analysis

structure Config where
  costModel : Cost.Model
  dryNib : DryNibConfig
  optimizations : SuggestionConfig
  runtime : Probe.Thresholds
  hotspotThreshold : Int
  inkPerGas : Int
  deriving DecidableEq

def Config.default : Config where
  costModel := .default
  dryNib := .default
  optimizations := .default
  runtime := .default
  hotspotThreshold := 1000000
  inkPerGas := 10000

def Config.toJson (c : Config) : Json :=
  .obj [
    ("cost_model", recordJson Cost.Model.fields c.costModel),
    ("dry_nib", recordJson DryNibConfig.fields c.dryNib),
    ("optimizations", recordJson SuggestionConfig.fields c.optimizations),
    ("runtime", recordJson Probe.Thresholds.fields c.runtime),
    ("hotspot_threshold", .int c.hotspotThreshold),
    ("ink_per_gas", .int c.inkPerGas)]

inductive Warning where
  | negative (name : String)
  | notPositive (name : String)
  /-- A flat cost that reaches the cost of an external call. -/
  | aboveExternalCall (name : String)
  | contextOrder
  | embeddedBelowWrite
  deriving DecidableEq

namespace Warning

def text : Warning → String
  | .negative name => name ++ " must be non-negative"
  | .notPositive name => name ++ " must be positive"
  | .aboveExternalCall name =>
    "external_call should be the highest flat cost (not above " ++ name ++ ")"
  | .contextOrder => "host-context costs should rise identity < value < block_info < evm_default"
  | .embeddedBelowWrite => "embedded_read_write should not be below storage_write"

/-- Does the warning rule the configuration out? That goes by its words. -/
def isFatal (w : Warning) : Bool :=
  w.text.has "non-negative" || w.text.has "positive"

end Warning

def modelWarnings (m : Cost.Model) : List Warning :=
  (negativeNames Cost.Model.fields m).map .negative
    ++ ([("storage_read", m.storageRead), ("storage_write", m.storageWrite), ("event", m.event),
        ("crypto", m.crypto)].filter fun (_, cost) => m.externalCall ≤ cost).map
      (fun (name, _) => .aboveExternalCall name)
    ++ (if m.identity < m.value && m.value < m.blockInfo && m.blockInfo < m.evmDefault then []
      else [.contextOrder])
    ++ (if m.embeddedReadWrite < m.storageWrite then [.embeddedBelowWrite] else [])

def thresholdWarnings (t : Probe.Thresholds) : List Warning :=
  (negativeNames Probe.Thresholds.fields t).map (fun name => .negative ("runtime." ++ name))
    ++ (if t.sizedToleranceDivisor ≤ 0 then [.notPositive "runtime.sized_tolerance_divisor"]
      else [])

def Config.warnings (c : Config) : List Warning :=
  modelWarnings c.costModel ++ thresholdWarnings c.runtime
    ++ (if c.inkPerGas ≤ 0 then [.notPositive "ink_per_gas"] else [])
    ++ (if c.hotspotThreshold < 0 then [.negative "hotspot_threshold"] else [])

/-- Why there is no configuration. -/
inductive ConfigCause where
  | notAnObject
  | unknownKeys (names : List String)
  | sectionNotAnObject (name : String)
  | unknownSectionKeys (name : String) (names known : List String)
  | notANumber (name key : String)
  | notAnInteger (key : String)
  | invalid (warnings : List Warning)
  | unreadable (reason : String)
  | notUtf8 (offset : Nat)
  | badJson (cause : Json.Cause) (line column : Nat)

/-- A cause with the file it concerns, a number that cannot be taken over, or a path that can name
no file. -/
inductive ConfigError where
  | config (cause : ConfigCause) (path : String)
  | arith (e : ArithError)
  | zeroInPath

def sortNames (names : List String) : List String := names.mergeSort fun a b => decide (a ≤ b)

def topLevelKeys : List String :=
  ["cost_model", "dry_nib", "hotspot_threshold", "ink_per_gas", "optimizations", "runtime"]

namespace ConfigCause

def message : ConfigCause → String
  | .notAnObject => "configuration must be a JSON object"
  | .unknownKeys names => "unknown configuration key(s): " ++ ", ".intercalate names
  | .sectionNotAnObject name => "section `" ++ name ++ "` must be an object"
  | .unknownSectionKeys name names _ =>
    "unknown key(s) in `" ++ name ++ "`: " ++ ", ".intercalate names
  | .notANumber name key => "`" ++ name ++ "." ++ key ++ "` must be a number"
  | .notAnInteger key => "`" ++ key ++ "` must be an integer"
  | .invalid warnings =>
    "invalid configuration: " ++ "; ".intercalate (warnings.map Warning.text)
  | .unreadable reason => "cannot read configuration: " ++ reason
  | .notUtf8 offset => "configuration is not valid UTF-8 (byte " ++ natText offset ++ ")"
  | .badJson cause _ _ => "configuration is not valid JSON: " ++ cause.message

def notes : ConfigCause → List Note
  | .unknownKeys _ => [⟨"note", "known keys: " ++ ", ".intercalate topLevelKeys⟩]
  | .unknownSectionKeys _ _ known => [⟨"note", "known keys: " ++ ", ".intercalate known⟩]
  | _ => []

def diagnostic (cause : ConfigCause) (path : String) : Diagnostic where
  code := .invalidConfig
  message := cause.message
  location := match cause with
    | .badJson _ line column => ⟨path, line, column⟩
    | _ => .inFile path
  notes := cause.notes
  hint := ""
  sourceLine := ""

end ConfigCause

abbrev ConfigM := Except ConfigError

def isNumber : Json → Bool
  | .int _ | .float _ => true
  | _ => false

/-- One number of a section. -/
def sectionMember {α : Type} (path name : String) (fields : List (Setting α)) (a : α)
    (key : String) (value : Json) : ConfigM α :=
  if !isNumber value then .error (.config (.notANumber name key) path)
  else (replaceByName fields a key value).mapError fun
    | .arith e => .arith e
    | _ => .config (.notANumber name key) path

/-- A section of a configuration. -/
def sectionOf {α : Type} (path name : String) (fields : List (Setting α)) (defaults : α)
    (data : Json) : ConfigM α :=
  match data with
  | .obj members =>
    let known := fields.map (·.name)
    let unknown := (members.map (·.1)).filter (!known.contains ·)
    if unknown.isEmpty then
      members.foldlM (fun a (key, value) => sectionMember path name fields a key value) defaults
    else .error (.config (.unknownSectionKeys name (sortNames unknown) (sortNames known)) path)
  | _ => .error (.config (.sectionNotAnObject name) path)

/-- The section of a name, or its defaults if it is not given. -/
def section? {α : Type} (path name : String) (fields : List (Setting α)) (defaults : α)
    (members : List (String × Json)) : ConfigM α :=
  match Json.get? name members with
  | some data => sectionOf path name fields defaults data
  | none => .ok defaults

def scalar? (path key : String) (fallback : Int) (members : List (String × Json)) : ConfigM Int :=
  match Json.get? key members with
  | some (.int n) => .ok n
  | some _ => .error (.config (.notAnInteger key) path)
  | none => .ok fallback

/-- The configuration in a JSON value. -/
def configOf (path : String) (data : Json) : ConfigM Config := do
  match data with
  | .obj members =>
    let unknown := (members.map (·.1)).filter (!topLevelKeys.contains ·)
    if !unknown.isEmpty then throw (.config (.unknownKeys (sortNames unknown)) path)
    let config : Config := {
      costModel := ← section? path "cost_model" Cost.Model.fields .default members
      dryNib := ← section? path "dry_nib" DryNibConfig.fields .default members
      optimizations := ← section? path "optimizations" SuggestionConfig.fields .default members
      runtime := ← section? path "runtime" Probe.Thresholds.fields .default members
      hotspotThreshold :=
        ← scalar? path "hotspot_threshold" Config.default.hotspotThreshold members
      inkPerGas := ← scalar? path "ink_per_gas" Config.default.inkPerGas members }
    let fatal := config.warnings.filter Warning.isFatal
    if fatal.isEmpty then return config
    else throw (.config (.invalid fatal) path)
  | _ => throw (.config .notAnObject path)

/-- The line and column of the place where some characters of a text are left. -/
def placeOf (text : List Char) (left : Nat) : Nat × Nat :=
  let before := text.take (text.length - left)
  (before.count '\n' + 1, (before.reverse.takeWhile (· != '\n')).length + 1)

end InkGauge.Settings
