import InkGauge.Json.Value
import InkGauge.Number.Literal
import InkGauge.Text.Quoted

/-!
A record type lists its fields by name, each with a way to read and to replace its number. Reading
a record starts from its defaults and replaces what the JSON object gives.
-/

namespace InkGauge.Settings

open Number

/-- The number behind a field. -/
inductive Slot (α : Type) where
  | int (get : α → Int) (set : Int → α → α)
  | float (get : α → Binary64) (set : Binary64 → α → α)

structure Setting (α : Type) where
  name : String
  slot : Slot α

def intSetting {α : Type} (name : String) (get : α → Int) (set : Int → α → α) : Setting α :=
  ⟨name, .int get set⟩

def Setting.toJson {α : Type} (f : Setting α) (a : α) : String × Json :=
  match f.slot with
  | .int get _ => (f.name, .int (get a))
  | .float get _ => (f.name, .float (get a))

/-- The record as a JSON object. -/
def recordJson {α : Type} (fields : List (Setting α)) (a : α) : Json :=
  .obj (fields.map (·.toJson a))

/-- The names of the fields with a negative number. -/
def negativeNames {α : Type} (fields : List (Setting α)) (a : α) : List String :=
  fields.filterMap fun f =>
    match f.slot with
    | .int get _ => if get a < 0 then some f.name else none
    | .float .. => none

/-- Why a JSON value gives no integer. -/
inductive CoerceError where
  | badLiteral (text : String)
  | badType (type : String)
  | arith (e : ArithError)

def CoerceError.message : CoerceError → String
  | .badLiteral text =>
    "invalid literal for int() with base 10: "
      ++ String.ofList ((Text.quoted text.toList).toList.take 200)
  | .badType type =>
    "int() argument must be a string, a bytes-like object or a real number, not '" ++ type ++ "'"
  | .arith e => e.message

/-- The integer in a JSON value: truth values count 0 and 1, doubles lose their fraction, and a
string must be an integer written out. -/
def toInteger : Json → Except CoerceError Int
  | .int n => .ok n
  | .bool b => .ok (if b then 1 else 0)
  | .float x => x.truncate.mapError .arith
  | .str s =>
    match integer s.toList with
    | .ok n => .ok n
    | .error .malformed => .error (.badLiteral s)
    | .error (.tooManyDigits count) => .error (.arith (.tooManyDigits count))
  | .null => .error (.badType "NoneType")
  | .arr _ => .error (.badType "list")
  | .obj _ => .error (.badType "dict")

/-- Replaces a field of the record by name; a name it does not have changes nothing. -/
def replaceByName {α : Type} (fields : List (Setting α)) (a : α) (name : String) (value : Json) :
    Except CoerceError α :=
  match fields.find? (·.name = name) with
  | some ⟨_, .int _ set⟩ => (toInteger value).map (set · a)
  | some ⟨_, .float _ set⟩ =>
    match value with
    | .float x => .ok (set x a)
    | value => do
      let n ← toInteger value
      let x ← (Binary64.ofInt n).mapError .arith
      return set x a
  | none => .ok a

/-- The record with the numbers of a JSON object; names it does not have are passed over. -/
def recordOf {α : Type} (fields : List (Setting α)) (defaults : α)
    (members : List (String × Json)) : Except CoerceError α :=
  members.foldlM (fun a (name, value) => replaceByName fields a name value) defaults

end InkGauge.Settings
