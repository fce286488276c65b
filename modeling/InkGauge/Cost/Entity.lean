import InkGauge.Text.Ranges
import InkGauge.Text.Search
import InkGauge.Text.Spacing

namespace InkGauge.Cost

open Text

/-- What stands for a field that cannot be told. -/
def unknownEntity : String := "unknown"

/-- Words that come after `self.` and name no field. -/
def reservedEntities : List String :=
  ["mut", "ref", "as", "let", "where", "self", "get", "insert"]

/-- The name at the start of a text, if a point follows it. -/
def nameBeforePoint? : List Char → Option (List Char)
  | c :: s =>
    if isIdentStart c then
      match s.dropWhile isIdentPart with
      | '.' :: _ => some (c :: s.takeWhile isIdentPart)
      | _ => none
    else none
  | [] => none

/-- The first name that stands between `self.` and another point. -/
def fieldName? : List Char → Option (List Char)
  | [] => none
  | c :: s =>
    ((dropPrefix? "self.".toList (c :: s)).bind nameBeforePoint?).or (fieldName? s)

/-- The field that the code touches first. Blanks do not count. -/
def entityOf (code : String) : String :=
  match fieldName? (squeeze code.toList) with
  | some name =>
    let name := String.ofList name
    if reservedEntities.contains name then unknownEntity else name
  | none => unknownEntity

end InkGauge.Cost
