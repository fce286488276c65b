import InkGauge.Number.Decimal

/-!
Edits: stretches of a text and what is to stand in their place.

Edits are made from the back of the text to its front, so that none of them moves the others.
-/

namespace InkGauge.Probe

/-- Puts `replacement` in the place of the characters from `start` up to `stop`. -/
structure Edit where
  start : Int
  stop : Int
  replacement : List Char
  deriving DecidableEq

/-- An edit that reaches into the one behind it, or past the end of the text. -/
structure Overlap where
  offset : Int
  deriving DecidableEq

def Overlap.message (o : Overlap) : String :=
  "overlapping edit at offset " ++ Number.intText o.offset

/-- How many characters of a text stand before an offset. An offset below zero counts from the end
of the text, and none lies before its start. -/
def charsBefore (text : List Char) (offset : Int) : Nat :=
  if offset < 0 then (text.length + offset).toNat else offset.toNat

/-- The text with one stretch replaced. -/
def Edit.splice (e : Edit) (text : List Char) : List Char :=
  text.take (charsBefore text e.start) ++ e.replacement ++ text.drop (charsBefore text e.stop)

/-- Makes edits one after the other, none beyond where the one before it began. -/
def spliceAll (limit : Int) (text : List Char) : List Edit → Except Overlap (List Char)
  | [] => .ok text
  | e :: es => if limit < e.stop then .error ⟨e.start⟩ else spliceAll e.start (e.splice text) es

/-- The edits from the back to the front; those that start together keep their order. -/
def backToFront (edits : List Edit) : List Edit :=
  edits.mergeSort fun a b => decide (b.start ≤ a.start)

/-- The text with every edit made. -/
def applyEdits (text : List Char) (edits : List Edit) : Except Overlap (List Char) :=
  spliceAll text.length text (backToFront edits)

end InkGauge.Probe
