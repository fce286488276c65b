import InkGauge.Text.Search

/-!
A pattern takes a text to what can be left of it, the preferred way first. Putting one pattern
after another keeps that order, so the first way of the whole is the one that a search with
backtracking finds first.
-/

namespace InkGauge.Text

/-- What can be left of a text once the pattern has matched at its start. -/
abbrev Ways := List Char → List (List Char)

namespace Ways

/-- One character of a class. -/
def char (p : Char → Bool) : Ways
  | c :: s => if p c then [s] else []
  | [] => []

/-- A fixed text. -/
def text (t : String) : Ways := fun s => (dropPrefix? t.toList s).toList

/-- The first pattern and then the second. -/
def next (p q : Ways) : Ways := fun s => (p s).flatMap q

/-- The first pattern, or else the second. -/
def or (p q : Ways) : Ways := fun s => p s ++ q s

/-- The pattern if it matches, but nothing will do. -/
def opt (p : Ways) : Ways := fun s => p s ++ [s]

/-- Any number of characters of a class, as many as possible first. -/
def run (p : Char → Bool) : Ways
  | c :: s => if p c then run p s ++ [c :: s] else [c :: s]
  | [] => [[]]

/-- At least one character of a class, as many as possible first. -/
def run1 (p : Char → Bool) : Ways := next (char p) (run p)

/-- Nothing, where no character of the class comes next. -/
def barred (p : Char → Bool) : Ways := fun s => if s.head?.any p then [] else [s]

/-- How many characters the first way takes. -/
def length? (p : Ways) (s : List Char) : Option Nat :=
  (p s).head?.map (s.length - ·.length)

end Ways

end InkGauge.Text
