/-!
Line numbers count line feeds. A text is cut into lines at every line boundary: carriage return and
line feed, alone or together, vertical tab, form feed, the separators U+001C to U+001E, U+0085,
U+2028 and U+2029.
-/

namespace InkGauge.Text

def isLineBoundary (c : Char) : Bool :=
  let n := c.toNat
  (10 ≤ n && n ≤ 13) || (0x1C ≤ n && n ≤ 0x1E) || n == 0x85 || n == 0x2028 || n == 0x2029

/-- The lines of a text, given the characters of the line in hand, the last in front. -/
def linesFrom : List Char → List Char → List (List Char)
  | [], [] => []
  | line, [] => [line.reverse]
  | line, '\r' :: '\n' :: s => line.reverse :: linesFrom [] s
  | line, c :: s =>
    if isLineBoundary c then line.reverse :: linesFrom [] s else linesFrom (c :: line) s

/-- The lines of a text, without their boundaries. A boundary at the end opens no further line. -/
def lines (s : List Char) : List (List Char) := linesFrom [] s

/-- The pieces of a text between the occurrences of a character; there is always one. -/
def pieces (separator : Char) : List Char → List (List Char)
  | [] => [[]]
  | c :: s =>
    if c = separator then [] :: pieces separator s
    else
      match pieces separator s with
      | [] => [[c]]
      | piece :: rest => (c :: piece) :: rest

/-- The pieces of a text between line feeds. -/
def splitLineFeeds (s : List Char) : List (List Char) := pieces '\n' s

/-- Every way to end a line as a line feed. -/
def unifyNewlines : List Char → List Char
  | '\r' :: '\n' :: s => '\n' :: unifyNewlines s
  | '\r' :: s => '\n' :: unifyNewlines s
  | c :: s => c :: unifyNewlines s
  | [] => []

end InkGauge.Text
