/-!
Two sets are in use. `isSpace` is the White_Space property, which separates tokens in a contract.
`isBlank` has the four information separators U+001C to U+001F besides, and is the set that
trimming and canonical spacing go by.
-/

namespace InkGauge.Text

/-- The White_Space property. -/
def isSpace (c : Char) : Bool :=
  let n := c.toNat
  (9 ≤ n && n ≤ 13) || n == 0x20 || n == 0x85 || n == 0xA0 || n == 0x1680
    || (0x2000 ≤ n && n ≤ 0x200A) || n == 0x2028 || n == 0x2029 || n == 0x202F
    || n == 0x205F || n == 0x3000

/-- White space or one of the information separators U+001C to U+001F. -/
def isBlank (c : Char) : Bool :=
  (0x1C ≤ c.toNat && c.toNat ≤ 0x1F) || isSpace c

theorem isBlank_of_isSpace {c : Char} (h : isSpace c = true) : isBlank c = true := by
  simp [isBlank, h]

/-- Without the blanks in front. -/
def trimLeft (s : List Char) : List Char :=
  s.dropWhile isBlank

/-- Without the blanks at the end. -/
def trimRight (s : List Char) : List Char :=
  (s.reverse.dropWhile isBlank).reverse

/-- Without the blanks at either end. -/
def trim (s : List Char) : List Char :=
  trimRight (trimLeft s)

end InkGauge.Text
