namespace InkGauge.Text

/-- Ranges of code points, ends included, in increasing order. -/
abbrev Ranges := List (Nat × Nat)

def Ranges.contains (rs : Ranges) (n : Nat) : Bool :=
  rs.any fun (lo, hi) => lo ≤ n && n ≤ hi

/-- The ASCII letters and the underscore, which start an identifier. -/
def isIdentStart (c : Char) : Bool := c.isAlpha || c == '_'

/-- The ASCII letters and digits and the underscore, which continue an identifier. -/
def isIdentPart (c : Char) : Bool := c.isAlphanum || c == '_'

end InkGauge.Text
