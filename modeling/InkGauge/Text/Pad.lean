namespace InkGauge.Text

def blanks (n : Nat) : String := String.ofList (List.replicate n ' ')

/-- Blanks behind the text. -/
def padRight (width : Nat) (s : String) : String := s ++ blanks (width - s.length)

/-- Blanks before the text. -/
def padLeft (width : Nat) (s : String) : String := blanks (width - s.length) ++ s

/-- Blanks on both sides; an odd one goes behind. -/
def center (width : Nat) (s : String) : String :=
  let n := width - s.length
  blanks (n / 2) ++ s ++ blanks (n - n / 2)

end InkGauge.Text
