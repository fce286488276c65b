import InkGauge.Text.Printable

namespace InkGauge.Text

/-- `n` in `width` hexadecimal digits. -/
def hex (width n : Nat) : List Char :=
  let ds := Nat.toDigits 16 n
  List.replicate (width - ds.length) '0' ++ ds

def escapeChar (mark c : Char) : List Char :=
  if c = mark || c = '\\' then ['\\', c]
  else if c = '\n' then ['\\', 'n']
  else if c = '\r' then ['\\', 'r']
  else if c = '\t' then ['\\', 't']
  else if isPrintable c then [c]
  else if c.toNat < 0x100 then '\\' :: 'x' :: hex 2 c.toNat
  else if c.toNat < 0x10000 then '\\' :: 'u' :: hex 4 c.toNat
  else '\\' :: 'U' :: hex 8 c.toNat

/-- The text between single quotes; between double quotes if it has single quotes only. -/
def quoted (s : List Char) : String :=
  let mark := if s.contains '\'' && !s.contains '"' then '"' else '\''
  String.ofList (mark :: s.flatMap (escapeChar mark) ++ [mark])

end InkGauge.Text
