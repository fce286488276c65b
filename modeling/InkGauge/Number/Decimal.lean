import InkGauge.Number.Binary64

/-!
`shortest` takes the fewest digits that read back as the same number, and of those the nearest.
`fixed` takes a given number of places.
-/

namespace InkGauge.Number

/-- The decimal digits of a natural number. -/
def natText (n : Nat) : String := String.ofList (Nat.toDigits 10 n)

/-- The decimal digits of an integer, however many there are: the limit on the digits of a number is
kept where numbers are read, and left out here. -/
def intText (n : Int) : String :=
  if n < 0 then "-" ++ natText n.natAbs else natText n.natAbs

namespace Binary64

/-- Digits and a power of ten: `digits · 10 ^ exponent`. -/
structure Digits where
  digits : Nat
  exponent : Int

/-- The power of ten at or below `n / d`, for positive `n`. -/
def decimalExponent (n d : Nat) : Int :=
  if d ≤ n then ((Nat.toDigits 10 (n / d)).length : Int) - 1
  else
    -- `k` places to the right, where `10 ^ k` is the first power that makes up for the quotient.
    let k := (Nat.toDigits 10 (d / n)).length
    let k := if d ≤ n * Nat.pow 10 (k - 1) then k - 1 else k
    Int.negOfNat k

/-- The value nearest to `n / d` with `count` digits that reads back as `x`, if there is one. Of two
that are as near the one with even digits is taken. -/
def withDigits? (x : Binary64) (n d count : Nat) : Option Digits :=
  let e := decimalExponent n d - ((count : Int) - 1)
  let (n', d') := if 0 ≤ e then (n, d * Nat.pow 10 e.toNat)
    else (n * Nat.pow 10 (-e).toNat, d)
  let low := n' / d'
  let reads (k : Nat) : Bool := ofDecimal x.isNegative k e == x
  match reads low, reads (low + 1) with
  | true, true => some ⟨roundDiv n' d', e⟩
  | true, false => some ⟨low, e⟩
  | false, true => some ⟨low + 1, e⟩
  | false, false => none

/-- The fewest digits that read back; seventeen always do. -/
def shortestDigits (x : Binary64) (n d : Nat) : Digits :=
  ((List.range 17).findSome? fun i => withDigits? x n d (i + 1)).getD ⟨0, 0⟩

/-- Without the zeros at the end of the digits. -/
def Digits.strip : Nat → Digits → Digits
  | 0, x => x
  | k + 1, x =>
    if x.digits % 10 = 0 && x.digits != 0 then strip k ⟨x.digits / 10, x.exponent + 1⟩ else x

/-- A number as text: positional from `10 ^ -4` up to below `10 ^ 16` and always with a fraction,
else with an exponent of at least two digits. -/
def text : Binary64 → String
  | .nan => "nan"
  | .infinite s => if s then "-inf" else "inf"
  | .finite s m e =>
    let sign := if s then "-" else ""
    if m = 0 then sign ++ "0.0"
    else
      let (n, d) := fraction m e
      let x := (shortestDigits (.finite s m e) n d).strip 20
      let ds := Nat.toDigits 10 x.digits
      let point : Int := ds.length + x.exponent
      if -4 < point && point ≤ 16 then
        if point ≤ 0 then
          sign ++ "0." ++ String.ofList (List.replicate (-point).toNat '0' ++ ds)
        else
          let k := point.toNat
          if ds.length ≤ k then
            sign ++ String.ofList (ds ++ List.replicate (k - ds.length) '0') ++ ".0"
          else sign ++ String.ofList (ds.take k) ++ "." ++ String.ofList (ds.drop k)
      else
        let head := String.ofList (ds.take 1)
        let tail := if ds.length = 1 then "" else "." ++ String.ofList (ds.drop 1)
        let e := point - 1
        let es := Nat.toDigits 10 e.natAbs
        let es := List.replicate (2 - es.length) '0' ++ es
        sign ++ head ++ tail ++ "e" ++ (if e < 0 then "-" else "+") ++ String.ofList es

/-- A number with a given count of places; a half goes to the even neighbour. -/
def fixed (places : Nat) : Binary64 → String
  | .nan => "nan"
  | .infinite s => if s then "-inf" else "inf"
  | .finite s m e =>
    let (n, d) := fraction m e
    let ds := Nat.toDigits 10 (roundDiv (n * Nat.pow 10 places) d)
    let ds := List.replicate (places + 1 - ds.length) '0' ++ ds
    let whole := String.ofList (ds.take (ds.length - places))
    let sign := if s then "-" else ""
    if places = 0 then sign ++ whole
    else sign ++ whole ++ "." ++ String.ofList (ds.drop (ds.length - places))

end Binary64

end InkGauge.Number
