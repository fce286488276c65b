/-!
A finite number is held as a sign, a mantissa below `2 ^ 53` and an exponent of two that is at least
`-1074`. Every operation rounds the exact result once, to the nearest number, and a result halfway
between two goes to the one with the even mantissa.
-/

namespace InkGauge.Number

inductive Binary64 where
  | finite (negative : Bool) (mantissa : Nat) (exponent : Int)
  | infinite (negative : Bool)
  | nan
  deriving DecidableEq, Inhabited

/-- Why an arithmetic step has no result. -/
inductive ArithError where
  /-- The quotient of two integers lies beyond the doubles. -/
  | quotientTooLarge
  /-- An integer lies beyond the doubles. -/
  | integerTooLarge
  | infinityToInteger
  | nanToInteger
  | divisionByZero
  /-- An integer is written with more digits than are read. -/
  | tooManyDigits (count : Nat)
  /-- A count of characters lies beyond the integers of the machine. -/
  | countTooLarge
  /-- A text of that many characters does not fit into memory. -/
  | textTooLong
  deriving DecidableEq

def ArithError.message : ArithError → String
  | .quotientTooLarge => "integer division result too large for a float"
  | .integerTooLarge => "int too large to convert to float"
  | .infinityToInteger => "cannot convert float infinity to integer"
  | .nanToInteger => "cannot convert float NaN to integer"
  | .divisionByZero => "integer division or modulo by zero"
  | .tooManyDigits count =>
    "Exceeds the limit (4300 digits) for integer string conversion: value has " ++ toString count
      ++ " digits; use sys.set_int_max_str_digits() to increase the limit"
  | .countTooLarge => "cannot fit 'int' into an index-sized integer"
  | .textTooLong => ""

/-- The most characters that one character can be repeated to. -/
def maxRepeat : Int := Int.pow 2 36

/-- How often a character stands in a text that repeats it `n` times: not at all if `n` is negative,
and there is no such text if `n` is too large. -/
def repeatCount (n : Int) : Except ArithError Nat :=
  if n < -Int.pow 2 63 || Int.pow 2 63 ≤ n then .error .countTooLarge
  else if maxRepeat < n then .error .textTooLong
  else .ok n.toNat

/-- `n / d` rounded to an integer, a half to the even neighbour. -/
def roundDiv (n d : Nat) : Nat :=
  let q := n / d
  let r := n % d
  if 2 * r < d then q
  else if d < 2 * r then q + 1
  else q + q % 2

namespace Binary64

/-- The least exponent of two. -/
def minExponent : Int := -1074

/-- The greatest exponent of two of a full mantissa. -/
def maxExponent : Int := 971

def zero (negative : Bool) : Binary64 := .finite negative 0 minExponent

/-- `n / d / 2 ^ e` rounded to an integer. -/
def scaled (n d : Nat) (e : Int) : Nat :=
  if 0 ≤ e then roundDiv n (d * Nat.pow 2 e.toNat)
  else roundDiv (n * Nat.pow 2 (-e).toNat) d

/-- The exponent at which `n / d` fills a mantissa, or the least exponent if it is too small. -/
def fittingExponent (n d : Nat) : Int :=
  let e : Int := (n.log2 : Int) - d.log2 - 53
  let full := if 0 ≤ e then d * Nat.pow 2 e.toNat * Nat.pow 2 53 ≤ n
    else d * Nat.pow 2 53 ≤ n * Nat.pow 2 (-e).toNat
  max (if full then e + 1 else e) minExponent

/-- The number nearest to `n / d`. -/
def ofRatio (negative : Bool) (n d : Nat) : Binary64 :=
  if n = 0 then zero negative
  else
    let e := fittingExponent n d
    let m := scaled n d e
    let (m, e) := if m = Nat.pow 2 53 then (Nat.pow 2 52, e + 1) else (m, e)
    if maxExponent < e then .infinite negative else .finite negative m e

/-- `m · 2 ^ e` as a fraction. -/
def fraction (m : Nat) (e : Int) : Nat × Nat :=
  if 0 ≤ e then (m * Nat.pow 2 e.toNat, 1) else (m, Nat.pow 2 (-e).toNat)

def isNegative : Binary64 → Bool
  | .finite s _ _ => s
  | .infinite s => s
  | .nan => false

def isInfinite : Binary64 → Bool
  | .infinite _ => true
  | _ => false

/-- Are the numbers equal as values? Zeros of both signs are, and nothing equals NaN. -/
def same : Binary64 → Binary64 → Bool
  | .finite s m e, .finite s' m' e' => (m == 0 && m' == 0) || (s == s' && m == m' && e == e')
  | .infinite s, .infinite s' => s == s'
  | _, _ => false

def mul : Binary64 → Binary64 → Binary64
  | .finite s m e, .finite s' m' e' =>
    let (n, d) := fraction (m * m') (e + e')
    ofRatio (s != s') n d
  | .finite s m _, .infinite s' => if m = 0 then .nan else .infinite (s != s')
  | .infinite s, .finite s' m _ => if m = 0 then .nan else .infinite (s != s')
  | .infinite s, .infinite s' => .infinite (s != s')
  | .nan, _ => .nan
  | _, .nan => .nan

/-- Division by a positive integer that is a double itself. -/
def divNat : Binary64 → Nat → Binary64
  | .finite s m e, k =>
    let (n, d) := fraction m e
    ofRatio s n (d * k)
  | x, _ => x

/-- The number nearest to an integer. -/
def ofInt (n : Int) : Except ArithError Binary64 :=
  match ofRatio (n < 0) n.natAbs 1 with
  | .infinite _ => .error .integerTooLarge
  | x => .ok x

/-- The number nearest to `a / b`. -/
def ofQuotient (a b : Int) : Except ArithError Binary64 :=
  if b = 0 then .error .divisionByZero
  else
    match ofRatio ((a < 0) != (b < 0)) a.natAbs b.natAbs with
    | .infinite _ => .error .quotientTooLarge
    | x => .ok x

/-- The number without its fractional part. -/
def truncate : Binary64 → Except ArithError Int
  | .finite s m e =>
    let (n, d) := fraction m e
    let q : Int := (n / d : Nat)
    .ok (if s then -q else q)
  | .infinite _ => .error .infinityToInteger
  | .nan => .error .nanToInteger

/-- The number nearest to `digits · 10 ^ e`. Values of `10 ^ 400` and more are infinite and those
below `10 ^ -400` are zero, so their powers of ten need not be worked out. -/
def ofDecimal (negative : Bool) (digits : Nat) (e : Int) : Binary64 :=
  if digits = 0 then zero negative
  else
    let size : Int := (Nat.toDigits 10 digits).length + e
    if 400 < size then .infinite negative
    else if size < -400 then zero negative
    else if 0 ≤ e then ofRatio negative (digits * Nat.pow 10 e.toNat) 1
    else ofRatio negative digits (Nat.pow 10 (-e).toNat)

def hundred : Binary64 := ofDecimal false 100 0

/-- The share `a / b` as a percentage: the quotient is rounded, and then its hundredfold. -/
def percentage (a b : Int) : Except ArithError Binary64 :=
  (ofQuotient a b).map (mul · hundred)

end Binary64

end InkGauge.Number
