import InkGauge.Text.Blank
import InkGauge.Text.Digit

namespace InkGauge.Number

open Text

/-- An integer of more digits than this is not read. -/
def maxDigits : Nat := 4300

/-- Why a text stands for no integer. -/
inductive LiteralError where
  | malformed
  | tooManyDigits (count : Nat)
  deriving DecidableEq

/-- The digits of any script at the start of a text, with single underscores between them: their
value, their number, and what follows. `n` and `count` stand for the digits before. -/
def digitRun? (n count : Nat) : List Char → Option (Nat × Nat × List Char)
  | [] => some (n, count, [])
  | ['_'] => none
  | '_' :: c :: s => (digit? c).bind fun d => digitRun? (10 * n + d) (count + 1) s
  | c :: s =>
    match digit? c with
    | some d => digitRun? (10 * n + d) (count + 1) s
    | none => some (n, count, c :: s)

/-- The value of a text of digits that starts with one. The digits are counted before it is seen
whether anything else follows them. -/
def digits : List Char → Except LiteralError Nat
  | [] => .error .malformed
  | c :: s =>
    match (digit? c).bind fun d => digitRun? d 1 s with
    | none => .error .malformed
    | some (n, count, rest) =>
      if maxDigits < count then .error (.tooManyDigits count)
      else if rest.isEmpty then .ok n
      else .error .malformed

/-- Without the white space at either end. -/
def trimSpace (s : List Char) : List Char :=
  ((s.dropWhile isSpace).reverse.dropWhile isSpace).reverse

/-- The integer that a text stands for. White space around it and a sign are allowed. -/
def integer (s : List Char) : Except LiteralError Int :=
  match trimSpace s with
  | '-' :: s => (digits s).map fun n => -(n : Int)
  | '+' :: s => (digits s).map Int.ofNat
  | s => (digits s).map Int.ofNat

end InkGauge.Number
