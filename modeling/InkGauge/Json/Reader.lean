import InkGauge.Json.Value
import InkGauge.Number.Literal
import InkGauge.Text.Search

/-!
Reading JSON.

Besides the standard, `NaN`, `Infinity` and `-Infinity` are numbers. A fault is told by its cause
and by how many characters were left of the text at its place.
-/

namespace InkGauge.Json

open Number

inductive Cause where
  | value | propertyName | colon | comma | extraData
  | unterminatedString | controlCharacter | badEscape | badUnicodeEscape | byteOrderMark
  | tooManyDigits (count : Nat)
  deriving DecidableEq

def Cause.message : Cause → String
  | .value => "Expecting value"
  | .propertyName => "Expecting property name enclosed in double quotes"
  | .colon => "Expecting ':' delimiter"
  | .comma => "Expecting ',' delimiter"
  | .extraData => "Extra data"
  | .unterminatedString => "Unterminated string starting at"
  | .controlCharacter => "Invalid control character at"
  | .badEscape => "Invalid \\escape"
  | .badUnicodeEscape => "Invalid \\uXXXX escape"
  | .byteOrderMark => "Unexpected UTF-8 BOM (decode using utf-8-sig)"
  | .tooManyDigits count => ArithError.message (.tooManyDigits count)

/-- A cause, and how much of the text was left where it showed. -/
structure Fault where
  cause : Cause
  left : Nat

/-- What was read, and the text behind it. -/
abbrev Read (α : Type) := Except Fault (α × List Char)

def fail {α : Type} (cause : Cause) (s : List Char) : Except Fault α := .error ⟨cause, s.length⟩

def isJsonBlank (c : Char) : Bool := c == ' ' || c == '\t' || c == '\n' || c == '\r'

def skipBlanks (s : List Char) : List Char := s.dropWhile isJsonBlank

def hexValue? (c : Char) : Option Nat :=
  if c.isDigit then some (c.toNat - '0'.toNat)
  else if 'a' ≤ c && c ≤ 'f' then some (c.toNat - 'a'.toNat + 10)
  else if 'A' ≤ c && c ≤ 'F' then some (c.toNat - 'A'.toNat + 10)
  else none

def hexValue4? (a b c d : Char) : Option Nat := do
  return ((← hexValue? a) * 16 + (← hexValue? b)) * 256 + (← hexValue? c) * 16 + (← hexValue? d)

def isHighSurrogate (n : Nat) : Bool := 0xD800 ≤ n && n < 0xDC00

def isLowSurrogate (n : Nat) : Bool := 0xDC00 ≤ n && n < 0xE000

/-- The character of a code; half of a pair alone stands for no character. -/
def charOfCode (n : Nat) : Char :=
  if 0xD800 ≤ n && n < 0xE000 then Char.ofNat 0xFFFD else Char.ofNat n

def simpleEscape? : Char → Option Char
  | '"' => some '"'
  | '\\' => some '\\'
  | '/' => some '/'
  | 'b' => some (Char.ofNat 8)
  | 'f' => some (Char.ofNat 12)
  | 'n' => some '\n'
  | 'r' => some '\r'
  | 't' => some '\t'
  | _ => none

/-- The inside of a string, whose opening quote stood where `opened` characters were left; `acc`
holds what was read, the last character in front. An escaped code needs a character behind it, and
one that could complete a pair is looked at together with it. -/
def readString (opened : Nat) : List Char → List Char → Read String
  | acc, '"' :: s => .ok (String.ofList acc.reverse, s)
  | acc, '\\' :: 'u' :: s =>
    match s with
    | a :: b :: c :: d :: e :: rest =>
      match hexValue4? a b c d with
      | none => fail .badUnicodeEscape ('u' :: s)
      | some n =>
        match e, rest with
        | '\\', 'u' :: a' :: b' :: c' :: d' :: f :: rest' =>
          if isHighSurrogate n then
            match hexValue4? a' b' c' d' with
            | none => fail .badUnicodeEscape ('u' :: a' :: b' :: c' :: d' :: f :: rest')
            | some n' =>
              if isLowSurrogate n' then
                let code := 0x10000 + (n - 0xD800) * 0x400 + (n' - 0xDC00)
                readString opened (Char.ofNat code :: acc) (f :: rest')
              else
                readString opened (charOfCode n :: acc)
                  ('\\' :: 'u' :: a' :: b' :: c' :: d' :: f :: rest')
          else
            readString opened (charOfCode n :: acc)
              ('\\' :: 'u' :: a' :: b' :: c' :: d' :: f :: rest')
        | e, rest => readString opened (charOfCode n :: acc) (e :: rest)
    | _ => fail .badUnicodeEscape ('u' :: s)
  | acc, '\\' :: c :: s =>
    match simpleEscape? c with
    | some c => readString opened (c :: acc) s
    | none => fail .badEscape ('\\' :: c :: s)
  | _, '\\' :: [] => .error ⟨.unterminatedString, opened⟩
  | acc, c :: s =>
    if c.toNat < 32 then fail .controlCharacter (c :: s) else readString opened (c :: acc) s
  | _, [] => .error ⟨.unterminatedString, opened⟩

/-- The value of a run of ASCII digits. -/
def natOfRun (ds : List Char) : Nat := ds.foldl (fun n c => 10 * n + (c.toNat - '0'.toNat)) 0

/-- The whole part of a number: a zero, or digits that do not start with one. -/
def takeWhole : List Char → Option (List Char × List Char)
  | '0' :: s => some (['0'], s)
  | c :: s =>
    if c.isDigit then some ((c :: s).takeWhile Char.isDigit, (c :: s).dropWhile Char.isDigit)
    else none
  | [] => none

/-- The digits behind a point, if any follow it. -/
def takeFraction : List Char → List Char × List Char
  | '.' :: c :: s =>
    if c.isDigit then ((c :: s).takeWhile Char.isDigit, (c :: s).dropWhile Char.isDigit)
    else ([], '.' :: c :: s)
  | s => ([], s)

/-- The exponent, if digits follow its mark. -/
def takeExponent (s : List Char) : Option (Int × List Char) :=
  match s with
  | c :: rest =>
    if c = 'e' || c = 'E' then
      let (negative, rest) := match rest with
        | '-' :: r => (true, r)
        | '+' :: r => (false, r)
        | r => (false, r)
      let ds := rest.takeWhile Char.isDigit
      if ds.isEmpty then none
      else
        some (if negative then -(natOfRun ds : Int) else natOfRun ds, rest.dropWhile Char.isDigit)
    else none
  | [] => none

/-- A number: an integer unless it has a fraction or an exponent. -/
def readNumber (s : List Char) : Read Json :=
  let (negative, t) := match s with
    | '-' :: t => (true, t)
    | t => (false, t)
  match takeWhole t with
  | none => fail .value s
  | some (whole, t) =>
    let (frac, t) := takeFraction t
    match takeExponent t with
    | some (e, t) =>
      .ok (.float (.ofDecimal negative (natOfRun (whole ++ frac)) (e - frac.length)), t)
    | none =>
      if frac.isEmpty && maxDigits < whole.length then fail (.tooManyDigits whole.length) s
      else if frac.isEmpty then
        let n : Int := natOfRun whole
        .ok (.int (if negative then -n else n), t)
      else .ok (.float (.ofDecimal negative (natOfRun (whole ++ frac)) (-(frac.length : Int))), t)

def constants : List (List Char × Json) :=
  [("null".toList, .null), ("true".toList, .bool true), ("false".toList, .bool false),
    ("NaN".toList, .float .nan), ("Infinity".toList, .float (.infinite false)),
    ("-Infinity".toList, .float (.infinite true))]

/-- A value that is no container. -/
def readScalar (s : List Char) : Read Json :=
  match s with
  | '"' :: rest => (readString s.length [] rest).map fun (t, rest) => (.str t, rest)
  | _ =>
    match constants.findSome? fun (word, v) => (Text.dropPrefix? word s).map (v, ·) with
    | some (v, rest) => .ok (v, rest)
    | none => readNumber s

mutual

/-- A value at the start of `s`. No text of fewer than `n` characters nests deeper than `n`. -/
def readValue : Nat → List Char → Read Json
  | 0, s => fail .value s
  | n + 1, s =>
    match s with
    | '\x7b' :: rest =>
      match skipBlanks rest with
      | '\x7d' :: rest => .ok (.obj [], rest)
      | rest => readMembers n [] rest
    | '[' :: rest =>
      match skipBlanks rest with
      | ']' :: rest => .ok (.arr [], rest)
      | rest => readItems n [] rest
    | s => readScalar s

def readItems : Nat → List Json → List Char → Except Fault (Json × List Char)
  | 0, _, s => fail .value s
  | n + 1, acc, s => do
    let (v, rest) ← readValue n s
    match skipBlanks rest with
    | ']' :: rest => .ok (.arr (v :: acc).reverse, rest)
    | ',' :: rest => readItems n (v :: acc) (skipBlanks rest)
    | rest => fail .comma rest

def readMembers :
    Nat → List (String × Json) → List Char → Except Fault (Json × List Char)
  | 0, _, s => fail .value s
  | n + 1, acc, s =>
    match s with
    | '"' :: rest => do
      let (name, rest) ← readString s.length [] rest
      match skipBlanks rest with
      | ':' :: rest =>
        let (v, rest) ← readValue n (skipBlanks rest)
        match skipBlanks rest with
        | '\x7d' :: rest => .ok (.obj (put name v acc), rest)
        | ',' :: rest => readMembers n (put name v acc) (skipBlanks rest)
        | rest => fail .comma rest
      | rest => fail .colon rest
    | s => fail .propertyName s

end

/-- The value that a whole text stands for. -/
def read (s : List Char) : Except Fault Json :=
  if s.head? = some (Char.ofNat 0xFEFF) then fail .byteOrderMark s
  else do
    let (v, rest) ← readValue (2 * s.length + 2) (skipBlanks s)
    match skipBlanks rest with
    | [] => .ok v
    | rest => fail .extraData rest

end InkGauge.Json
