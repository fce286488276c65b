import InkGauge.Text.Blank
import InkGauge.Text.Ways
import InkGauge.Text.Word

namespace InkGauge.Contract

open Text

/-- Kinds of token that are not a fixed spelling. -/
inductive Token where
  /-- White space and line comments. -/
  | gap
  /-- The inside of a block comment, up to where a comment opens or closes. -/
  | commentText
  /-- A given word that no word character continues. -/
  | word (w : List Char)
  | reserved
  | name
  | underscore
  | selfWord
  | lifetime
  | truth
  | number
  | character
  | string
  | rawString
  | digits
  /-- Anything in a token tree that is no bracket, quote, slash or white space. -/
  | loose
  deriving DecidableEq

namespace Token

def isHex (c : Char) : Bool :=
  c.isDigit || ('a' ≤ c && c ≤ 'f') || ('A' ≤ c && c ≤ 'F')

/-- The length of white space and line comments; `comment` says that a comment was opened. -/
def gapLength (comment : Bool) : List Char → Nat
  | [] => 0
  | '/' :: '/' :: s => if comment then gapLength true ('/' :: s) + 1 else gapLength true s + 2
  | c :: s =>
    if comment then gapLength (c != '\n') s + 1
    else if isSpace c then gapLength false s + 1 else 0

/-- The length of text in which no block comment opens or closes. -/
def commentTextLength : List Char → Nat
  | [] => 0
  | '/' :: '*' :: _ => 0
  | '*' :: '/' :: _ => 0
  | _ :: s => commentTextLength s + 1

/-- A length, if it is not zero. -/
def some? (n : Nat) : Option Nat := if n = 0 then none else some n

/-- The length of a word of the list that no word character continues. -/
def wordLength? (ws : List (List Char)) (s : List Char) : Option Nat :=
  ws.findSome? fun w =>
    match dropPrefix? w s with
    | some rest => if wordEnds rest then some w.length else none
    | none => none

/-- Words that are no identifiers. -/
def reservedWords : List (List Char) :=
  ["as", "async", "await", "box", "break", "const", "continue", "crate", "dyn", "else", "enum",
    "extern", "false", "fn", "for", "if", "impl", "in", "let", "loop", "match", "mod", "move",
    "mut", "pub", "ref", "return", "self", "Self", "static", "struct", "super", "trait", "true",
    "type", "unsafe", "use", "where", "while", "yield"].map String.toList

def selfWords : List (List Char) := ["self", "Self", "super", "crate"].map String.toList

def truthWords : List (List Char) := ["true", "false"].map String.toList

/-- The length of an identifier, given that it starts here. -/
def identLength : List Char → Option Nat
  | c :: s => if isIdentStart c then some ((s.takeWhile isIdentPart).length + 1) else none
  | [] => none

/-- An identifier, raw or plain. A lone underscore is none. -/
def nameLength? (s : List Char) : Option Nat :=
  let plain := match s with
    | '_' :: rest => if wordEnds rest then none else identLength s
    | _ => identLength s
  match s with
  | 'r' :: '#' :: rest => ((identLength rest).map (· + 2)).or plain
  | _ => plain

/-- The length of a string's inside and its closing quote. -/
def stringRest? : List Char → Option Nat
  | '"' :: _ => some 1
  | '\\' :: _ :: s => (stringRest? s).map (· + 2)
  | '\\' :: [] => none
  | _ :: s => (stringRest? s).map (· + 1)
  | [] => none

/-- The length up to a quote with `fence` behind it. -/
def rawRest? (fence : List Char) : List Char → Option Nat
  | [] => none
  | c :: s =>
    if c = '"' && startsWith fence s then some (fence.length + 1)
    else (rawRest? fence s).map (· + 1)

/-- A raw string from its `r` on. -/
def rawBody? : List Char → Option Nat
  | 'r' :: s =>
    let fence := s.takeWhile (· == '#')
    match s.dropWhile (· == '#') with
    | '"' :: rest => (rawRest? fence rest).map (· + fence.length + 2)
    | _ => none
  | _ => none

/-- The length with a leading `b`, and if that fails without one. -/
def byteMarked? (length? : List Char → Option Nat) (s : List Char) : Option Nat :=
  match s with
  | 'b' :: rest => ((length? rest).map (· + 1)).or (length? s)
  | _ => length? s

def quoted? : List Char → Option Nat
  | '"' :: s => (stringRest? s).map (· + 1)
  | _ => none

/-- What can stand between the quotes of a character literal. -/
def characterBody : Ways :=
  (Ways.char fun c => c != '\'' && c != '\\' && c != '\n')
    |>.or ((Ways.text "\\u\x7b").next ((Ways.run1 isHex).next (Ways.text "\x7d")))
    |>.or ((Ways.text "\\x").next ((Ways.char isHex).next (Ways.char isHex)))
    |>.or ((Ways.text "\\").next (Ways.char (· != '\n')))

def characterWays : Ways :=
  (Ways.text "b").opt.next ((Ways.text "'").next (characterBody.next (Ways.text "'")))

/-- A quote and a name that no quote closes. -/
def lifetimeWays : Ways :=
  (Ways.text "'").next ((Ways.char isIdentStart).next
    ((Ways.run isIdentPart).next (Ways.barred (· == '\''))))

def isDigitMark (c : Char) : Bool := c.isDigit || c == '_'

/-- Decimal digits and underscores that start with a digit. -/
def decimalRun : Ways := (Ways.char Char.isDigit).next (Ways.run isDigitMark)

def exponentWays : Ways :=
  (Ways.char fun c => c == 'e' || c == 'E').next
    ((Ways.char fun c => c == '+' || c == '-').opt.next (Ways.run1 isDigitMark))

def suffixWays : Ways :=
  ((Ways.char fun c => c == 'i' || c == 'u').next
      ((Ways.text "8").or (Ways.text "16") |>.or (Ways.text "32") |>.or (Ways.text "64")
        |>.or (Ways.text "128") |>.or (Ways.text "size")))
    |>.or (Ways.text "f32") |>.or (Ways.text "f64")

def numberWays : Ways :=
  (((Ways.text "0x").next (Ways.run1 fun c => isHex c || c == '_'))
      |>.or ((Ways.text "0o").next (Ways.run1 fun c => ('0' ≤ c && c ≤ '7') || c == '_'))
      |>.or ((Ways.text "0b").next (Ways.run1 fun c => c == '0' || c == '1' || c == '_'))
      |>.or (decimalRun.next (((Ways.text ".").next decimalRun).opt.next exponentWays.opt))).next
    (suffixWays.opt.next (Ways.barred isIdentPart))

def isLoose (c : Char) : Bool :=
  !(isSpace c || c == '(' || c == ')' || c == '[' || c == ']' || c == '\x7b' || c == '\x7d'
    || c == '"' || c == '\'' || c == '/')

/-- How many characters the token takes from the start of a text. -/
def scan : Token → List Char → Option Nat
  | .gap, s => some? (gapLength false s)
  | .commentText, s => some? (commentTextLength s)
  | .word w, s => wordLength? [w] s
  | .reserved, s => wordLength? reservedWords s
  | .name, s => nameLength? s
  | .underscore, s =>
    match s with
    | '_' :: rest => if rest.head?.any isIdentPart then none else some 1
    | _ => none
  | .selfWord, s => wordLength? selfWords s
  | .lifetime, s => lifetimeWays.length? s
  | .truth, s => wordLength? truthWords s
  | .number, s => numberWays.length? s
  | .character, s => characterWays.length? s
  | .string, s => byteMarked? quoted? s
  | .rawString, s => byteMarked? rawBody? s
  | .digits, s => some? (s.takeWhile Char.isDigit).length
  | .loose, s => some? (s.takeWhile isLoose).length

end Token

end InkGauge.Contract
