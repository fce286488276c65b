import InkGauge.Number.Decimal

/-!
Integers and doubles are kept apart. The members of an object keep the order in which their names
first came.
-/

namespace InkGauge

open Number

inductive Json where
  | null
  | bool (b : Bool)
  | int (n : Int)
  | float (x : Binary64)
  | str (s : String)
  | arr (items : List Json)
  | obj (members : List (String × Json))

instance : Inhabited Json := ⟨.null⟩

namespace Json

/-- Gives a name its value; a name that is there keeps its place. -/
def put (name : String) (value : Json) : List (String × Json) → List (String × Json)
  | [] => [(name, value)]
  | (n, v) :: rest => if n = name then (n, value) :: rest else (n, v) :: put name value rest

def get? (name : String) (members : List (String × Json)) : Option Json :=
  members.lookup name

def hexDigit (n : Nat) : Char := (Nat.digitChar (n % 16))

/-- A character inside quotes: only quotes, backslashes and controls are escaped. -/
def quoteChar (c : Char) : List Char :=
  if c = '"' then ['\\', '"']
  else if c = '\\' then ['\\', '\\']
  else if c = '\n' then ['\\', 'n']
  else if c = '\r' then ['\\', 'r']
  else if c = '\t' then ['\\', 't']
  else if c.toNat = 8 then ['\\', 'b']
  else if c.toNat = 12 then ['\\', 'f']
  else if c.toNat < 32 then ['\\', 'u', '0', '0', hexDigit (c.toNat / 16), hexDigit c.toNat]
  else [c]

def quote (s : String) : String :=
  "\"" ++ String.ofList (s.toList.flatMap quoteChar) ++ "\""

def floatText (x : Binary64) : String :=
  match x with
  | .nan => "NaN"
  | .infinite s => if s then "-Infinity" else "Infinity"
  | x => x.text

/-- A line break and `depth` steps of two blanks. -/
def newline (depth : Nat) : String :=
  String.ofList ('\n' :: List.replicate (2 * depth) ' ')

mutual

/-- The value over several lines, from a nesting of `depth` on. -/
def pretty (depth : Nat) : Json → String
  | .null => "null"
  | .bool b => if b then "true" else "false"
  | .int n => intText n
  | .float x => floatText x
  | .str s => quote s
  | .arr [] => "[]"
  | .arr (x :: xs) =>
    "[" ++ newline (depth + 1) ++ pretty (depth + 1) x ++ prettyItems (depth + 1) xs
      ++ newline depth ++ "]"
  | .obj [] => "\x7b\x7d"
  | .obj ((name, x) :: ms) =>
    "\x7b" ++ newline (depth + 1) ++ quote name ++ ": " ++ pretty (depth + 1) x
      ++ prettyMembers (depth + 1) ms ++ newline depth ++ "\x7d"

def prettyItems (depth : Nat) : List Json → String
  | [] => ""
  | x :: xs => "," ++ newline depth ++ pretty depth x ++ prettyItems depth xs

def prettyMembers (depth : Nat) : List (String × Json) → String
  | [] => ""
  | (name, x) :: ms =>
    "," ++ newline depth ++ quote name ++ ": " ++ pretty depth x ++ prettyMembers depth ms

end

end Json

end InkGauge
